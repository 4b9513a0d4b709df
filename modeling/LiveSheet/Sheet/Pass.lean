import LiveSheet.Data.Table
import LiveSheet.Sheet.Sheet

namespace LiveSheet.Sheet

def enterContent (s : Sheet) (row column : Nat) : Option Content → Sheet
  | some (.native v) => s.enterValueAt row column v
  | some (.formula cell?) =>
      match cell?.bind (·.formula?) with
      | some text => s.enterTextAt row column text
      | none => s.clearAt row column
  | none => s.clearAt row column

def enterRow (s : Sheet) (schema : Schema) (row : Nat) (r : Row) : Sheet :=
  (List.range schema.width).foldl (fun s column => s.enterContent row column (r.content? schema column)) s

def enterSnapshot (s : Sheet) (snapshot : Snapshot) : Sheet :=
  let schema := snapshot.schema.value
  let filled := snapshot.rows.zipIdx.foldl (fun s p => s.enterRow schema p.2 p.1.value) s
  filled.setRowCount snapshot.size

def shown (s : Sheet) (evaluated : Bool) (row column : Nat) : Option Content → Outcome
  | some (.native v) => .ok v
  | some (.formula (some ⟨some _, cached?⟩)) =>
      if evaluated then s.valueAt row column else cached?.getD (.ok .blank)
  | _ => .ok .blank

def table (s : Sheet) (snapshot : Snapshot) (evaluated : Bool) : Table :=
  let schema := snapshot.schema.value
  let rows := snapshot.rows.zipIdx.map fun p =>
    ⟨p.1, (List.range schema.width).map fun column =>
      s.shown evaluated p.2 column (p.1.value.content? schema column)⟩
  ⟨snapshot.schema, rows, snapshot.revisions, evaluated⟩

def runPass (s : Sheet) (visit : VisitOrder) (snapshot : Snapshot) (ceiling? : Option Nat) :
    Sheet × Table × Option Tally :=
  if ceiling?.any (· < snapshot.size) then (s, s.table snapshot false, none)
  else
    let (sheet, tally) := (s.enterSnapshot snapshot).recalculate visit
    (sheet, sheet.table snapshot true, some tally)

end LiveSheet.Sheet
