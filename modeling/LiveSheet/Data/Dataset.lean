import LiveSheet.Data.Table

/-!
The live data. A row that is opened for writing gets a new stamp, whether or not it then changes, and so does
the schema; a snapshot keeps the stamps of the moment. Results go back only into rows that still have the stamp
they had in the snapshot.
-/

namespace LiveSheet

structure Dataset where
  schema : Stamped Schema
  rows : List (Stamped Row) := []
  revisions : Revisions := {}
  nextRow : Nat := 0
  nextStamp : Nat := 1

namespace Dataset

def ofSchema (s : Schema) : Dataset := { schema := ⟨0, s⟩ }

def size (d : Dataset) : Nat := d.rows.length

def snapshot (d : Dataset) : Snapshot := ⟨d.schema, d.rows, d.revisions⟩

def pushRow (d : Dataset) (native : List Value) : Dataset × Except DatasetError Nat :=
  let expected := d.schema.value.nativeCount
  if native.length ≠ expected then (d, .error (.fieldCount native.length expected))
  else
    ({ d with
      rows := d.rows ++ [⟨d.nextStamp, { id := d.nextRow, native := native }⟩]
      revisions := { d.revisions with layout := d.revisions.layout + 1 }
      nextRow := d.nextRow + 1
      nextStamp := d.nextStamp + 1 }, .ok d.nextRow)

def removeRow (d : Dataset) (index : Nat) : Dataset × Except DatasetError Nat :=
  match d.rows[index]? with
  | none => (d, .error (.rowOutOfRange index d.size))
  | some r =>
      ({ d with
        rows := d.rows.eraseIdx index
        revisions := { d.revisions with layout := d.revisions.layout + 1 } }, .ok r.value.id)

def extendRows (stamp : Nat) : List (Stamped Row) → List (Stamped Row)
  | [] => []
  | r :: rs =>
      ⟨stamp, { r.value with native := r.value.native ++ [.blank] }⟩ :: extendRows (stamp + 1) rs

def addColumn (d : Dataset) (name : String) (kind : ColumnKind) : Dataset × Except DatasetError Nat :=
  match d.schema.value.append name kind with
  | .error e =>
      ({ d with schema := ⟨d.nextStamp, d.schema.value⟩, nextStamp := d.nextStamp + 1 }, .error e)
  | .ok schema =>
      let counted :=
        { d with
          schema := ⟨d.nextStamp, schema⟩
          revisions := { d.revisions with layout := d.revisions.layout + 1 }
          nextStamp := d.nextStamp + 1 }
      let extended := match kind with
        | .formula => counted
        | .native =>
            { counted with
              rows := extendRows counted.nextStamp counted.rows
              nextStamp := counted.nextStamp + counted.size }
      (extended, .ok d.schema.value.width)

/-- Opens a row for a change, which is counted if there is one. -/
def rework (d : Dataset) (index : Nat) (change : Row → Option Row) : Dataset × Except DatasetError Unit :=
  match d.rows[index]? with
  | none => (d, .error (.rowOutOfRange index d.size))
  | some r =>
      let opened (row : Row) : Dataset :=
        { d with rows := d.rows.set index ⟨d.nextStamp, row⟩, nextStamp := d.nextStamp + 1 }
      match change r.value with
      | none => (opened r.value, .ok ())
      | some row =>
          ({ opened row with revisions := { d.revisions with values := d.revisions.values + 1 } }, .ok ())

def setValue (d : Dataset) (row column : Nat) (v : Value) : Dataset × Except DatasetError Unit :=
  match d.schema.value.column column with
  | .error e => (d, .error e)
  | .ok c =>
      match c.slot? with
      | none => (d, .error (.noNativeColumn c.name))
      | some slot => d.rework row fun r => r.setField? slot v

def setFormula (d : Dataset) (row column : Nat) (text : String) : Dataset × Except DatasetError Unit :=
  match d.schema.value.column column with
  | .error e => (d, .error e)
  | .ok c =>
      match c.kind with
      | .native => (d, .error (.noFormulaColumn c.name))
      | .formula => d.rework row fun r => r.setFormula? column text

def clearFormula (d : Dataset) (row column : Nat) : Dataset × Except DatasetError Unit :=
  match d.schema.value.column column with
  | .error e => (d, .error e)
  | .ok c =>
      match c.kind with
      | .native => (d, .error (.noFormulaColumn c.name))
      | .formula => d.rework row fun r => r.clearFormula? column

def unstored (s : Schema) (computed : ComputedRow) : List (Nat × Outcome) :=
  s.formulaColumns.filterMap fun column =>
    match computed.cells[column]?, computed.source.value.formulas[column]? with
    | some result, some cell => if cell.cached?.any (·.same result) then none else some (column, result)
    | _, _ => none

structure Storing where
  rows : List (Stamped Row)
  nextStamp : Nat
  written : Nat

def storeRows (s : Schema) (stamp : Nat) : List (Stamped Row) → List ComputedRow → Storing
  | live :: rows, computed :: rest =>
      let results := if live.stamp = computed.source.stamp then unstored s computed else []
      if results.isEmpty then
        let done := storeRows s stamp rows rest
        { done with rows := live :: done.rows }
      else
        let row := results.foldl (fun r p => r.setCached p.1 p.2) live.value
        let done := storeRows s (stamp + 1) rows rest
        ⟨⟨stamp, row⟩ :: done.rows, done.nextStamp, results.length + done.written⟩
  | rows, _ => ⟨rows, stamp, 0⟩

/-- Stores the results of a table in the rows that nobody opened since its snapshot, and answers with the
number of results that were new. -/
def storeResults (d : Dataset) (t : Table) : Dataset × Nat :=
  if d.schema.stamp ≠ t.schema.stamp then (d, 0)
  else
    let done := storeRows d.schema.value d.nextStamp d.rows t.rows
    ({ d with rows := done.rows, nextStamp := done.nextStamp }, done.written)

end Dataset

end LiveSheet
