import LiveSheet.Data.Table
import LiveSheet.Filter.Histogram

namespace LiveSheet

structure FilterRange where
  column : Nat
  name : String
  least : Float
  greatest : Float
  low : Float
  high : Float
  histogram : List Float
  deriving DecidableEq, Repr

def FilterRange.contains (r : FilterRange) (x : Float) : Bool :=
  Number.atMost r.low x && Number.atMost x r.high

namespace Table

def isNumeric (t : Table) (column : Nat) (kind : ColumnKind) : Bool :=
  match kind, t.cell? 0 column with
  | .formula, _ => true
  | .native, some (.ok (.number _)) => true
  | .native, _ => false

def weight (v? : Option Value) : Float :=
  match v? with
  | none => 0
  | some v => if Number.isNaN v.measured then 0 else v.measured

def filterRange? (t : Table) (bins index : Nat) (c : Column) : Option FilterRange :=
  if t.isNumeric index c.kind then
    let values := (t.column index).map weight
    (bounds? values).map fun (least, greatest) =>
      ⟨index, c.name, least, greatest, least, greatest, LiveSheet.histogram values least greatest bins⟩
  else none

def filterRanges (t : Table) (bins : Nat) : List FilterRange :=
  t.schema.value.columns.zipIdx.filterMap fun (c, index) => t.filterRange? bins index c

end Table

end LiveSheet
