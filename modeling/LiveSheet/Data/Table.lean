import LiveSheet.Data.Row

namespace LiveSheet

/-- How often the producers edited the data. `values` counts edits of cells, `layout` counts rows and
columns that came or went; results that are stored count for neither. -/
structure Revisions where
  values : Nat := 0
  layout : Nat := 0
  deriving DecidableEq, Repr

structure Snapshot where
  schema : Stamped Schema
  rows : List (Stamped Row)
  revisions : Revisions

def Snapshot.size (s : Snapshot) : Nat := s.rows.length

def Snapshot.content? (s : Snapshot) (row column : Nat) : Option Content :=
  (s.rows[row]?).bind fun r => r.value.content? s.schema.value column

structure ComputedRow where
  source : Stamped Row
  cells : List Outcome

structure Table where
  schema : Stamped Schema
  rows : List ComputedRow
  revisions : Revisions
  /-- Whether formulas were evaluated; otherwise their cells hold what was cached. -/
  evaluated : Bool

namespace Table

def size (t : Table) : Nat := t.rows.length

def cell? (t : Table) (row column : Nat) : Option Outcome := (t.rows[row]?).bind (·.cells[column]?)

/-- The values of a column; nothing stands for an error and for a row that is too short. -/
def column (t : Table) (index : Nat) : List (Option Value) :=
  t.rows.map fun r => (r.cells[index]?).bind Except.toOption

end Table

end LiveSheet
