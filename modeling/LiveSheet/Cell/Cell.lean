import LiveSheet.Cell.Column
import Std.Data.ExtTreeMap
import Std.Data.ExtTreeSet

namespace LiveSheet

-- powers of whole numbers are the core's, whatever else is in scope
attribute [local instance (high)] instPowNat

structure Cell where
  row : Nat
  column : Nat
  deriving DecidableEq, Repr

namespace Cell

def gridSide : Nat := 2 ^ (32 : Nat)

def at? (row column : Nat) : Option Cell :=
  if row < gridSide ∧ column < gridSide then some ⟨row, column⟩ else none

instance : Ord Cell := ⟨compareLex (compareOn Cell.row) (compareOn Cell.column)⟩

instance : Std.TransOrd Cell :=
  inferInstanceAs (Std.TransCmp (compareLex (compareOn Cell.row) (compareOn Cell.column)))

instance : Std.LawfulEqOrd Cell where
  eq_of_compare {a b} h := by
    have h : (compare a.row b.row).then (compare a.column b.column) = .eq := h
    rw [Ordering.then_eq_eq, Nat.compare_eq_eq, Nat.compare_eq_eq] at h
    cases a
    cases b
    simp_all

def text (c : Cell) : String := columnLetters c.column ++ toString (c.row + 1)

end Cell

abbrev CellSet := Std.ExtTreeSet Cell

abbrev CellMap (α : Type) := Std.ExtTreeMap Cell α

end LiveSheet
