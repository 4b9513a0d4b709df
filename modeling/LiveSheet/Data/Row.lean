import LiveSheet.Cell.Value
import LiveSheet.Data.Schema
import Std.Data.ExtTreeMap

/-!
Rows and what they hold in each column. Copies of a row or a schema that were never opened for writing since
they were made carry one stamp, so that equal stamps mean equal content.
-/

namespace LiveSheet

structure Stamped (α : Type) where
  stamp : Nat
  value : α

/-- A formula of the user with its last result, which is right only behind a pass that covered it. -/
structure FormulaCell where
  formula? : Option String := none
  cached? : Option Outcome := none

structure Row where
  id : Nat
  native : List Value
  formulas : Std.ExtTreeMap Nat FormulaCell := ∅

inductive Content where
  | native (v : Value)
  | formula (cell? : Option FormulaCell)

namespace Row

def content? (r : Row) (s : Schema) (index : Nat) : Option Content :=
  match s.column? index with
  | none => none
  | some c =>
      match c.kind with
      | .native => (c.slot?.bind fun slot => r.native[slot]?).map .native
      | .formula => some (.formula r.formulas[index]?)

def formulaText? (r : Row) (index : Nat) : Option String := r.formulas[index]?.bind (·.formula?)

def setField? (r : Row) (slot : Nat) (v : Value) : Option Row :=
  if (r.native[slot]?).any (·.same v) then none else some { r with native := r.native.set slot v }

/-- The row with a formula set, unless it is already there. A cached result stays. -/
def setFormula? (r : Row) (index : Nat) (text : String) : Option Row :=
  if r.formulaText? index = some text then none
  else
    let cell := r.formulas[index]?.getD {}
    some { r with formulas := r.formulas.insert index { cell with formula? := some text } }

def clearFormula? (r : Row) (index : Nat) : Option Row :=
  if index ∈ r.formulas then some { r with formulas := r.formulas.erase index } else none

def setCached (r : Row) (index : Nat) (result : Outcome) : Row :=
  { r with formulas := r.formulas.modify index fun cell => { cell with cached? := some result } }

end Row

end LiveSheet
