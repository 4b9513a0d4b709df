import LiveSheet.Formula.Formula

namespace LiveSheet

def moveCoordinate? (fixed : Bool) (coordinate : Nat) (distance : Int) : Option Nat :=
  if fixed then some coordinate
  else if 0 ≤ coordinate + distance ∧ coordinate + distance < Cell.gridSide then some (coordinate + distance).toNat
  else none

def Address.offset? (a : Address) (rows columns : Int) : Option Address :=
  match moveCoordinate? a.rowFixed a.cell.row rows,
      moveCoordinate? a.columnFixed a.cell.column columns with
  | some row, some column => some { a with cell := ⟨row, column⟩ }
  | _, _ => none

namespace Formula

mutual

def offset (rows columns : Int) : Formula → Formula
  | .cell a =>
      match a.offset? rows columns with
      | some moved => .cell moved
      | none => .failure .reference
  | .range a b =>
      match a.offset? rows columns, b.offset? rows columns with
      | some start, some stop => .range start stop
      | _, _ => .failure .reference
  | .negate operand => .negate (operand.offset rows columns)
  | .binary operator left right =>
      .binary operator (left.offset rows columns) (right.offset rows columns)
  | .call function arguments => .call function (offsetAll rows columns arguments)
  | f => f

def offsetAll (rows columns : Int) : List Formula → List Formula
  | [] => []
  | argument :: rest => argument.offset rows columns :: offsetAll rows columns rest

end

end Formula

end LiveSheet
