import LiveSheet.Formula.Formula

namespace LiveSheet

structure Rectangle where
  top : Nat
  bottom : Nat
  left : Nat
  right : Nat
  deriving DecidableEq, Repr

namespace Rectangle

def between (a b : Cell) : Rectangle :=
  ⟨min a.row b.row, max a.row b.row, min a.column b.column, max a.column b.column⟩

def size (r : Rectangle) : Nat := (r.bottom - r.top + 1) * (r.right - r.left + 1)

def cells (r : Rectangle) : List Cell :=
  (List.range' r.top (r.bottom - r.top + 1)).flatMap fun row =>
    (List.range' r.left (r.right - r.left + 1)).map fun column => ⟨row, column⟩

end Rectangle

namespace Formula

mutual

def cells : Formula → List Cell
  | .cell a => [a.cell]
  | .range a b => (Rectangle.between a.cell b.cell).cells
  | .negate operand => operand.cells
  | .binary _ left right => left.cells ++ right.cells
  | .call _ arguments => allCells arguments
  | _ => []

def allCells : List Formula → List Cell
  | [] => []
  | argument :: rest => argument.cells ++ allCells rest

end

mutual

/-- The number of cells read, behind `count` others; `none` when a range goes past the limit. -/
def tally? (limit count : Nat) : Formula → Option Nat
  | .cell _ => some (count + 1)
  | .range a b =>
      let total := (Rectangle.between a.cell b.cell).size + count
      if limit < total then none else some total
  | .negate operand => operand.tally? limit count
  | .binary _ left right => (left.tally? limit count).bind fun n => right.tally? limit n
  | .call _ arguments => tallyAll? limit count arguments
  | _ => some count

def tallyAll? (limit count : Nat) : List Formula → Option Nat
  | [] => some count
  | argument :: rest => (argument.tally? limit count).bind fun n => tallyAll? limit n rest

end

def references (limit : Nat) (f : Formula) : Except CellError (List Cell) :=
  match f.tally? limit 0 with
  | some _ => .ok f.cells
  | none => .error .reference

end Formula

end LiveSheet
