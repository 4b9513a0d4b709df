import LiveSheet.Formula.Function

namespace LiveSheet.Formula

mutual

def evaluate : Formula → Reading Value
  | .literal v => .succeed v
  | .failure e => .fail e
  | .cell a => .cell a.cell
  | .range _ _ => .fail .wrongKind
  | .rowCount => do return .number (Number.ofNat (← Reading.rowCount))
  | .name word => .fail (.unknownName word)
  | .negate operand => do
      let v ← operand.evaluate
      let n ← Reading.ofResult v.asNumber
      return .number (-n)
  | .binary operator left right => do
      let a ← left.evaluate
      let b ← right.evaluate
      Reading.ofResult (operator.apply a b)
  | .call word arguments =>
      match Function.ofName? word with
      | some function => function.apply (operands arguments)
      | none => .fail (.unknownName word)

def operands : List Formula → List Operand
  | [] => []
  | .range a b :: rest => .range (Rectangle.between a.cell b.cell) :: operands rest
  | argument :: rest => .single argument.evaluate :: operands rest

end

def valueIn (f : Formula) (g : Grid) : Outcome := (f.evaluate g).result

end LiveSheet.Formula
