import LiveSheet.Formula.Reading
import LiveSheet.Formula.Reference
import LiveSheet.Number.Power

/-!
What operators and functions compute. A function gets its arguments as operands: a range of cells, or the
reading of a single value, which is run only if the function asks for it.
-/

namespace LiveSheet

-- powers of whole numbers are the core's, whatever else is in scope
attribute [local instance (high)] instPowNat

def finite (n : Float) : Except CellError Value :=
  if Number.isFinite n then .ok (.number n) else .error .notANumber

namespace Operator

def apply (operator : Operator) (a b : Value) : Except CellError Value :=
  match operator with
  | .add => do finite ((← a.asNumber) + (← b.asNumber))
  | .subtract => do finite ((← a.asNumber) - (← b.asNumber))
  | .multiply => do finite ((← a.asNumber) * (← b.asNumber))
  | .divide => do
      let divisor ← b.asNumber
      let dividend ← a.asNumber
      if Number.isZero divisor then .error .divisionByZero else finite (dividend / divisor)
  | .power => do finite (Number.power (← a.asNumber) (← b.asNumber))
  | .join => .ok (.text (Outcome.display (.ok a) ++ Outcome.display (.ok b)))
  | .equal => .ok (.truth (a.order b == .eq))
  | .unequal => .ok (.truth (a.order b != .eq))
  | .less => .ok (.truth (a.order b == .lt))
  | .atMost => .ok (.truth (a.order b != .gt))
  | .greater => .ok (.truth (a.order b == .gt))
  | .atLeast => .ok (.truth (a.order b != .lt))

end Operator

inductive Operand where
  | range (cells : Rectangle)
  | single (reading : Reading Value)

structure Supplied where
  value : Value
  ranged : Bool

namespace Operand

def scalar : Operand → Reading Value
  | .range _ => .fail .wrongKind
  | .single reading => reading

def number (o : Operand) : Reading Float := do
  let v ← o.scalar
  .ofResult v.asNumber

def truth (o : Operand) : Reading Bool := do
  let v ← o.scalar
  .ofResult v.asTruth

def supplied : Operand → Reading (List Supplied)
  | .range cells => .all (cells.cells.map fun c => do return ⟨← .cell c, true⟩)
  | .single reading => do return [⟨← reading, false⟩]

def outcomes : Operand → Reading (List Outcome)
  | .range cells => .all (cells.cells.map fun c => (Reading.cell c).outcome)
  | .single reading => do return [← reading.outcome]

end Operand

def suppliedValues (arguments : List Operand) : Reading (List Supplied) := do
  return (← Reading.all (arguments.map (·.supplied))).flatten

/-- Only numbers count out of a range; elsewhere blanks are passed over and all else has to read as a number. -/
def countedNumber (s : Supplied) : Except CellError (Option Float) :=
  match s.ranged, s.value with
  | true, .number n => .ok (some n)
  | true, _ => .ok none
  | false, .blank => .ok none
  | false, v => v.asNumber.map some

def countedTruth (s : Supplied) : Except CellError (Option Bool) :=
  match s.value with
  | .blank => .ok none
  | v => v.asTruth.map some

def numbers (arguments : List Operand) : Reading (List Float) := do
  let values ← suppliedValues arguments
  .ofResult ((values.mapM countedNumber).map (·.filterMap id))

def truths (arguments : List Operand) : Reading (List Bool) := do
  let values ← suppliedValues arguments
  .ofResult ((values.mapM countedTruth).map (·.filterMap id))

/-- The sum from left to right; the sum of nothing is the negative zero, which changes no other sum. -/
def total (ns : List Float) : Float := ns.foldl (· + ·) Number.negativeZero

/-- The last of the numbers to win a comparison with those before it, or zero. -/
def winner (better : Float → Float → Float) : List Float → Float
  | [] => 0
  | n :: ns => ns.foldl better n

def roundTo (n : Float) (digits : Int) : Float :=
  let scale := Number.wholePower 10 digits
  Number.round (n * scale) / scale

def digitCount (n : Float) : Int := Number.truncateWithin (-2 ^ (31 : Nat)) (2 ^ (31 : Nat) - 1) n

def isNumberOutcome : Outcome → Bool
  | .ok (.number _) => true
  | _ => false

inductive Function where
  | sum
  | average
  | least
  | greatest
  | count
  | absolute
  | squareRoot
  | round
  | choose
  | allTrue
  | anyTrue
  | negated
  | length
  | concatenate
  deriving DecidableEq, Repr

namespace Function

def ofName? : String → Option Function
  | "SUM" => some .sum
  | "AVERAGE" => some .average
  | "MIN" => some .least
  | "MAX" => some .greatest
  | "COUNT" => some .count
  | "ABS" => some .absolute
  | "SQRT" => some .squareRoot
  | "ROUND" => some .round
  | "IF" => some .choose
  | "AND" => some .allTrue
  | "OR" => some .anyTrue
  | "NOT" => some .negated
  | "LEN" => some .length
  | "CONCATENATE" => some .concatenate
  | _ => none

def apply (function : Function) (arguments : List Operand) : Reading Value :=
  match function, arguments with
  | .sum, _ => do .ofResult (finite (total (← numbers arguments)))
  | .average, _ => do
      let ns ← numbers arguments
      if ns.isEmpty then .fail .divisionByZero
      else .ofResult (finite (total ns / Number.ofNat ns.length))
  | .least, _ => do return .number (winner Number.least (← numbers arguments))
  | .greatest, _ => do return .number (winner Number.greatest (← numbers arguments))
  | .count, _ => do
      let found ← Reading.all (arguments.map (·.outcomes))
      return .number (Number.ofNat (found.flatten.countP isNumberOutcome))
  | .absolute, [x] => do return .number (← x.number).abs
  | .squareRoot, [x] => do
      let n ← x.number
      if Number.below n 0 then .fail .notANumber else return .number n.sqrt
  | .round, [x] => do .ofResult (finite (roundTo (← x.number) 0))
  | .round, [x, digits] => do
      let n ← x.number
      .ofResult (finite (roundTo n (digitCount (← digits.number))))
  | .choose, [condition, yes] => do
      if ← condition.truth then yes.scalar else return .truth false
  | .choose, [condition, yes, no] => do if ← condition.truth then yes.scalar else no.scalar
  | .allTrue, _ => do
      let bs ← truths arguments
      if bs.isEmpty then .fail .wrongKind else return .truth (bs.all id)
  | .anyTrue, _ => do
      let bs ← truths arguments
      if bs.isEmpty then .fail .wrongKind else return .truth (bs.any id)
  | .negated, [x] => do return .truth (!(← x.truth))
  | .length, [x] => do return .number (Number.ofNat (← x.scalar).display.length)
  | .concatenate, _ => do
      let values ← suppliedValues arguments
      return .text (String.join (values.map fun s => s.value.display))
  | _, _ => .fail .wrongKind

end Function

end LiveSheet
