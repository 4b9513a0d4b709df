import LiveSheet.Number.Binary

/-!
The shortest decimal of a number. A decimal reads back when it lies among the reals that round to the
number; `shortest` takes the coarsest decimal grid with a neighbour of the number that reads back, and
on it the nearer neighbour, the upper one where both are equally near.
-/

namespace LiveSheet.Number

-- powers of whole numbers are the core's, whatever else is in scope
attribute [local instance (high)] instPowNat

structure Decimal where
  digits : Nat
  exponent : Int
  deriving DecidableEq, Repr

namespace Decimal

def compareBinary (d : Decimal) (units : Nat) (power : Int) : Ordering :=
  compare (d.digits * 10 ^ d.exponent.toNat * 2 ^ (-power).toNat)
    (units * 2 ^ power.toNat * 10 ^ (-d.exponent).toNat)

def stripZeros : Nat → Decimal → Decimal
  | 0, d => d
  | n + 1, d =>
      if d.digits ≠ 0 ∧ d.digits % 10 = 0 then stripZeros n ⟨d.digits / 10, d.exponent + 1⟩ else d

end Decimal

namespace Scaled

/-- The gap to the neighbour below is half of the gap to the one above. -/
def narrowBelow (s : Scaled) : Bool := s.mantissa == 2 ^ (52 : Nat) && s.exponent != -1074

/-- The decimal lies among the reals that round to the distance of `s` from zero; the ends of that
interval belong to it when the mantissa is even. -/
def readsBack (s : Scaled) (d : Decimal) : Bool :=
  let low := if s.narrowBelow then 4 * s.mantissa - 1 else 4 * s.mantissa - 2
  let fromLow := d.compareBinary low (s.exponent - 2)
  let fromHigh := d.compareBinary (4 * s.mantissa + 2) (s.exponent - 2)
  let closed := s.mantissa % 2 == 0
  (fromLow == .gt || closed && fromLow == .eq) && (fromHigh == .lt || closed && fromHigh == .eq)

/-- The least power of ten above the distance from zero. Every distance is at least `10^(-330)`, so the
whole part of `10^330` times it has as many digits as that product. -/
def decade (s : Scaled) : Int :=
  let scaled := s.mantissa * 2 ^ s.exponent.toNat * 10 ^ (330 : Nat) / 2 ^ (-s.exponent).toNat
  (Nat.toDigits 10 scaled).length - 330

def gridFloor (s : Scaled) (step : Int) : Nat :=
  s.mantissa * 2 ^ s.exponent.toNat * 10 ^ (-step).toNat
    / (2 ^ (-s.exponent).toNat * 10 ^ step.toNat)

def onGrid? (s : Scaled) (step : Int) : Option Decimal :=
  let below : Decimal := ⟨s.gridFloor step, step⟩
  let above : Decimal := ⟨s.gridFloor step + 1, step⟩
  let middle : Decimal := ⟨2 * s.gridFloor step + 1, step⟩
  match s.readsBack below, s.readsBack above with
  | true, true =>
      if middle.compareBinary (2 * s.mantissa) s.exponent == .gt then some below else some above
  | true, false => some below
  | false, true => some above
  | false, false => none

def exact (s : Scaled) : Decimal :=
  if 0 ≤ s.exponent then ⟨s.mantissa * 2 ^ s.exponent.toNat, 0⟩
  else ⟨s.mantissa * 5 ^ (-s.exponent).toNat, s.exponent⟩

def shortest (s : Scaled) : Decimal :=
  if s.mantissa = 0 then ⟨0, 0⟩
  else
    let top := s.decade
    match (List.range 17).findSome? fun (n : Nat) => s.onGrid? (top - (n + 1)) with
    | some d => d.stripZeros 20
    | none => s.exact

end Scaled

end LiveSheet.Number
