/-!
Sixty-four-bit numbers read exactly. `shape` splits the bits into sign, mantissa and power of two;
`position?` places every number that is not a NaN on the line, both zeros at one place. Comparison,
least, greatest, truncation and rounding are stated on these, in whole-number arithmetic.
-/

namespace LiveSheet.Number

-- powers of whole numbers are the core's, whatever else is in scope
attribute [local instance (high)] instPowNat

structure Scaled where
  negative : Bool
  mantissa : Nat
  exponent : Int
  deriving DecidableEq, Repr

inductive Shape where
  | nan
  | infinite (negative : Bool)
  | finite (value : Scaled)
  deriving DecidableEq, Repr

def signBit (x : Float) : Bool := 2 ^ (63 : Nat) ≤ x.toBits.toNat

def magnitude (x : Float) : Nat := x.toBits.toNat % 2 ^ (63 : Nat)

def infinityMagnitude : Nat := 2047 * 2 ^ (52 : Nat)

def shape (x : Float) : Shape :=
  let biased : Nat := magnitude x / 2 ^ (52 : Nat)
  let fraction : Nat := magnitude x % 2 ^ (52 : Nat)
  if biased = 2047 then
    if fraction = 0 then .infinite (signBit x) else .nan
  else if biased = 0 then .finite ⟨signBit x, fraction, -1074⟩
  else .finite ⟨signBit x, 2 ^ (52 : Nat) + fraction, (biased : Int) - 1075⟩

def isNaN (x : Float) : Bool := decide (infinityMagnitude < magnitude x)

def isFinite (x : Float) : Bool := decide (magnitude x < infinityMagnitude)

/-- The place of a number on the line; a NaN has none, and both zeros are at `0`. -/
def position? (x : Float) : Option Int :=
  if isNaN x then none
  else if signBit x then some (-(magnitude x : Int))
  else some (magnitude x)

def compare? (x y : Float) : Option Ordering :=
  match position? x, position? y with
  | some p, some q => some (compare p q)
  | _, _ => none

def equal (x y : Float) : Bool := compare? x y == some .eq

def below (x y : Float) : Bool := compare? x y == some .lt

def atMost (x y : Float) : Bool := (compare? x y).any (·.isLE)

def isZero (x : Float) : Bool := magnitude x == 0

/-- The smaller of two numbers: a NaN gives way to the other, and of two equal ones the second is taken. -/
def least (x y : Float) : Float :=
  if isNaN x || atMost y x then y else x

def greatest (x y : Float) : Float :=
  if isNaN x || atMost x y then y else x

def infinity : Float := Float.ofBits 0x7FF0000000000000

def notANumber : Float := Float.ofBits 0x7FF8000000000000

def negativeZero : Float := Float.ofBits 0x8000000000000000

namespace Scaled

def whole (s : Scaled) : Nat :=
  s.mantissa * 2 ^ s.exponent.toNat / 2 ^ (-s.exponent).toNat

def isWhole (s : Scaled) : Bool :=
  s.mantissa % 2 ^ (-s.exponent).toNat == 0

/-- The nearest whole distance from zero; a half goes away from zero. -/
def nearest (s : Scaled) : Nat :=
  (2 * (s.mantissa * 2 ^ s.exponent.toNat) + 2 ^ (-s.exponent).toNat)
    / (2 * 2 ^ (-s.exponent).toNat)

def signed (s : Scaled) (n : Nat) : Int := if s.negative then -n else n

end Scaled

/-- Cuts off the fraction and keeps the result between the bounds; a NaN counts as zero. -/
def truncateWithin (low high : Int) (x : Float) : Int :=
  match shape x with
  | .nan => 0
  | .infinite negative => if negative then low else high
  | .finite s => max low (min high (s.signed s.whole))

def ofNat (n : Nat) : Float := Float.ofScientific n false 0

def withSign (negative : Bool) (x : Float) : Float := if negative then -x else x

/-- Rounds to the nearest whole number, halves away from zero; the sign stays, also on a zero. -/
def round (x : Float) : Float :=
  match shape x with
  | .finite s => if 0 ≤ s.exponent then x else withSign s.negative (ofNat s.nearest)
  | _ => x

end LiveSheet.Number
