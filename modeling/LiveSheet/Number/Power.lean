import LiveSheet.Number.Binary

/-!
Powers. `power` raises one number to another; bases and exponents that are zero are settled by rule,
so that the two zeros never give results that differ in more than the sign of a zero. `wholePower`
multiplies by repeated squaring.
-/

namespace LiveSheet.Number

def isOddWhole (x : Float) : Bool :=
  match shape x with
  | .finite s => s.isWhole && s.whole % 2 == 1
  | _ => false

/-- Powers of a zero base: zero above exponent zero, where only an odd exponent keeps the sign, and
infinite below it. -/
def zeroPower (base exponent : Float) : Float :=
  if isNaN exponent then notANumber
  else if below exponent 0 then infinity
  else if isOddWhole exponent then base
  else 0

def power (base exponent : Float) : Float :=
  if isZero exponent then 1
  else if isZero base then zeroPower base exponent
  else Float.pow base exponent

def squareAndMultiply (base : Float) (n : Nat) (acc : Float) : Float :=
  let acc := if n % 2 = 1 then acc * base else acc
  if n / 2 = 0 then acc else squareAndMultiply (base * base) (n / 2) acc
termination_by n
decreasing_by omega

def wholePower (base : Float) (n : Int) : Float :=
  let positive := squareAndMultiply base n.natAbs 1
  if n < 0 then 1 / positive else positive

end LiveSheet.Number
