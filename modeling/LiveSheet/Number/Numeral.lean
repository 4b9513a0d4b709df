import LiveSheet.Number.Binary

namespace LiveSheet.Number

def digitValue (c : Char) : Nat := c.toNat - 48

def digitRun (cs : List Char) : List Char × List Char := cs.span Char.isDigit

def valueOf (ds : List Char) : Nat := ds.foldl (fun n c => 10 * n + digitValue c) 0

/-- `mantissa · 10^exponent`, correctly rounded. Far beyond either end of the range the answer is
settled without forming the power. -/
def ofDecimal (mantissa : Nat) (exponent : Int) : Float :=
  if mantissa = 0 then 0
  else
    let decade := (Nat.toDigits 10 mantissa).length + exponent
    if 400 < decade then infinity
    else if decade < -400 then 0
    else Float.ofScientific mantissa (exponent < 0) exponent.natAbs

def exponent? (cs : List Char) : Option (Int × List Char) :=
  let (negative, body) : Bool × List Char := match cs with
    | '-' :: rest => (true, rest)
    | '+' :: rest => (false, rest)
    | _ => (false, cs)
  match digitRun body with
  | ([], _) => none
  | (ds, rest) => some ((if negative then -(valueOf ds : Int) else valueOf ds), rest)

def numeral? (cs : List Char) : Option Float :=
  let (whole, afterWhole) := digitRun cs
  let (fraction, rest) := match afterWhole with
    | '.' :: tail => digitRun tail
    | _ => ([], afterWhole)
  if whole.isEmpty && fraction.isEmpty then none
  else
    let mantissa := valueOf (whole ++ fraction)
    match rest with
    | [] => some (ofDecimal mantissa (-fraction.length))
    | c :: tail =>
        if c = 'e' ∨ c = 'E' then
          match exponent? tail with
          | some (e, []) => some (ofDecimal mantissa (e - fraction.length))
          | _ => none
        else none

def word? (cs : List Char) : Option Float :=
  let lowered := cs.map Char.toLower
  if lowered = "inf".toList ∨ lowered = "infinity".toList then some infinity
  else if lowered = "nan".toList then some notANumber
  else none

def unsigned? (cs : List Char) : Option Float := numeral? cs <|> word? cs

def ofChars? (cs : List Char) : Option Float :=
  match cs with
  | '-' :: rest => (unsigned? rest).map (- ·)
  | '+' :: rest => unsigned? rest
  | _ => unsigned? cs

def ofText? (s : String) : Option Float := ofChars? s.toList

end LiveSheet.Number
