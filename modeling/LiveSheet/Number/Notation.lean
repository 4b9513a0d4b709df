import LiveSheet.Number.Decimal

namespace LiveSheet.Number

structure Layout where
  inFull : Option (Int × Int)
  pointZero : Bool
  deriving Repr

def plain : Layout := ⟨none, false⟩

def literal : Layout := ⟨some (-3, 16), true⟩

namespace Decimal

def zeros (n : Nat) : String := String.ofList (List.replicate n '0')

def digitText (d : Decimal) : String := Nat.repr d.digits

def decade (d : Decimal) : Int := d.digitText.length + d.exponent

def positional (l : Layout) (d : Decimal) : String :=
  let point := d.decade
  if 0 ≤ d.exponent then
    d.digitText ++ zeros d.exponent.toNat ++ (if l.pointZero then ".0" else "")
  else if 0 < point then
    let cs := d.digitText.toList
    String.ofList (cs.take point.toNat) ++ "." ++ String.ofList (cs.drop point.toNat)
  else "0." ++ zeros (-point).toNat ++ d.digitText

def scientific (d : Decimal) : String :=
  match d.digitText.toList with
  | [] => ""
  | first :: rest =>
      String.ofList (if rest.isEmpty then [first] else first :: '.' :: rest)
        ++ "e" ++ toString (d.decade - 1)

def render (l : Layout) (d : Decimal) : String :=
  match l.inFull with
  | none => d.positional l
  | some (low, high) =>
      if d.digits = 0 ∨ (low ≤ d.decade ∧ d.decade ≤ high) then d.positional l else d.scientific

end Decimal

def render (l : Layout) (x : Float) : String :=
  match shape x with
  | .nan => "NaN"
  | .infinite negative => if negative then "-inf" else "inf"
  | .finite s => (if s.negative then "-" else "") ++ s.shortest.render l

end LiveSheet.Number
