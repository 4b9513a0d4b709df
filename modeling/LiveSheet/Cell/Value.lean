import LiveSheet.Number.Notation
import LiveSheet.Number.Numeral
import LiveSheet.Text.Case

namespace LiveSheet

-- powers of whole numbers are the core's, whatever else is in scope
attribute [local instance (high)] instPowNat

inductive CellError where
  | malformed (detail : String)
  | wrongKind
  | divisionByZero
  | notANumber
  | unknownName (name : String)
  | reference
  | notAvailable
  | cycle
  deriving DecidableEq, Repr

namespace CellError

def marker : CellError → String
  | .malformed _ => "#PARSE!"
  | .wrongKind => "#VALUE!"
  | .divisionByZero => "#DIV/0!"
  | .notANumber => "#NUM!"
  | .unknownName _ => "#NAME?"
  | .reference => "#REF!"
  | .notAvailable => "#N/A"
  | .cycle => "#CIRC!"

def written : List CellError :=
  [.wrongKind, .divisionByZero, .notANumber, .unknownName "", .reference, .notAvailable, .cycle]

def ofMarker? (s : String) : Option CellError :=
  written.find? fun e => e.marker == Text.upperAscii s

def detail? : CellError → Option String
  | .malformed detail => some detail
  | .unknownName name => if name.isEmpty then none else some name
  | _ => none

end CellError

inductive Value where
  | blank
  | number (n : Float)
  | text (s : String)
  | truth (b : Bool)
  deriving DecidableEq, Repr

abbrev Outcome := Except CellError Value

def isWord (s : String) (word : String) : Bool := Text.sameWord s.toList word.toList

def numberOfText? (s : String) : Option Float := Number.ofChars? (Text.trim s.toList)

def finiteOfText? (s : String) : Option Float := (numberOfText? s).filter Number.isFinite

namespace Value

def ofEntry (entry : String) : Value :=
  let trimmed := Text.trim entry.toList
  if trimmed.isEmpty then .blank
  else if Text.sameWord trimmed "TRUE".toList then .truth true
  else if Text.sameWord trimmed "FALSE".toList then .truth false
  else
    match finiteOfText? entry with
    | some n => .number n
    | none => .text entry

def isBlank : Value → Bool
  | .blank => true
  | _ => false

/-- Numbers are written in full; whole ones below `10^15` without the sign of a zero. -/
def numberText (n : Float) : String :=
  match Number.shape n with
  | .finite s =>
      if s.isWhole && s.whole < 10 ^ (15 : Nat) then toString (s.signed s.whole) else Number.render Number.plain n
  | _ => Number.render Number.plain n

def display : Value → String
  | .blank => ""
  | .number n => numberText n
  | .text s => s
  | .truth true => "TRUE"
  | .truth false => "FALSE"

def asNumber : Value → Except CellError Float
  | .blank => .ok 0
  | .number n => .ok n
  | .truth b => .ok (if b then 1 else 0)
  | .text s =>
      match numberOfText? s with
      | some n => .ok n
      | none => .error .wrongKind

def asTruth : Value → Except CellError Bool
  | .blank => .ok false
  | .truth b => .ok b
  | .number n => .ok (!Number.isZero n)
  | .text s =>
      if isWord s "TRUE" then .ok true
      else if isWord s "FALSE" then .ok false
      else .error .wrongKind

/-- The number that a column range sees; a NaN stands for everything that is none. -/
def measured : Value → Float
  | .number n => n
  | .truth b => if b then 1 else 0
  | .text s => (numberOfText? s).getD Number.notANumber
  | .blank => Number.notANumber

/-- A text result that reads as a finite number becomes that number. -/
def promoted : Value → Value
  | .text s =>
      match finiteOfText? s with
      | some n => .number n
      | none => .text s
  | v => v

/-- Equality of values: numbers are equal on the line, so that a NaN equals nothing. -/
def same : Value → Value → Bool
  | .blank, .blank => true
  | .number m, .number n => Number.equal m n
  | .text s, .text t => s == t
  | .truth a, .truth b => a == b
  | _, _ => false

def rank : Value → Nat
  | .blank => 0
  | .number _ => 0
  | .text _ => 1
  | .truth _ => 2

def lineNumber : Value → Float
  | .number n => n
  | _ => 0

/-- The order behind the comparison operators. Texts are compared in lower case; a blank is zero beside a
number and the empty text beside a text; numbers that are not ordered count as equal. -/
def order : Value → Value → Ordering
  | .text s, .blank => compare s.toList []
  | .blank, .text t => compare [] t.toList
  | .text s, .text t => compare (Text.lowerCase s.toList) (Text.lowerCase t.toList)
  | .truth a, .truth b => compare a b
  | a, b =>
      if a.rank = 0 ∧ b.rank = 0 then (Number.compare? a.lineNumber b.lineNumber).getD .eq
      else compare a.rank b.rank

end Value

namespace Outcome

def same : Outcome → Outcome → Bool
  | .ok v, .ok w => v.same w
  | .error e, .error f => e == f
  | _, _ => false

def display : Outcome → String
  | .ok v => v.display
  | .error e => e.marker

end Outcome

end LiveSheet
