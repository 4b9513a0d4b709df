import LiveSheet.Formula.Formula
import LiveSheet.Text.Quoted

namespace LiveSheet

inductive Token where
  | number (n : Float)
  | text (s : String)
  | failure (error : CellError)
  | word (s : String)
  | operator (operator : Operator)
  | minus
  | plus
  | opening
  | closing
  | comma
  | colon
  deriving DecidableEq, Repr

inductive ParseError where
  | invalidNumber (text : String)
  | unterminatedText
  | unknownMarker (text : String)
  | unexpectedCharacter (c : Char)
  | empty
  | tooDeep
  | unexpectedToken (token : Token)
  | unexpectedEnd
  | unclosedParenthesis (found : Option Token)
  | unclosedCall (found : Option Token)
  | missingRangeEnd
  | invalidRangeEnd (word : String)
  | invalidReference (word : String)
  | trailingToken (token : Token)
  deriving DecidableEq, Repr

namespace Operator

def title : Operator → String
  | .equal => "Eq"
  | .unequal => "Ne"
  | .less => "Lt"
  | .atMost => "Le"
  | .greater => "Gt"
  | .atLeast => "Ge"
  | .join => "Concat"
  | .add => "Add"
  | .subtract => "Sub"
  | .multiply => "Mul"
  | .divide => "Div"
  | .power => "Pow"

end Operator

namespace CellError

def title : CellError → String
  | .malformed detail => "Parse(" ++ Text.quoted detail ++ ")"
  | .wrongKind => "Value"
  | .divisionByZero => "DivZero"
  | .notANumber => "Num"
  | .unknownName name => "Name(" ++ Text.quoted name ++ ")"
  | .reference => "Ref"
  | .notAvailable => "Na"
  | .cycle => "Circular"

end CellError

namespace Token

def title : Token → String
  | .number n => "Number(" ++ Number.render Number.literal n ++ ")"
  | .text s => "Text(" ++ Text.quoted s ++ ")"
  | .failure e => "Error(" ++ e.title ++ ")"
  | .word s => "Word(" ++ Text.quoted s ++ ")"
  | .operator o => "Op(" ++ o.title ++ ")"
  | .minus => "Minus"
  | .plus => "Plus"
  | .opening => "LParen"
  | .closing => "RParen"
  | .comma => "Comma"
  | .colon => "Colon"

end Token

namespace ParseError

def message : ParseError → String
  | .invalidNumber text => "invalid number '" ++ text ++ "'"
  | .unterminatedText => "unterminated string"
  | .unknownMarker text => "unknown error literal '" ++ text ++ "'"
  | .unexpectedCharacter c => "unexpected character '" ++ c.toString ++ "'"
  | .empty => "empty formula"
  | .tooDeep => "formula nested too deeply"
  | .unexpectedToken t => "unexpected token " ++ t.title
  | .unexpectedEnd => "unexpected end of formula"
  | .unclosedParenthesis (some t) => "expected RParen, found " ++ t.title
  | .unclosedParenthesis none => "expected RParen, found end of formula"
  | .unclosedCall (some t) => "unexpected token " ++ t.title ++ " in arguments"
  | .unclosedCall none => "unclosed function call"
  | .missingRangeEnd => "range is missing its end"
  | .invalidRangeEnd word => "invalid range end '" ++ word ++ "'"
  | .invalidReference word => "invalid reference '" ++ word ++ "'"
  | .trailingToken t => "unexpected trailing token " ++ t.title

end ParseError

namespace Token

def isSeparator (c : Char) : Bool := c == ' ' || c == '\t' || c == '\n' || c == '\r'

def startsNumber (c : Char) : Bool := c.isDigit || c == '.'

def startsWord (c : Char) : Bool := c.isAlpha || c == '$' || c == '_'

def inWord (c : Char) : Bool := c.isAlphanum || c == '$' || c == '_' || c == '.'

def inMarker (c : Char) : Bool := c.isAlphanum || c == '/'

def splitExponent (cs : List Char) : List Char × List Char :=
  match cs with
  | e :: sign :: d :: rest =>
      if (e = 'e' ∨ e = 'E') ∧ (sign = '+' ∨ sign = '-') ∧ d.isDigit then
        (e :: sign :: d :: rest.takeWhile Char.isDigit, rest.dropWhile Char.isDigit)
      else if (e = 'e' ∨ e = 'E') ∧ sign.isDigit then
        (e :: sign :: (d :: rest).takeWhile Char.isDigit, (d :: rest).dropWhile Char.isDigit)
      else ([], cs)
  | [e, d] => if (e = 'e' ∨ e = 'E') ∧ d.isDigit then ([e, d], []) else ([], cs)
  | _ => ([], cs)

def splitNumber (cs : List Char) : List Char × List Char :=
  let tail := splitExponent (cs.dropWhile startsNumber)
  (cs.takeWhile startsNumber ++ tail.1, tail.2)

def splitText : List Char → Option (List Char × List Char)
  | [] => none
  | '"' :: '"' :: rest => (splitText rest).map fun (s, left) => ('"' :: s, left)
  | '"' :: rest => some ([], rest)
  | c :: rest => (splitText rest).map fun (s, left) => (c :: s, left)

def splitMarker (cs : List Char) : List Char × List Char :=
  match cs.dropWhile inMarker with
  | c :: rest =>
      if c = '!' ∨ c = '?' then (cs.takeWhile inMarker ++ [c], rest)
      else (cs.takeWhile inMarker, c :: rest)
  | [] => (cs.takeWhile inMarker, [])

def first? (c : Char) (rest : List Char) : Except ParseError (Token × List Char) :=
  if startsNumber c then
    let (digits, left) := splitNumber rest
    match Number.numeral? (c :: digits) with
    | some n => .ok (.number n, left)
    | none => .error (.invalidNumber (String.ofList (c :: digits)))
  else if c = '"' then
    match splitText rest with
    | some (s, left) => .ok (.text (String.ofList s), left)
    | none => .error .unterminatedText
  else if c = '#' then
    let (mark, left) := splitMarker rest
    match CellError.ofMarker? (String.ofList ('#' :: mark)) with
    | some e => .ok (.failure e, left)
    | none => .error (.unknownMarker (String.ofList ('#' :: mark)))
  else if startsWord c then
    .ok (.word (String.ofList (c :: rest.takeWhile inWord)), rest.dropWhile inWord)
  else
    match c, rest with
    | '+', _ => .ok (.plus, rest)
    | '-', _ => .ok (.minus, rest)
    | '*', _ => .ok (.operator .multiply, rest)
    | '/', _ => .ok (.operator .divide, rest)
    | '^', _ => .ok (.operator .power, rest)
    | '&', _ => .ok (.operator .join, rest)
    | '=', _ => .ok (.operator .equal, rest)
    | '<', '=' :: left => .ok (.operator .atMost, left)
    | '<', '>' :: left => .ok (.operator .unequal, left)
    | '<', _ => .ok (.operator .less, rest)
    | '>', '=' :: left => .ok (.operator .atLeast, left)
    | '>', _ => .ok (.operator .greater, rest)
    | '(', _ => .ok (.opening, rest)
    | ')', _ => .ok (.closing, rest)
    | ',', _ => .ok (.comma, rest)
    | ';', _ => .ok (.comma, rest)
    | ':', _ => .ok (.colon, rest)
    | _, _ => .error (.unexpectedCharacter c)

theorem length_splitExponent (cs : List Char) : (splitExponent cs).2.length ≤ cs.length := by
  unfold splitExponent
  split
  · rename_i e sign d rest
    split
    · have := (List.dropWhile_suffix (l := rest) Char.isDigit).length_le
      simp
      omega
    · split
      · have := (List.dropWhile_suffix (l := d :: rest) Char.isDigit).length_le
        simp only [List.length_cons] at this ⊢
        omega
      · simp
  · split <;> simp
  · simp

theorem length_splitNumber (cs : List Char) : (splitNumber cs).2.length ≤ cs.length :=
  Nat.le_trans (length_splitExponent _) (List.dropWhile_suffix startsNumber).length_le

theorem length_splitText {cs s left : List Char} (h : splitText cs = some (s, left)) :
    left.length ≤ cs.length := by
  fun_induction splitText cs generalizing s left with
  | case1 => simp at h
  | case2 rest ih =>
      obtain ⟨p, hp, he⟩ := Option.map_eq_some_iff.1 h
      cases he
      have := ih hp
      simp
      omega
  | case3 rest =>
      cases h
      simp
  | case4 c rest _ _ ih =>
      obtain ⟨p, hp, he⟩ := Option.map_eq_some_iff.1 h
      cases he
      have := ih hp
      simp
      omega

theorem length_splitMarker (cs : List Char) : (splitMarker cs).2.length ≤ cs.length := by
  have h := (List.dropWhile_suffix (l := cs) inMarker).length_le
  unfold splitMarker
  split
  · rename_i hd
    rw [hd] at h
    simp only [List.length_cons] at h
    split <;> simp <;> omega
  · simp

theorem length_of_first? {c : Char} {rest left : List Char} {t : Token}
    (h : first? c rest = .ok (t, left)) : left.length ≤ rest.length := by
  have hn := length_splitNumber rest
  have hm := length_splitMarker rest
  have hw := (List.dropWhile_suffix (l := rest) inWord).length_le
  unfold first? at h
  repeat' split at h
  all_goals cases h
  all_goals try exact length_splitText (by assumption)
  all_goals grind

def scanBehind (found : List Token) (cs : List Char) : Except ParseError (List Token) :=
  match cs with
  | [] => .ok found.reverse
  | c :: rest =>
      if isSeparator c then scanBehind found rest
      else
        match _h : first? c rest with
        | .error e => .error e
        | .ok (t, left) => scanBehind (t :: found) left
termination_by cs.length
decreasing_by
  · simp
  · have := length_of_first? _h
    simp
    omega

def scan (cs : List Char) : Except ParseError (List Token) := scanBehind [] cs

end Token

end LiveSheet
