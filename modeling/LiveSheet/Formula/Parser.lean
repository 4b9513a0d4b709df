import LiveSheet.Formula.Offset
import LiveSheet.Formula.Printer
import LiveSheet.Formula.Token

namespace LiveSheet

def maxNesting : Nat := 256

structure Cursor where
  tokens : List Token
  nesting : Nat
  deriving Repr

structure Subtree where
  formula : Formula
  height : Nat
  rest : Cursor

structure Arguments where
  formulas : List Formula
  height : Nat
  rest : Cursor

def heightAbove (child : Nat) : Except ParseError Nat :=
  if maxNesting < child + 1 then .error .tooDeep else .ok (child + 1)

namespace Cursor

def size (c : Cursor) : Nat := c.tokens.length

def deeper (c : Cursor) : Cursor := { c with nesting := c.nesting + 1 }

def shallower (c : Cursor) : Cursor := { c with nesting := c.nesting - 1 }

def next? (c : Cursor) : Option (Token × Cursor) :=
  match c.tokens with
  | [] => none
  | token :: tokens => some (token, { c with tokens })

theorem size_deeper (c : Cursor) : c.deeper.size = c.size := rfl

theorem size_of_next? {c d : Cursor} {token : Token} (h : c.next? = some (token, d)) :
    d.size < c.size := by
  unfold next? at h
  split at h
  · simp at h
  · rename_i heq
    cases h
    simp [size, heq]

theorem size_deeper_of_next? {c d : Cursor} {token : Token} (h : c.next? = some (token, d)) :
    d.deeper.size < c.size := by
  rw [size_deeper]
  exact size_of_next? h

end Cursor

def Token.operator? : Token → Option Operator
  | .operator o => some o
  | .plus => some .add
  | .minus => some .subtract
  | _ => none

def Address.ofWord? (word : String) : Option Address :=
  let (columnFixed, cs) : Bool × List Char := match word.toList with
    | '$' :: rest => (true, rest)
    | cs => (false, cs)
  let letters := cs.takeWhile Char.isAlpha
  let (rowFixed, digits) : Bool × List Char := match cs.dropWhile Char.isAlpha with
    | '$' :: rest => (true, rest)
    | rest => (false, rest)
  if letters.isEmpty || 3 < letters.length || digits.isEmpty || !digits.all Char.isDigit then none
  else
    let row := Number.valueOf digits
    if row = 0 ∨ Cell.gridSide ≤ row then none
    else
      (columnOfLetters? letters).map fun column =>
        ⟨⟨row - 1, column⟩, rowFixed, columnFixed⟩

def Formula.ofName (word : String) : Formula :=
  match Text.upperAscii word with
  | "TRUE" => .literal (.truth true)
  | "FALSE" => .literal (.truth false)
  | upper => if upper = rowCountName then .rowCount else .name word

namespace Cursor

/-- What a reader that starts at `c` returns when it has read something before. -/
abbrev From (c : Cursor) : Type := { t : Subtree // t.rest.size ≤ c.size }

/-- What a reader that starts at `c` returns when it reads at least one token. -/
abbrev Beyond (c : Cursor) : Type := { t : Subtree // t.rest.size < c.size }

def leaf (f : Formula) (c : Cursor) : c.From := ⟨⟨f, 1, c⟩, Nat.le_refl _⟩

def plainWord (s : String) (c : Cursor) : Except ParseError c.From :=
  match Address.ofWord? s with
  | some start =>
      match h : c.next? with
      | some (.colon, d) =>
          match hd : d.next? with
          | some (.word stop, e) =>
              match Address.ofWord? stop with
              | some stop => .ok ⟨⟨.range start stop, 1, e⟩,
                  Nat.le_of_lt (Nat.lt_trans (size_of_next? hd) (size_of_next? h))⟩
              | none => .error (.invalidRangeEnd stop)
          | _ => .error .missingRangeEnd
      | _ => .ok (leaf (.cell start) c)
  | none =>
      if s.contains '$' then .error (.invalidReference s) else .ok (leaf (.ofName s) c)

mutual

def expression (least : Nat) (c : Cursor) : Except ParseError c.Beyond :=
  if maxNesting ≤ c.nesting then .error .tooDeep
  else
    match unary c.deeper with
    | .error e => .error e
    | .ok ⟨left, hl⟩ =>
        match climb least left with
        | .error e => .error e
        | .ok ⟨t, ht⟩ => .ok ⟨{ t with rest := t.rest.shallower }, Nat.lt_of_le_of_lt ht hl⟩
termination_by 5 * c.size + 2
decreasing_by
  · rw [size_deeper]
    omega
  · rw [size_deeper] at hl
    omega

def climb (least : Nat) (left : Subtree) : Except ParseError left.rest.From :=
  match h : left.rest.next? with
  | none => .ok ⟨left, Nat.le_refl _⟩
  | some (token, behind) =>
      match token.operator? with
      | none => .ok ⟨left, Nat.le_refl _⟩
      | some operator =>
          if operator.precedence < least then .ok ⟨left, Nat.le_refl _⟩
          else
            match expression (operator.precedence + 1) behind with
            | .error e => .error e
            | .ok ⟨right, hr⟩ =>
                match heightAbove (max left.height right.height) with
                | .error e => .error e
                | .ok height =>
                    have hlt : right.rest.size < left.rest.size :=
                      Nat.lt_trans hr (size_of_next? h)
                    match climb least
                        ⟨.binary operator left.formula right.formula, height, right.rest⟩ with
                    | .error e => .error e
                    | .ok ⟨t, ht⟩ => .ok ⟨t, Nat.le_of_lt (Nat.lt_of_le_of_lt ht hlt)⟩
termination_by 5 * left.rest.size
decreasing_by
  · have := size_of_next? h
    omega
  · omega

def unary (c : Cursor) : Except ParseError c.Beyond :=
  match h : c.next? with
  | none => .error .unexpectedEnd
  | some (.minus, d) =>
      have hd : d.deeper.size < c.size := size_deeper_of_next? h
      if maxNesting ≤ d.nesting then .error .tooDeep
      else
        match unary d.deeper with
        | .error e => .error e
        | .ok ⟨t, ht⟩ =>
            match heightAbove t.height with
            | .error e => .error e
            | .ok height => .ok ⟨⟨.negate t.formula, height, t.rest.shallower⟩,
                Nat.lt_trans ht hd⟩
  | some (.plus, d) =>
      have hd : d.deeper.size < c.size := size_deeper_of_next? h
      if maxNesting ≤ d.nesting then .error .tooDeep
      else
        match unary d.deeper with
        | .error e => .error e
        | .ok ⟨t, ht⟩ => .ok ⟨⟨t.formula, t.height, t.rest.shallower⟩,
            Nat.lt_trans ht hd⟩
  | some (token, d) =>
      match primary token d with
      | .error e => .error e
      | .ok ⟨t, ht⟩ => .ok ⟨t, Nat.lt_of_le_of_lt ht (size_of_next? h)⟩
termination_by 5 * c.size + 1
decreasing_by
  · omega
  · omega
  · have := size_of_next? h
    omega

def primary (token : Token) (c : Cursor) : Except ParseError c.From :=
  match token with
  | .number n => .ok (leaf (.literal (.number n)) c)
  | .text s => .ok (leaf (.literal (.text s)) c)
  | .failure e => .ok (leaf (.failure e) c)
  | .opening =>
      match expression 0 c with
      | .error e => .error e
      | .ok ⟨t, ht⟩ =>
          match h : t.rest.next? with
          | some (.closing, d) => .ok ⟨{ t with rest := d },
              Nat.le_of_lt (Nat.lt_trans (size_of_next? h) ht)⟩
          | some (found, _) => .error (.unclosedParenthesis (some found))
          | none => .error (.unclosedParenthesis none)
  | .word s => word s c
  | t => .error (.unexpectedToken t)
termination_by 5 * c.size + 4

def word (s : String) (c : Cursor) : Except ParseError c.From :=
  match h : c.next? with
  | some (.opening, d) =>
      match arguments d with
      | .error e => .error e
      | .ok ⟨a, ha⟩ =>
          match heightAbove a.height with
          | .error e => .error e
          | .ok height => .ok ⟨⟨.call (Text.upperAscii s) a.formulas, height, a.rest⟩,
              Nat.le_of_lt (Nat.lt_of_le_of_lt ha (size_of_next? h))⟩
  | _ => plainWord s c
termination_by 5 * c.size + 3
decreasing_by
  have := size_of_next? h
  omega

def arguments (c : Cursor) : Except ParseError { a : Arguments // a.rest.size ≤ c.size } :=
  match h : c.next? with
  | some (.closing, d) => .ok ⟨⟨[], 0, d⟩, Nat.le_of_lt (size_of_next? h)⟩
  | _ => moreArguments c
termination_by 5 * c.size + 4

def moreArguments (c : Cursor) : Except ParseError { a : Arguments // a.rest.size ≤ c.size } :=
  match expression 0 c with
  | .error e => .error e
  | .ok ⟨t, ht⟩ =>
      match h : t.rest.next? with
      | some (.comma, d) =>
          have hlt : d.size < c.size := Nat.lt_trans (size_of_next? h) ht
          match moreArguments d with
          | .error e => .error e
          | .ok ⟨a, ha⟩ => .ok ⟨⟨t.formula :: a.formulas, max t.height a.height, a.rest⟩,
              Nat.le_of_lt (Nat.lt_of_le_of_lt ha hlt)⟩
      | some (.closing, d) => .ok ⟨⟨[t.formula], t.height, d⟩,
          Nat.le_of_lt (Nat.lt_trans (size_of_next? h) ht)⟩
      | some (found, _) => .error (.unclosedCall (some found))
      | none => .error (.unclosedCall none)
termination_by 5 * c.size + 3

end

end Cursor

namespace Formula

def ofTokens (tokens : List Token) : Except ParseError Formula :=
  if tokens.isEmpty then .error .empty
  else
    match Cursor.expression 0 ⟨tokens, 0⟩ with
    | .error e => .error e
    | .ok ⟨t, _⟩ =>
        match t.rest.tokens with
        | [] => .ok t.formula
        | token :: _ => .error (.trailingToken token)

/-- A text without the blanks and the one `=` before its formula. -/
def body (s : String) : List Char :=
  match Text.trimStart s.toList with
  | '=' :: rest => rest
  | cs => cs

def read (s : String) : Except ParseError Formula :=
  match Token.scan (body s) with
  | .error e => .error e
  | .ok tokens => ofTokens tokens

def parse (s : String) : Except CellError Formula :=
  match read s with
  | .ok f => .ok f
  | .error e => .error (.malformed e.message)

def isFormula (s : String) : Bool :=
  match Text.trimStart s.toList with
  | '=' :: _ => true
  | _ => false

def shiftText (s : String) (rows columns : Int) : Except CellError String :=
  match parse s with
  | .ok f => .ok ("=" ++ (f.offset rows columns).text)
  | .error e => .error e

end Formula

end LiveSheet
