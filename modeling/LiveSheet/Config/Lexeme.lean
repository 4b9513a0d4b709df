/-!
The lexemes of JSON text. A number is kept only if it is written as a plain natural one, and a text only if its
escapes make up characters: nothing else is ever read out of a configuration.
-/

namespace LiveSheet

inductive Bracket where
  | list
  | record
  deriving DecidableEq, Repr

inductive Lexeme where
  | opening (b : Bracket)
  | closing (b : Bracket)
  | comma
  | colon
  | null
  | truth (b : Bool)
  | number (n? : Option Nat)
  | text (s? : Option String)
  deriving DecidableEq, Repr

namespace Lexeme

def isSpace (c : Char) : Bool := c == ' ' || c == '\t' || c == '\n' || c == '\r'

inductive Piece where
  | whole (c : Char)
  | high (unit : Nat)
  | low (unit : Nat)
  deriving DecidableEq, Repr

def hexDigit? (c : Char) : Option Nat :=
  if c.isDigit then some (c.toNat - 48)
  else if 'a' ≤ c ∧ c ≤ 'f' then some (c.toNat - 87)
  else if 'A' ≤ c ∧ c ≤ 'F' then some (c.toNat - 55)
  else none

def unit? (a b c d : Char) : Option Nat := do
  return (((← hexDigit? a) * 16 + (← hexDigit? b)) * 16 + (← hexDigit? c)) * 16 + (← hexDigit? d)

def Piece.ofUnit (n : Nat) : Piece :=
  if 0xD800 ≤ n ∧ n < 0xDC00 then .high n
  else if 0xDC00 ≤ n ∧ n < 0xE000 then .low n
  else .whole (Char.ofNat n)

def escaped? : Char → Option Char
  | '"' => some '"'
  | '\\' => some '\\'
  | '/' => some '/'
  | 'b' => some '\x08'
  | 'f' => some '\x0c'
  | 'n' => some '\n'
  | 'r' => some '\r'
  | 't' => some '\t'
  | _ => none

def splitPieces : List Char → Option (List Piece × List Char)
  | [] => none
  | '"' :: rest => some ([], rest)
  | '\\' :: 'u' :: a :: b :: c :: d :: rest =>
      match unit? a b c d with
      | some n => (splitPieces rest).map fun p => (.ofUnit n :: p.1, p.2)
      | none => none
  | '\\' :: e :: rest =>
      match escaped? e with
      | some c => (splitPieces rest).map fun p => (.whole c :: p.1, p.2)
      | none => none
  | c :: rest => if c.toNat < 32 then none else (splitPieces rest).map fun p => (.whole c :: p.1, p.2)

/-- The characters of pieces; every high half has to stand right before a low one. -/
def join? : List Piece → Option (List Char)
  | [] => some []
  | .whole c :: rest => (join? rest).map (c :: ·)
  | .high h :: .low l :: rest =>
      (join? rest).map (Char.ofNat (0x10000 + (h - 0xD800) * 0x400 + (l - 0xDC00)) :: ·)
  | _ => none

def passDigits : List Char → Option (List Char)
  | [] => none
  | d :: rest => if d.isDigit then some (rest.dropWhile Char.isDigit) else none

def passSign : List Char → List Char
  | '+' :: rest => rest
  | '-' :: rest => rest
  | cs => cs

def splitFraction : List Char → Option (Bool × List Char)
  | '.' :: rest => (passDigits rest).map (true, ·)
  | cs => some (false, cs)

def splitExponent : List Char → Option (Bool × List Char)
  | 'e' :: rest => (passDigits (passSign rest)).map (true, ·)
  | 'E' :: rest => (passDigits (passSign rest)).map (true, ·)
  | cs => some (false, cs)

def naturalOf (digits : List Char) : Nat := digits.foldl (fun n c => 10 * n + (c.toNat - 48)) 0

/-- No digit may follow a leading zero. -/
def areDigits : List Char → Bool
  | [] => false
  | ['0'] => true
  | d :: _ => d ≠ '0'

def splitNumber (cs : List Char) : Option (Option Nat × List Char) :=
  let digits := cs.takeWhile Char.isDigit
  if areDigits digits then
    (splitFraction (cs.dropWhile Char.isDigit)).bind fun p =>
      (splitExponent p.2).map fun q => (if p.1 || q.1 then none else some (naturalOf digits), q.2)
  else none

def first? (c : Char) (rest : List Char) : Option (Lexeme × List Char) :=
  match c, rest with
  | '[', _ => some (.opening .list, rest)
  | ']', _ => some (.closing .list, rest)
  | '\x7b', _ => some (.opening .record, rest)
  | '\x7d', _ => some (.closing .record, rest)
  | ',', _ => some (.comma, rest)
  | ':', _ => some (.colon, rest)
  | 'n', 'u' :: 'l' :: 'l' :: left => some (.null, left)
  | 't', 'r' :: 'u' :: 'e' :: left => some (.truth true, left)
  | 'f', 'a' :: 'l' :: 's' :: 'e' :: left => some (.truth false, left)
  | '"', _ => (splitPieces rest).map fun (pieces, left) => (.text ((join? pieces).map String.ofList), left)
  | '-', _ => (splitNumber rest).map fun (_, left) => (.number none, left)
  | c, _ => if c.isDigit then (splitNumber (c :: rest)).map fun (n?, left) => (.number n?, left) else none

theorem length_splitPieces {cs left : List Char} {pieces : List Piece}
    (h : splitPieces cs = some (pieces, left)) : left.length ≤ cs.length := by
  fun_induction splitPieces cs generalizing pieces left with
  | case1 => cases h
  | case2 rest =>
      cases h
      simp
  | case3 a b c d rest n _ ih =>
      obtain ⟨p, hp, he⟩ := Option.map_eq_some_iff.1 h
      cases he
      have := ih hp
      simp
      omega
  | case4 => cases h
  | case5 e rest _ c _ ih =>
      obtain ⟨p, hp, he⟩ := Option.map_eq_some_iff.1 h
      cases he
      have := ih hp
      simp
      omega
  | case6 => cases h
  | case7 => cases h
  | case8 c rest _ _ _ _ ih =>
      obtain ⟨p, hp, he⟩ := Option.map_eq_some_iff.1 h
      cases he
      have := ih hp
      simp
      omega

theorem length_passDigits {cs left : List Char} (h : passDigits cs = some left) :
    left.length ≤ cs.length := by
  unfold passDigits at h
  split at h
  · cases h
  · next d rest =>
    split at h
    · cases h
      have := (List.dropWhile_suffix (l := rest) Char.isDigit).length_le
      simp
      omega
    · cases h

theorem length_passSign (cs : List Char) : (passSign cs).length ≤ cs.length := by
  unfold passSign
  split <;> simp

theorem length_splitFraction {cs : List Char} {p : Bool × List Char} (h : splitFraction cs = some p) :
    p.2.length ≤ cs.length := by
  unfold splitFraction at h
  split at h
  · obtain ⟨left, hl, rfl⟩ := Option.map_eq_some_iff.1 h
    have := length_passDigits hl
    simp
    omega
  · cases h
    exact Nat.le_refl _

theorem length_splitExponent {cs : List Char} {p : Bool × List Char} (h : splitExponent cs = some p) :
    p.2.length ≤ cs.length := by
  unfold splitExponent at h
  split at h
  · next rest =>
    obtain ⟨left, hl, rfl⟩ := Option.map_eq_some_iff.1 h
    have := length_passDigits hl
    have := length_passSign rest
    simp
    omega
  · next rest =>
    obtain ⟨left, hl, rfl⟩ := Option.map_eq_some_iff.1 h
    have := length_passDigits hl
    have := length_passSign rest
    simp
    omega
  · cases h
    exact Nat.le_refl _

theorem length_splitNumber {cs left : List Char} {n? : Option Nat} (h : splitNumber cs = some (n?, left)) :
    left.length < cs.length := by
  unfold splitNumber at h
  simp only at h
  split at h
  · next hd =>
    have hpos : 0 < (cs.takeWhile Char.isDigit).length := by
      refine List.length_pos_iff.mpr fun hn => ?_
      simp [hn, areDigits] at hd
    have hsum := congrArg List.length (List.takeWhile_append_dropWhile (p := Char.isDigit) (l := cs))
    rw [List.length_append] at hsum
    obtain ⟨p, hp, h⟩ := Option.bind_eq_some_iff.1 h
    obtain ⟨q, hq, he⟩ := Option.map_eq_some_iff.1 h
    cases he
    have := length_splitFraction hp
    have := length_splitExponent hq
    omega
  · cases h

theorem length_of_first? {c : Char} {rest left : List Char} {l : Lexeme}
    (h : first? c rest = some (l, left)) : left.length ≤ rest.length := by
  unfold first? at h
  split at h
  case h_10 =>
    obtain ⟨p, hp, he⟩ := Option.map_eq_some_iff.1 h
    cases he
    exact length_splitPieces hp
  case h_11 =>
    obtain ⟨p, hp, he⟩ := Option.map_eq_some_iff.1 h
    cases he
    exact Nat.le_of_lt (length_splitNumber hp)
  case h_12 =>
    split at h
    · obtain ⟨p, hp, he⟩ := Option.map_eq_some_iff.1 h
      cases he
      exact Nat.le_of_lt_succ (length_splitNumber hp)
    · cases h
  all_goals
    cases h
    simp <;> omega

def scanBehind (found : List Lexeme) (cs : List Char) : Option (List Lexeme) :=
  match cs with
  | [] => some found.reverse
  | c :: rest =>
      if isSpace c then scanBehind found rest
      else
        match _h : first? c rest with
        | none => none
        | some (l, left) => scanBehind (l :: found) left
termination_by cs.length
decreasing_by
  · simp
  · have := length_of_first? _h
    simp
    omega

def scan (cs : List Char) : Option (List Lexeme) := scanBehind [] cs

end Lexeme

end LiveSheet
