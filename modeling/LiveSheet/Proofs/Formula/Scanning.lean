import LiveSheet.Formula.Printer
import LiveSheet.Proofs.Formula.Address
import Mathlib.Data.List.Chain

/-!
Scanning what was written. Tokens that are written one behind the other are scanned again as they were, unless the mark
`#N/A` meets the stroke of a division: its own stroke makes the scanner take the second one, too, and no mark is known
by that name.
-/

namespace LiveSheet

namespace Token

def chars : Token → List Char
  | .number n => (Value.numberText n).toList
  | .text s => (quotedText s).toList
  | .failure e => e.marker.toList
  | .word s => s.toList
  | .operator o => o.symbol.toList
  | .minus => ['-']
  | .plus => ['+']
  | .opening => ['(']
  | .closing => [')']
  | .comma => [',']
  | .colon => [':']

def IsWord (s : String) : Prop := ∃ c cs, s.toList = c :: cs ∧ startsWord c = true ∧ ∀ d ∈ cs, inWord d = true

structure IsNumeral (n : Float) : Prop where
  ne_nil : (Value.numberText n).toList ≠ []
  startsNumber : ∀ c ∈ (Value.numberText n).toList, startsNumber c = true
  reads : Number.numeral? (Value.numberText n).toList = some n

def IsMade (p : Float → Prop) : Token → Prop
  | .number n => p n
  | .failure e => e ∈ CellError.written
  | .word s => IsWord s
  | .operator o => o ≠ .add ∧ o ≠ .subtract
  | _ => True

def Ends (c : Char) : Token → Prop
  | .number _ => startsNumber c = false ∧ c ≠ 'e' ∧ c ≠ 'E'
  | .text _ => c ≠ '"'
  | .failure .notAvailable => inMarker c = false ∧ c ≠ '!' ∧ c ≠ '?'
  | .word _ => inWord c = false
  | .operator .less => c ≠ '=' ∧ c ≠ '>'
  | .operator .greater => c ≠ '='
  | _ => True

end Token

namespace Token

variable {rest : List Char}

theorem splitNumber_append {cs : List Char} (hcs : ∀ c ∈ cs, startsNumber c = true)
    (hrest : ∀ c ∈ rest.head?, startsNumber c = false ∧ c ≠ 'e' ∧ c ≠ 'E') : splitNumber (cs ++ rest) = (cs, rest) := by
  have hbehind : ∀ c ∈ rest.head?, startsNumber c = false := fun c hc => (hrest c hc).1
  have hexponent : splitExponent rest = ([], rest) := by
    unfold splitExponent
    split
    · next e _ _ _ =>
        obtain ⟨-, he, hE⟩ := hrest e rfl
        simp [he, hE]
    · next e _ =>
        obtain ⟨-, he, hE⟩ := hrest e rfl
        simp [he, hE]
    · rfl
  rw [splitNumber, takeWhile_append_of_head? hcs hbehind, dropWhile_append_of_head? hcs hbehind]
  simp [hexponent]

theorem splitText_append (cs : List Char) (hrest : rest.head? ≠ some '"') :
    splitText (cs.flatMap (fun c => if c = '"' then ['"', '"'] else [c]) ++ '"' :: rest) = some (cs, rest) := by
  induction cs with
  | nil =>
      cases rest with
      | nil => rfl
      | cons c rest =>
          have hc : c ≠ '"' := by simpa using hrest
          simp [splitText, hc]
  | cons c cs ih =>
      by_cases hc : c = '"'
      · subst hc
        simp only [List.flatMap_cons, ↓reduceIte, List.cons_append, List.nil_append, splitText, ih, Option.map]
      · simp only [List.flatMap_cons, if_neg hc, List.cons_append, List.nil_append]
        rw [splitText, ih]
        · rfl
        all_goals simp [hc]

theorem startsNumber_of_startsWord {c : Char} (h : startsWord c = true) :
    startsNumber c = false ∧ c ≠ '"' ∧ c ≠ '#' ∧ isSeparator c = false := by
  have hne : ∀ d, startsWord d = false → c ≠ d := fun d hd hc => by rw [hc, hd] at h; cases h
  refine ⟨?_, hne _ rfl, hne _ rfl, ?_⟩
  · cases hc : startsNumber c with
    | false => rfl
    | true =>
        rw [startsNumber, Bool.or_eq_true, beq_iff_eq] at hc
        rcases hc with hc | hc
        · have halpha := isAlpha_of_isDigit hc
          have hdollar : c ≠ '$' := by rintro rfl; cases hc
          have hlow : c ≠ '_' := by rintro rfl; cases hc
          simp [startsWord, halpha, hdollar, hlow] at h
        · exact absurd hc (hne _ rfl)
  · simp [isSeparator, hne ' ' rfl, hne '\t' rfl, hne '\n' rfl, hne '\r' rfl]

theorem isSeparator_of_startsNumber {c : Char} (h : startsNumber c = true) : isSeparator c = false := by
  have hne : ∀ d, startsNumber d = false → c ≠ d := fun d hd hc => by rw [hc, hd] at h; cases h
  simp [isSeparator, hne ' ' rfl, hne '\t' rfl, hne '\n' rfl, hne '\r' rfl]

theorem first?_number {c : Char} (hc : startsNumber c = true) : first? c rest =
    match Number.numeral? (c :: (splitNumber rest).1) with
    | some n => .ok (.number n, (splitNumber rest).2)
    | none => .error (.invalidNumber (String.ofList (c :: (splitNumber rest).1))) := by
  unfold first?
  exact if_pos hc

theorem first?_quote : first? '"' rest =
    match splitText rest with
    | some (s, left) => .ok (.text (String.ofList s), left)
    | none => .error .unterminatedText := rfl

theorem first?_mark : first? '#' rest =
    match CellError.ofMarker? (String.ofList ('#' :: (splitMarker rest).1)) with
    | some e => .ok (.failure e, (splitMarker rest).2)
    | none => .error (.unknownMarker (String.ofList ('#' :: (splitMarker rest).1))) := rfl

theorem first?_letter {c : Char} (hc : startsWord c = true) :
    first? c rest = .ok (.word (String.ofList (c :: rest.takeWhile inWord)), rest.dropWhile inWord) := by
  obtain ⟨hnumber, hquote, hmark, -⟩ := startsNumber_of_startsWord hc
  unfold first?
  rw [if_neg (by simp [hnumber]), if_neg hquote, if_neg hmark, if_pos hc]

theorem splitMarker_append {cs : List Char} (hcs : ∀ c ∈ cs, inMarker c = true)
    (hrest : ∀ c ∈ rest.head?, inMarker c = false ∧ c ≠ '!' ∧ c ≠ '?') : splitMarker (cs ++ rest) = (cs, rest) := by
  have hbehind : ∀ c ∈ rest.head?, inMarker c = false := fun c hc => (hrest c hc).1
  rw [splitMarker, takeWhile_append_of_head? hcs hbehind, dropWhile_append_of_head? hcs hbehind]
  cases rest with
  | nil => rfl
  | cons c rest =>
      obtain ⟨-, hbang, hmark⟩ := hrest c rfl
      simp [hbang, hmark]

theorem ofMarker?_marker : ∀ e ∈ CellError.written, CellError.ofMarker? e.marker = some e := by decide +kernel

theorem first?_failure {e : CellError} (he : e ∈ CellError.written) (hrest : ∀ c ∈ rest.head?, (failure e).Ends c) :
    ∃ cs, e.marker.toList = '#' :: cs ∧ first? '#' (cs ++ rest) = .ok (.failure e, rest) := by
  have hsplit : ∃ cs, e.marker.toList = '#' :: cs ∧ splitMarker (cs ++ rest) = (cs, rest) := by
    simp only [CellError.written, List.mem_cons, List.not_mem_nil, or_false] at he
    rcases he with rfl | rfl | rfl | rfl | rfl | rfl | rfl
    · exact ⟨['V', 'A', 'L', 'U', 'E', '!'], rfl, rfl⟩
    · exact ⟨['D', 'I', 'V', '/', '0', '!'], rfl, rfl⟩
    · exact ⟨['N', 'U', 'M', '!'], rfl, rfl⟩
    · exact ⟨['N', 'A', 'M', 'E', '?'], rfl, rfl⟩
    · exact ⟨['R', 'E', 'F', '!'], rfl, rfl⟩
    · exact ⟨['N', '/', 'A'], rfl, splitMarker_append (by simp [inMarker]) hrest⟩
    · exact ⟨['C', 'I', 'R', 'C', '!'], rfl, rfl⟩
  obtain ⟨cs, hcs, hsplit⟩ := hsplit
  refine ⟨cs, hcs, ?_⟩
  simp only [first?_mark, hsplit, ← hcs, String.ofList_toList, ofMarker?_marker e he]

theorem first?_operator {o : Operator} (ho : o ≠ .add ∧ o ≠ .subtract) (hrest : ∀ c ∈ rest.head?, (operator o).Ends c) :
    ∃ c cs, o.symbol.toList = c :: cs ∧ isSeparator c = false ∧ first? c (cs ++ rest) = .ok (.operator o, rest) := by
  cases o with
  | add => exact absurd rfl ho.1
  | subtract => exact absurd rfl ho.2
  | less =>
      refine ⟨'<', [], rfl, rfl, ?_⟩
      cases rest with
      | nil => rfl
      | cons c rest =>
          obtain ⟨hequal, hgreater⟩ := hrest c rfl
          simp [first?, startsNumber, startsWord, hequal, hgreater]
  | greater =>
      refine ⟨'>', [], rfl, rfl, ?_⟩
      cases rest with
      | nil => rfl
      | cons c rest =>
          have hequal : c ≠ '=' := hrest c rfl
          simp [first?, startsNumber, startsWord, hequal]
  | _ => exact ⟨_, _, rfl, rfl, rfl⟩

theorem first?_chars {t : Token} (ht : t.IsMade IsNumeral) (hrest : ∀ c ∈ rest.head?, t.Ends c) :
    ∃ c cs, t.chars = c :: cs ∧ isSeparator c = false ∧ first? c (cs ++ rest) = .ok (t, rest) := by
  cases t with
  | number n =>
      obtain ⟨c, cs, hcs⟩ := List.exists_cons_of_ne_nil ht.ne_nil
      have hdigits := ht.startsNumber
      have hreads := ht.reads
      rw [hcs] at hdigits hreads
      obtain ⟨hc, hdigits⟩ := List.forall_mem_cons.mp hdigits
      refine ⟨c, cs, hcs, isSeparator_of_startsNumber hc, ?_⟩
      simp only [first?_number hc, splitNumber_append hdigits hrest, hreads]
  | text s =>
      refine ⟨'"', s.toList.flatMap (fun c => if c = '"' then ['"', '"'] else [c]) ++ ['"'], String.toList_ofList,
        rfl, ?_⟩
      have hsplit : splitText (s.toList.flatMap (fun c => if c = '"' then ['"', '"'] else [c]) ++ ['"'] ++ rest) =
          some (s.toList, rest) := by
        rw [List.append_assoc]
        exact splitText_append _ fun hquote => hrest '"' hquote rfl
      simp only [first?_quote, hsplit, String.ofList_toList]
  | failure e =>
      obtain ⟨cs, hcs, hfirst⟩ := first?_failure ht hrest
      exact ⟨'#', cs, hcs, rfl, hfirst⟩
  | word s =>
      obtain ⟨c, cs, hcs, hc, hword⟩ := ht
      refine ⟨c, cs, hcs, (startsNumber_of_startsWord hc).2.2.2, ?_⟩
      rw [first?_letter hc, takeWhile_append_of_head? hword hrest, dropWhile_append_of_head? hword hrest, ← hcs,
        String.ofList_toList]
  | operator o => exact first?_operator ht hrest
  | _ => exact ⟨_, [], rfl, rfl, rfl⟩

theorem exists_marker {e : CellError} (he : e ∈ CellError.written) : ∃ cs, e.marker.toList = '#' :: cs := by
  have hnil : ∀ c ∈ ([] : List Char).head?, (failure e).Ends c := by simp
  obtain ⟨cs, hcs, -⟩ := first?_failure he hnil
  exact ⟨cs, hcs⟩

theorem exists_chars {t : Token} (ht : t.IsMade IsNumeral) : ∃ c cs, t.chars = c :: cs := by
  have hnil : ∀ c ∈ ([] : List Char).head?, t.Ends c := by simp
  obtain ⟨c, cs, hcs, -⟩ := first?_chars ht hnil
  exact ⟨c, cs, hcs⟩

end Token

namespace Token

def isOperand : Token → Bool
  | .number _ | .text _ | .failure _ | .word _ => true
  | _ => false

def isOperator : Token → Bool
  | .operator _ => true
  | _ => false

def Meets (a b : Token) : Prop :=
  (a.isOperand = true → b.isOperand = false) ∧ (a.isOperator = true → b.isOperator = false)

def IsStroke (a b : Token) : Prop := a = .failure .notAvailable ∧ b = .operator .divide

def signs : List Char := ['+', '-', '*', '/', '^', '&', '=', '<', '>', '(', ')', ',', ':']

variable {a b : Token} {c : Char}

theorem mem_signs (hb : b.isOperand = false) (hc : c ∈ b.chars.head?) :
    c ∈ signs ∧ (c = '/' → b = .operator .divide) := by
  cases b with
  | operator o => cases o <;> cases hc <;> exact ⟨by decide, by decide⟩
  | number | text | failure | word => cases hb
  | _ =>
      cases hc
      exact ⟨by decide, by decide⟩

theorem ne_of_not_isOperator (hb : b.isOperator = false) (hmade : b.IsMade IsNumeral) (hc : c ∈ b.chars.head?) :
    c ≠ '=' ∧ c ≠ '>' := by
  cases b with
  | number n =>
      have hdigit := hmade.startsNumber c (List.mem_of_mem_head? hc)
      constructor <;> rintro rfl <;> cases hdigit
  | text s =>
      have hquote : c = '"' := by simpa [chars, quotedText] using hc.symm
      subst hquote
      decide
  | failure e =>
      obtain ⟨cs, hcs⟩ := exists_marker hmade
      rw [chars, hcs] at hc
      cases hc
      decide
  | word s =>
      obtain ⟨d, cs, hcs, hd, -⟩ := hmade
      rw [chars, hcs] at hc
      cases hc
      constructor <;> rintro rfl <;> cases hd
  | operator => cases hb
  | _ =>
      cases hc
      decide

theorem ends_of_meets (hb : b.IsMade IsNumeral) (h : a.Meets b) (hstroke : ¬a.IsStroke b) (hc : c ∈ b.chars.head?) :
    a.Ends c := by
  cases a with
  | number n =>
      have hends : ∀ c ∈ signs, startsNumber c = false ∧ c ≠ 'e' ∧ c ≠ 'E' := by simp [signs, startsNumber]
      exact hends c (mem_signs (h.1 rfl) hc).1
  | text s =>
      have hends : ∀ c ∈ signs, c ≠ '"' := by simp [signs]
      exact hends c (mem_signs (h.1 rfl) hc).1
  | word s =>
      have hends : ∀ c ∈ signs, inWord c = false := by simp [signs, inWord]
      exact hends c (mem_signs (h.1 rfl) hc).1
  | failure e =>
      cases e with
      | notAvailable =>
          have hends : ∀ c ∈ signs, c ≠ '/' → inMarker c = false ∧ c ≠ '!' ∧ c ≠ '?' := by simp [signs, inMarker]
          obtain ⟨hsign, hdivide⟩ := mem_signs (h.1 rfl) hc
          exact hends c hsign fun hslash => hstroke ⟨rfl, hdivide hslash⟩
      | _ => trivial
  | operator o =>
      have hne := ne_of_not_isOperator (h.2 rfl) hb hc
      cases o with
      | less => exact hne
      | greater => exact hne.1
      | _ => trivial
  | _ => trivial

def spelled (ts : List Token) : List Char := ts.flatMap chars

theorem head?_spelled {t : Token} {ts : List Token} (ht : t.IsMade IsNumeral) :
    (spelled (t :: ts)).head? = t.chars.head? := by
  obtain ⟨c, cs, hcs⟩ := exists_chars ht
  simp [spelled, hcs]

theorem scanBehind_token {t : Token} {found : List Token} {rest : List Char} (ht : t.IsMade IsNumeral)
    (hrest : ∀ c ∈ rest.head?, t.Ends c) : scanBehind found (t.chars ++ rest) = scanBehind (t :: found) rest := by
  obtain ⟨c, cs, hcs, hseparator, hfirst⟩ := first?_chars ht hrest
  rw [hcs, List.cons_append, scanBehind, if_neg (by simp [hseparator])]
  split
  · next h =>
      rw [hfirst] at h
      cases h
  · next h =>
      rw [hfirst] at h
      cases h
      rfl

instance (a b : Token) : Decidable (a.IsStroke b) := inferInstanceAs (Decidable (_ ∧ _))

def IsStrokeless (ts : List Token) : Prop := ts.IsChain fun a b => ¬a.IsStroke b

instance (ts : List Token) : Decidable (IsStrokeless ts) := inferInstanceAs (Decidable (ts.IsChain _))

theorem scanBehind_spelled {ts : List Token} (hmade : ∀ t ∈ ts, t.IsMade IsNumeral) (hmeets : ts.IsChain Meets)
    (hstrokeless : IsStrokeless ts) (found : List Token) :
    scanBehind found (spelled ts) = .ok (found.reverse ++ ts) := by
  induction ts generalizing found with
  | nil => simp [spelled, scanBehind]
  | cons t ts ih =>
      obtain ⟨ht, hmade⟩ := List.forall_mem_cons.mp hmade
      have hends : ∀ c ∈ (spelled ts).head?, t.Ends c := by
        cases ts with
        | nil => simp [spelled]
        | cons u us =>
            have hu := hmade u List.mem_cons_self
            rw [head?_spelled hu]
            exact fun c => ends_of_meets hu (hmeets.rel_head? rfl) (hstrokeless.rel_head? rfl)
      show scanBehind found (t.chars ++ spelled ts) = _
      rw [scanBehind_token ht hends, ih hmade hmeets.tail hstrokeless.tail]
      simp

theorem ofMarker?_stroke (cs : List Char) :
    CellError.ofMarker? (String.ofList ('#' :: 'N' :: '/' :: 'A' :: '/' :: cs)) = none := by
  rw [CellError.ofMarker?, List.find?_eq_none]
  intro e he heq
  have hmarker : e.marker.toList = '#' :: 'N' :: '/' :: 'A' :: '/' :: cs.map Char.toUpper := by
    rw [beq_iff_eq.mp heq, Text.upperAscii, String.toList_map, String.toList_ofList]
    rfl
  simp only [CellError.written, List.mem_cons, List.not_mem_nil, or_false] at he
  rcases he with rfl | rfl | rfl | rfl | rfl | rfl | rfl <;> cases hmarker

theorem first?_stroke (cs : List Char) : ∃ e, first? '#' ('N' :: '/' :: 'A' :: '/' :: cs) = .error e := by
  have hsplit : ∃ mark, (splitMarker ('N' :: '/' :: 'A' :: '/' :: cs)).1 = 'N' :: '/' :: 'A' :: '/' :: mark := by
    unfold splitMarker
    split
    · split
      · exact ⟨_, rfl⟩
      · exact ⟨_, rfl⟩
    · exact ⟨_, rfl⟩
  obtain ⟨mark, hmark⟩ := hsplit
  rw [first?_mark, hmark, ofMarker?_stroke]
  exact ⟨_, rfl⟩

theorem scanBehind_stroke {ts : List Token} (hmade : ∀ t ∈ ts, t.IsMade IsNumeral) (hmeets : ts.IsChain Meets)
    (hstroke : ¬IsStrokeless ts) (found : List Token) : ∃ e, scanBehind found (spelled ts) = .error e := by
  induction ts generalizing found with
  | nil => exact absurd .nil hstroke
  | cons t ts ih =>
      obtain ⟨ht, hmade⟩ := List.forall_mem_cons.mp hmade
      cases ts with
      | nil => exact absurd (.singleton t) hstroke
      | cons u us =>
          by_cases hhead : t.IsStroke u
          · obtain ⟨rfl, rfl⟩ := hhead
            obtain ⟨e, he⟩ := first?_stroke (spelled us)
            refine ⟨e, ?_⟩
            show scanBehind found ('#' :: 'N' :: '/' :: 'A' :: '/' :: spelled us) = _
            rw [scanBehind, if_neg (by decide)]
            split
            · next h =>
                rw [he] at h
                cases h
                rfl
            · next h =>
                rw [he] at h
                cases h
          · have hu := hmade u List.mem_cons_self
            have hends : ∀ c ∈ (spelled (u :: us)).head?, t.Ends c := by
              rw [head?_spelled hu]
              exact fun c => ends_of_meets hu (hmeets.rel_head? rfl) hhead
            have htail : ¬IsStrokeless (u :: us) := fun h => hstroke (List.IsChain.cons_cons hhead h)
            show ∃ e, scanBehind found (t.chars ++ spelled (u :: us)) = .error e
            rw [scanBehind_token ht hends]
            exact ih hmade hmeets.tail htail _

theorem isStrokeless_of_spelled {ts : List Token} (h : ¬"#N/A/".toList <:+: spelled ts) : IsStrokeless ts := by
  induction ts with
  | nil => exact .nil
  | cons t ts ih =>
      have htail : spelled ts <:+: spelled (t :: ts) := (List.suffix_append _ _).isInfix
      refine List.isChain_cons.mpr ⟨?_, ih fun hts => h (hts.trans htail)⟩
      rintro u hu ⟨rfl, rfl⟩
      obtain ⟨us, rfl⟩ := List.head?_eq_some_iff.mp hu
      exact h ⟨[], spelled us, rfl⟩

end Token

namespace Token

def IsRead (n : Float) : Prop := ∃ cs, Number.numeral? cs = some n

theorem isMade_of_first? {c : Char} {rest left : List Char} {t : Token} (h : first? c rest = .ok (t, left)) :
    t.IsMade IsRead := by
  by_cases hnumber : startsNumber c = true
  · rw [first?_number hnumber] at h
    split at h
    · next n hn =>
        cases h
        exact ⟨_, hn⟩
    · cases h
  by_cases hquote : c = '"'
  · rw [hquote, first?_quote] at h
    split at h
    · cases h
      trivial
    · cases h
  by_cases hmark : c = '#'
  · rw [hmark, first?_mark] at h
    split at h
    · next e he =>
        cases h
        exact List.mem_of_find?_eq_some he
    · cases h
  by_cases hword : startsWord c = true
  · rw [first?_letter hword] at h
    cases h
    exact ⟨c, _, String.toList_ofList, hword, fun d hd => List.mem_takeWhile_imp hd⟩
  · unfold first? at h
    rw [if_neg hnumber, if_neg hquote, if_neg hmark, if_neg hword] at h
    split at h <;> cases h <;> trivial

theorem isMade_of_scanBehind {found ts : List Token} {cs : List Char} (hfound : ∀ t ∈ found, t.IsMade IsRead)
    (h : scanBehind found cs = .ok ts) : ∀ t ∈ ts, t.IsMade IsRead := by
  fun_induction scanBehind found cs with
  | case1 found =>
      cases h
      simpa using hfound
  | case2 found c rest _ ih => exact ih hfound h
  | case3 => cases h
  | case4 found c rest _ t left hfirst ih =>
      exact ih (List.forall_mem_cons.mpr ⟨isMade_of_first? hfirst, hfound⟩) h

theorem isMade_of_scan {ts : List Token} {cs : List Char} (h : scan cs = .ok ts) : ∀ t ∈ ts, t.IsMade IsRead :=
  isMade_of_scanBehind (by simp) h

end Token

end LiveSheet
