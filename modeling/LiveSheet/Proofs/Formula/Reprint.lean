import LiveSheet.Proofs.Formula.Nesting
import LiveSheet.Proofs.Formula.Printing
import LiveSheet.Proofs.Number.Written

namespace LiveSheet

namespace Number

variable {n : Float}

theorem isNumeral (h : IsUpright n) (hfinite : isFinite n = true) : Token.IsNumeral n := by
  obtain ⟨m, e, hdecimal, hvalue⟩ := isDecimal_numberText h.1 hfinite
  refine ⟨hdecimal.ne_nil, fun c hc => ?_, hvalue ▸ hdecimal.reads⟩
  rcases hdecimal.chars c hc with hdigit | rfl
  · simp [Token.startsNumber, hdigit]
  · rfl

theorem numberText_infinite (h : IsUpright n) (hinfinite : isFinite n = false) : Value.numberText n = "inf" := by
  obtain rfl : n = infinity := by
    by_contra hn
    simp [h.isFinite hn] at hinfinite
  decide

end Number

namespace Token

variable {s : String}

theorem toUpper_inWord {c : Char} (h : inWord c = true) :
    inWord c.toUpper = true ∧ c.toUpper.toUpper = c.toUpper ∧ (startsWord c = true → startsWord c.toUpper = true) := by
  simp only [inWord, Bool.or_eq_true, beq_iff_eq] at h
  rcases h with ((h | rfl) | rfl) | rfl
  · exact forall_isAlphanum (p := fun c => inWord c.toUpper = true ∧ c.toUpper.toUpper = c.toUpper ∧
      (startsWord c = true → startsWord c.toUpper = true)) (by decide) h
  all_goals decide

theorem inWord_of_startsWord {c : Char} (h : startsWord c = true) : inWord c = true := by
  simp only [startsWord, Bool.or_eq_true, beq_iff_eq] at h
  rcases h with (h | rfl) | rfl
  · simp [inWord, Char.isAlphanum, h]
  all_goals decide

theorem isWord_upperAscii (h : IsWord s) : IsWord (Text.upperAscii s) := by
  obtain ⟨c, cs, hs, hc, hcs⟩ := h
  refine ⟨c.toUpper, cs.map Char.toUpper, by simp [Text.upperAscii, hs], ?_, ?_⟩
  · exact (toUpper_inWord (inWord_of_startsWord hc)).2.2 hc
  · intro d hd
    obtain ⟨e, he, rfl⟩ := List.mem_map.mp hd
    exact (toUpper_inWord (hcs e he)).1

theorem upperAscii_upperAscii (h : IsWord s) : Text.upperAscii (Text.upperAscii s) = Text.upperAscii s := by
  obtain ⟨c, cs, hs, hc, hcs⟩ := h
  have hall : ∀ d ∈ s.toList, d.toUpper.toUpper = d.toUpper := by
    rw [hs]
    refine List.forall_mem_cons.mpr ⟨(toUpper_inWord (inWord_of_startsWord hc)).2.1, fun d hd => ?_⟩
    exact (toUpper_inWord (hcs d hd)).2.1
  apply String.toList_inj.mp
  simp only [Text.upperAscii, String.toList_map, List.map_map]
  exact List.map_congr_left hall

end Token

namespace Formula

def IsDrawnFrom (ts : List Token) : Formula → Prop
  | .literal (.number n) => .number n ∈ ts
  | .literal .blank => False
  | .failure e => .failure e ∈ ts
  | .cell a => a.IsNear
  | .range a b => a.IsNear ∧ b.IsNear
  | .name w => .word w ∈ ts ∧ IsName w
  | .call w _ => ∃ v, .word v ∈ ts ∧ Text.upperAscii v = w
  | _ => True

variable {f : Formula} {ts us : List Token}

theorem IsDrawnFrom.mono (h : f.IsDrawnFrom ts) (hts : ts ⊆ us) : f.IsDrawnFrom us := by
  cases f with
  | literal v => cases v with
    | number n => exact hts h
    | _ => exact h
  | failure e => exact hts h
  | name w => exact ⟨hts h.1, h.2⟩
  | call w fs => exact h.imp fun _ hv => ⟨hts hv.1, hv.2⟩
  | _ => exact h

end Formula

def Phrase.parts : Phrase → List Formula
  | .stratum _ f => f.parts
  | .primary f => f.parts
  | .arguments fs => Formula.allParts fs

open Formula (IsDrawnFrom) in
theorem Spells.drawn {d : Nat} {p : Phrase} {ts : List Token} (h : Spells d p ts) :
    ∀ f ∈ p.parts, f.IsDrawnFrom ts := by
  have mono : ∀ {fs : List Formula} {ts us : List Token}, (∀ f ∈ fs, f.IsDrawnFrom ts) → ts ⊆ us →
      ∀ f ∈ fs, f.IsDrawnFrom us := fun h hts f hf => (h f hf).mono hts
  induction h with
  | tighter _ _ ih => exact ih
  | @binary s t o token f g d e ts us _ _ _ _ _ ihleft ihright =>
      refine List.forall_mem_cons.mpr ⟨trivial, List.forall_mem_append.mpr ⟨mono ihleft ?_, mono ihright ?_⟩⟩
      · exact List.subset_append_left _ _
      · exact fun t ht => by simp [ht]
  | minus _ ih => exact List.forall_mem_cons.mpr ⟨trivial, mono ih (List.subset_cons_self _ _)⟩
  | plus _ ih => exact mono ih (List.subset_cons_self _ _)
  | primary _ ih => exact ih
  | number n => exact List.forall_mem_singleton.mpr List.mem_cons_self
  | text s => exact List.forall_mem_singleton.mpr trivial
  | failure e => exact List.forall_mem_singleton.mpr List.mem_cons_self
  | cell h => exact List.forall_mem_singleton.mpr (Address.isNear_of_ofWord? h)
  | range h k => exact List.forall_mem_singleton.mpr ⟨Address.isNear_of_ofWord? h, Address.isNear_of_ofWord? k⟩
  | truth b _ => exact List.forall_mem_singleton.mpr trivial
  | rowCount _ => exact List.forall_mem_singleton.mpr trivial
  | name h => exact List.forall_mem_singleton.mpr ⟨List.mem_cons_self, h⟩
  | enclosed _ ih => exact mono ih fun t ht => by simp [ht]
  | call _ ih => exact List.forall_mem_cons.mpr ⟨⟨_, List.mem_cons_self, rfl⟩, mono ih fun t ht => by simp [ht]⟩
  | noArgument => exact fun f hf => nomatch hf
  | lastArgument _ ih => simpa [Phrase.parts, Formula.allParts] using ih
  | argument _ _ ih ihmore =>
      refine List.forall_mem_append.mpr ⟨mono ih ?_, mono ihmore ?_⟩
      · exact List.subset_append_left _ _
      · exact fun t ht => by simp [ht]

namespace Formula

def IsWritable : Formula → Prop
  | .literal (.number n) => Number.IsUpright n
  | .literal .blank => False
  | .failure e => e ∈ CellError.written
  | .name w => Token.IsWord w ∧ IsName w
  | .call w _ => Token.IsWord w ∧ Text.upperAscii w = w
  | _ => True

def IsLegible : Formula → Prop
  | .literal (.number n) => Number.isFinite n = true
  | .cell a => a.IsNear
  | .range a b => a.IsNear ∧ b.IsNear
  | _ => True

instance : (f : Formula) → Decidable f.IsLegible
  | .literal (.number n) => inferInstanceAs (Decidable (Number.isFinite n = true))
  | .cell a => inferInstanceAs (Decidable a.IsNear)
  | .range a b => inferInstanceAs (Decidable (a.IsNear ∧ b.IsNear))
  | .literal .blank | .literal (.text _) | .literal (.truth _) | .failure _ | .rowCount | .name _ | .negate _
  | .binary _ _ _ | .call _ _ => inferInstanceAs (Decidable True)

variable {f : Formula} {ts : List Token}

theorem IsDrawnFrom.isWritable (h : f.IsDrawnFrom ts) (hts : ∀ t ∈ ts, t.IsMade Token.IsRead) : f.IsWritable := by
  cases f with
  | literal v => cases v with
    | number n => exact Number.isUpright_of_numeral? (hts _ h).choose_spec
    | _ => exact h
  | failure e => exact hts _ h
  | name w => exact ⟨hts _ h.1, h.2⟩
  | call w fs =>
      obtain ⟨v, hv, rfl⟩ := h
      exact ⟨Token.isWord_upperAscii (hts _ hv), Token.upperAscii_upperAscii (hts _ hv)⟩
  | _ => trivial

theorem IsDrawnFrom.isLegible (h : f.IsDrawnFrom ts)
    (hnumber : ∀ n, f = .literal (.number n) → .number n ∈ ts → Number.isFinite n = true) : f.IsLegible := by
  cases f with
  | literal v => cases v with
    | number n => exact hnumber n rfl h
    | _ => trivial
  | cell a => exact h
  | range a b => exact h
  | _ => trivial

theorem isSpellable (hwritable : f.IsWritable) (hlegible : f.IsLegible) : f.IsSpellable := by
  cases f with
  | literal v => cases v with
    | number n => exact hlegible
    | _ => exact hwritable
  | cell a => exact hlegible
  | range a b => exact hlegible
  | name w => exact hwritable.2
  | call w fs => exact hwritable.2
  | _ => trivial

end Formula

theorem Address.isWord_text (a : Address) : Token.IsWord a.text := by
  have hletter : ∀ c ∈ lettersOfNumber (a.cell.column + 1), c.isAlpha = true := fun c => isAlpha_of_mem_lettersOfNumber
  have hword : ∀ c ∈ a.text.toList, Token.inWord c = true := by
    intro c hc
    simp only [toList_text, spelling, anchor, List.mem_append] at hc
    rcases hc with hc | hc | hc | hc
    · split at hc <;> simp_all [Token.inWord]
    · simp [Token.inWord, Char.isAlphanum, hletter c hc]
    · split at hc <;> simp_all [Token.inWord]
    · simp [Token.inWord, Char.isAlphanum, Nat.isDigit_of_mem_toDigits (by decide) (by decide) hc]
  obtain ⟨c, cs, hcs⟩ := List.exists_cons_of_ne_nil (lettersOfNumber_ne_nil (Nat.succ_pos a.cell.column))
  have hstart : ∃ d ds, a.text.toList = d :: ds ∧ Token.startsWord d = true := by
    rw [toList_text, spelling, hcs]
    cases a.columnFixed with
    | true => exact ⟨'$', _, rfl, rfl⟩
    | false => exact ⟨c, _, rfl, by simp [Token.startsWord, hletter c (by simp [hcs])]⟩
  obtain ⟨d, ds, hds, hd⟩ := hstart
  exact ⟨d, ds, hds, hd, fun e he => hword e (by simp [hds, he])⟩

namespace Formula

def punctuation : List Token := [.opening, .closing, .comma]

def ownTokens : Formula → List Token
  | .negate _ => [.minus]
  | .binary o _ _ => [o.token]
  | .call w _ => [.word w]
  | f => f.tokens

theorem mem_enclosed {t : Token} {ts : List Token} {needed : Bool} (h : t ∈ enclosed needed ts) :
    t ∈ punctuation ∨ t ∈ ts := by
  cases needed with
  | false => exact .inr h
  | true =>
      simp only [enclosed, if_true, List.mem_append, List.mem_cons] at h
      rcases h with (rfl | h) | (rfl | h)
      · exact .inl (by decide)
      · exact .inr h
      · exact .inl (by decide)
      · cases h

def HasToken (fs : List Formula) (t : Token) : Prop := t ∈ punctuation ∨ ∃ f ∈ fs, t ∈ f.ownTokens

theorem HasToken.mono {fs gs : List Formula} {t : Token} (h : HasToken fs t) (hfs : fs ⊆ gs) : HasToken gs t :=
  h.imp_right fun ⟨f, hf, ht⟩ => ⟨f, hfs hf, ht⟩

mutual

theorem hasToken {t : Token} : ∀ f : Formula, t ∈ f.tokens → HasToken f.parts t
  | .negate f, h => by
      rw [tokens, List.mem_cons] at h
      rcases h with rfl | h
      · exact .inr ⟨_, List.mem_cons_self, List.mem_cons_self⟩
      · rcases mem_enclosed h with h | h
        · exact .inl h
        · exact (hasToken f h).mono (List.subset_cons_self _ _)
  | .binary o f g, h => by
      rw [tokens, List.mem_append, List.mem_cons] at h
      rcases h with h | rfl | h
      · rcases mem_enclosed h with h | h
        · exact .inl h
        · exact (hasToken f h).mono fun x hx => by simp [parts, hx]
      · exact .inr ⟨_, List.mem_cons_self, List.mem_cons_self⟩
      · rcases mem_enclosed h with h | h
        · exact .inl h
        · exact (hasToken g h).mono fun x hx => by simp [parts, hx]
  | .call w fs, h => by
      rw [tokens, List.mem_append, List.mem_cons, List.mem_cons, List.mem_singleton] at h
      rcases h with (rfl | rfl | h) | rfl
      · exact .inr ⟨_, List.mem_cons_self, List.mem_cons_self⟩
      · exact .inl (by decide)
      · exact (hasToken_arguments fs h).mono (List.subset_cons_self _ _)
      · exact .inl (by decide)
  | .literal v, h => .inr ⟨_, List.mem_cons_self, h⟩
  | .failure e, h => .inr ⟨_, List.mem_cons_self, h⟩
  | .cell a, h => .inr ⟨_, List.mem_cons_self, h⟩
  | .range a b, h => .inr ⟨_, List.mem_cons_self, h⟩
  | .rowCount, h => .inr ⟨_, List.mem_cons_self, h⟩
  | .name w, h => .inr ⟨_, List.mem_cons_self, h⟩

theorem hasToken_arguments {t : Token} : ∀ fs : List Formula, t ∈ argumentsTokens fs → HasToken (allParts fs) t
  | [], h => nomatch h
  | [f], h => (hasToken f h).mono (List.subset_append_left _ _)
  | f :: g :: fs, h => by
      rw [argumentsTokens, List.mem_append, List.mem_cons] at h
      rcases h with h | rfl | h
      · exact (hasToken f h).mono (List.subset_append_left _ _)
      · exact .inl (by decide)
      · exact (hasToken_arguments (g :: fs) h).mono (List.subset_append_right _ _)
      · simp

end

variable {f : Formula} {t : Token}

theorem isMade_ownTokens (hf : f.IsWritable) (ht : t ∈ f.ownTokens) : t.IsMade Token.IsNumeral := by
  cases f with
  | literal v => cases v with
    | number n =>
        simp only [ownTokens, tokens] at ht
        split at ht
        · next hfinite =>
            rw [List.mem_singleton.mp ht]
            exact Number.isNumeral hf hfinite
        · next hfinite =>
            rw [List.mem_singleton.mp ht, Number.numberText_infinite hf (by simpa using hfinite)]
            exact ⟨'i', ['n', 'f'], rfl, rfl, by simp [Token.inWord]⟩
    | text s =>
        rw [List.mem_singleton.mp ht]
        trivial
    | blank => exact hf.elim
    | truth b =>
        rw [List.mem_singleton.mp ht]
        cases b with
        | true => exact ⟨'T', ['R', 'U', 'E'], rfl, rfl, by simp [Token.inWord]⟩
        | false => exact ⟨'F', ['A', 'L', 'S', 'E'], rfl, rfl, by simp [Token.inWord]⟩
  | failure e =>
      rw [List.mem_singleton.mp ht]
      exact hf
  | cell a =>
      rw [List.mem_singleton.mp ht]
      exact a.isWord_text
  | range a b =>
      simp only [ownTokens, tokens, List.mem_cons, List.not_mem_nil, or_false] at ht
      rcases ht with rfl | rfl | rfl
      · exact a.isWord_text
      · trivial
      · exact b.isWord_text
  | rowCount =>
      rw [List.mem_singleton.mp ht]
      exact ⟨'N', ['C', 'E', 'L', 'L', 'S'], rfl, rfl, by simp [Token.inWord]⟩
  | name w =>
      rw [List.mem_singleton.mp ht]
      exact hf.1
  | negate f =>
      rw [List.mem_singleton.mp ht]
      trivial
  | binary o f g =>
      rw [List.mem_singleton.mp ht]
      cases o <;> simp [Operator.token, Token.IsMade]
  | call w fs =>
      rw [List.mem_singleton.mp ht]
      exact hf.1

theorem isMade_tokens (hf : ∀ g ∈ f.parts, g.IsWritable) (ht : t ∈ f.tokens) : t.IsMade Token.IsNumeral := by
  rcases hasToken f ht with ht | ⟨g, hg, ht⟩
  · simp only [punctuation, List.mem_cons, List.not_mem_nil, or_false] at ht
    rcases ht with rfl | rfl | rfl <;> trivial
  · exact isMade_ownTokens (hf g hg) ht

theorem isFinite_of_mem_tokens {n : Float} (h : .number n ∈ f.tokens) : Number.isFinite n = true := by
  rcases hasToken f h with h | ⟨g, -, h⟩
  · simp [punctuation] at h
  · cases g with
    | literal v => cases v with
      | number m =>
          simp only [ownTokens, tokens] at h
          split at h
          · next hfinite =>
              cases List.mem_singleton.mp h
              exact hfinite
          · simp at h
      | _ => simp [ownTokens, tokens] at h
    | binary o => cases o <;> simp [ownTokens, Operator.token] at h
    | _ => simp [ownTokens, tokens] at h

/-- What is known of a formula that was read, and stays when it is moved. -/
structure IsReading (f : Formula) : Prop where
  writable : ∀ g ∈ f.parts, g.IsWritable
  nesting : f.nesting < maxNesting
  height : f.height ≤ maxNesting

/-- The text of a formula shows all that it is. -/
structure IsShown (f : Formula) : Prop where
  legible : ∀ g ∈ f.parts, g.IsLegible
  strokeless : Token.IsStrokeless f.tokens

instance (f : Formula) : Decidable f.IsShown :=
  decidable_of_iff ((∀ g ∈ f.parts, g.IsLegible) ∧ Token.IsStrokeless f.tokens)
    ⟨fun h => ⟨h.1, h.2⟩, fun h => ⟨h.1, h.2⟩⟩

variable {s : String}

theorem drawn_of_parse (h : parse s = .ok f) :
    ∃ ts, Token.scan (body s) = .ok ts ∧
      ∃ d < maxNesting, f.height ≤ maxNesting ∧ Spells d (.stratum .comparison f) ts := by
  cases hscan : Token.scan (body s) with
  | error e =>
      rw [parse, read, hscan] at h
      cases h
  | ok ts =>
      rw [parse_of_scan hscan] at h
      cases hread : ofTokens ts with
      | error e =>
          rw [hread] at h
          cases h
      | ok g =>
          rw [hread] at h
          cases h
          exact ⟨ts, rfl, ofTokens_eq_ok_iff.mp hread⟩

theorem nesting_le_of_spells {d : Nat} {ts : List Token} (h : Spells d (.stratum .comparison f) ts) : f.nesting ≤ d :=
  Nat.le_trans (Nat.le_add_right _ _) h.nesting_le

theorem isReading_of_parse (h : parse s = .ok f) : f.IsReading := by
  obtain ⟨ts, hscan, d, hd, hheight, hspells⟩ := drawn_of_parse h
  refine ⟨fun g hg => ?_, Nat.lt_of_le_of_lt (nesting_le_of_spells hspells) hd, hheight⟩
  exact (hspells.drawn g hg).isWritable (Token.isMade_of_scan hscan)

theorem parse_eq_ok_iff (hf : f.IsReading) (hbody : body s = f.text.toList) : parse s = .ok f ↔ f.IsShown := by
  have hmade : ∀ t ∈ f.tokens, t.IsMade Token.IsNumeral := fun t => isMade_tokens hf.writable
  have hmeets := (isRow_tokens f).meets
  rw [toList_text] at hbody
  have hscan : Token.IsStrokeless f.tokens → Token.scan (body s) = .ok f.tokens := fun hstrokeless => by
    rw [hbody]
    exact Token.scanBehind_spelled hmade hmeets hstrokeless []
  constructor
  · intro h
    obtain ⟨ts, hts, d, -, -, hspells⟩ := drawn_of_parse h
    by_cases hstrokeless : Token.IsStrokeless f.tokens
    · obtain rfl : ts = f.tokens := Except.ok.inj (hts.symm.trans (hscan hstrokeless))
      exact ⟨fun g hg => (hspells.drawn g hg).isLegible fun n _ => isFinite_of_mem_tokens, hstrokeless⟩
    · obtain ⟨e, he⟩ := Token.scanBehind_stroke hmade hmeets hstrokeless []
      rw [hbody, Token.scan, he] at hts
      cases hts
  · intro h
    have hspells :=
      isSpelled f (fun g hg => isSpellable (hf.writable g hg) (h.legible g hg)) .comparison f.one_le_precedence
    rw [parse_of_scan (hscan h.strokeless), ofTokens_eq_ok_iff.mpr ⟨_, hf.nesting, hf.height, hspells⟩]
    rfl

theorem isBlank_of_isAlphanum {c : Char} (h : c.isAlphanum = true) : Text.isBlank c = false :=
  forall_isAlphanum (p := fun c => Text.isBlank c = false) (by decide) h

theorem isBlank_of_isMade {t : Token} {c : Char} (ht : t.IsMade Token.IsNumeral) (hc : c ∈ t.chars.head?) :
    Text.isBlank c = false := by
  cases t with
  | number n =>
      have hdigit := ht.startsNumber c (List.mem_of_mem_head? hc)
      rw [Token.startsNumber, Bool.or_eq_true, beq_iff_eq] at hdigit
      rcases hdigit with hdigit | rfl
      · exact isBlank_of_isAlphanum (by simp [Char.isAlphanum, hdigit])
      · decide
  | text s =>
      have hquote : c = '"' := by simpa [Token.chars, quotedText] using hc.symm
      subst hquote
      decide
  | failure e =>
      obtain ⟨cs, hcs⟩ := Token.exists_marker ht
      rw [Token.chars, hcs] at hc
      cases hc
      decide
  | word s =>
      obtain ⟨d, cs, hcs, hd, -⟩ := ht
      rw [Token.chars, hcs] at hc
      cases hc
      simp only [Token.startsWord, Bool.or_eq_true, beq_iff_eq] at hd
      rcases hd with (hd | rfl) | rfl
      · exact isBlank_of_isAlphanum (by simp [Char.isAlphanum, hd])
      all_goals decide
  | operator o => cases o <;> cases hc <;> decide
  | _ =>
      cases hc
      decide

theorem body_text (hf : f.IsReading) : body f.text = f.text.toList := by
  obtain ⟨t, ts, hts⟩ := List.exists_cons_of_ne_nil (isRow_tokens f).ne_nil
  have ht : t.IsMade Token.IsNumeral := isMade_tokens hf.writable (by rw [hts]; exact List.mem_cons_self)
  obtain ⟨c, cs, hcs⟩ := Token.exists_chars ht
  have hblank : Text.isBlank c = false := isBlank_of_isMade ht (by rw [hcs]; rfl)
  have hoperand : t.isOperator = false := (isRow_tokens f).head t (by rw [hts]; rfl)
  have hequal : c ≠ '=' := (Token.ne_of_not_isOperator hoperand ht (by rw [hcs]; rfl)).1
  have htext : f.text.toList = c :: (cs ++ Token.spelled ts) := by
    rw [toList_text, hts, Token.spelled, List.flatMap_cons, hcs]
    rfl
  rw [body, htext, Text.trimStart, List.dropWhile_cons_of_neg (by simp [hblank])]
  split
  · next h =>
      cases h
      exact absurd rfl hequal
  · rfl

theorem isLegible_of_parse (h : parse s = .ok f) (hinfinity : .literal (.number Number.infinity) ∉ f.parts) :
    ∀ g ∈ f.parts, g.IsLegible := by
  have hf := isReading_of_parse h
  obtain ⟨ts, -, d, -, -, hspells⟩ := drawn_of_parse h
  refine fun g hg => (hspells.drawn g hg).isLegible ?_
  rintro n rfl -
  have hupright : Number.IsUpright n := hf.writable _ hg
  exact hupright.isFinite fun hn => hinfinity (hn ▸ hg)

theorem parse_text (h : parse s = .ok f) (hinfinity : .literal (.number Number.infinity) ∉ f.parts)
    (hstroke : ¬"#N/A/".toList <:+: f.text.toList) : parse f.text = .ok f := by
  have hf := isReading_of_parse h
  rw [parse_eq_ok_iff hf (body_text hf)]
  rw [toList_text] at hstroke
  exact ⟨isLegible_of_parse h hinfinity, Token.isStrokeless_of_spelled hstroke⟩

theorem parse_text_grouping :
    ∃ f, parse "= -(A1 - (b.c - $Z$7)) ^ 1.50 & \"a\"\"b\" <#REF! " = .ok f ∧
      f.text = "-(A1-(b.c-$Z$7))^1.5&\"a\"\"b\"<#REF!" ∧ parse f.text = .ok f := by
  have hscan : Token.scan (body "= -(A1 - (b.c - $Z$7)) ^ 1.50 & \"a\"\"b\" <#REF! ") =
      .ok [.minus, .opening, .word "A1", .minus, .opening, .word "b.c", .minus, .word "$Z$7", .closing, .closing,
        .operator .power, .number (Number.ofDecimal 150 (-2)), .operator .join, .text "a\"b", .operator .less,
        .failure .reference] := by decide +kernel
  have hread (n : Float) : ofTokens [.minus, .opening, .word "A1", .minus, .opening, .word "b.c", .minus,
      .word "$Z$7", .closing, .closing, .operator .power, .number n, .operator .join, .text "a\"b", .operator .less,
      .failure .reference] =
      .ok (.binary .less
        (.binary .join
          (.binary .power
            (.negate (.binary .subtract (.cell ⟨⟨0, 0⟩, false, false⟩)
              (.binary .subtract (.name "b.c") (.cell ⟨⟨6, 25⟩, true, true⟩))))
            (.literal (.number n)))
          (.literal (.text "a\"b")))
        (.failure .reference)) := by cbv
  have h := parse_of_scan hscan
  rw [hread] at h
  refine ⟨_, h, by decide +kernel, parse_text h ?_ (by decide +kernel)⟩
  have hfinite : Number.infinity ≠ Number.ofDecimal 150 (-2) := by decide +kernel
  simp [parts, hfinite]

end Formula

end LiveSheet
