import LiveSheet.Proofs.Formula.Grammar
import LiveSheet.Proofs.Formula.Scanning

namespace LiveSheet

def Operator.token : Operator → Token
  | .add => .plus
  | .subtract => .minus
  | o => .operator o

theorem Operator.operator?_token (o : Operator) : o.token.operator? = some o := by
  cases o <;> rfl

theorem Operator.chars_token (o : Operator) : o.token.chars = o.symbol.toList := by
  cases o <;> rfl

theorem Operator.isOperand_token (o : Operator) : o.token.isOperand = false := by
  cases o <;> rfl

namespace Formula

def enclosed (needed : Bool) (ts : List Token) : List Token := if needed then .opening :: ts ++ [.closing] else ts

mutual

/-- The tokens that a formula is printed as. A number that is not finite has none of its own, its text is a word. -/
def tokens : Formula → List Token
  | .literal (.number n) => if Number.isFinite n then [.number n] else [.word (Value.numberText n)]
  | .literal (.text s) => [.text s]
  | .literal .blank => [.text ""]
  | .literal (.truth b) => [.word (Value.truth b).display]
  | .failure e => [.failure e]
  | .cell a => [.word a.text]
  | .range a b => [.word a.text, .colon, .word b.text]
  | .rowCount => [.word rowCountName]
  | .name w => [.word w]
  | .negate f => .minus :: enclosed (f.precedence < 6) f.tokens
  | .binary o f g =>
      enclosed (f.precedence < o.precedence) f.tokens ++ o.token :: enclosed (g.precedence ≤ o.precedence) g.tokens
  | .call w fs => .word w :: .opening :: argumentsTokens fs ++ [.closing]

def argumentsTokens : List Formula → List Token
  | [] => []
  | [f] => f.tokens
  | f :: fs => f.tokens ++ .comma :: argumentsTokens fs

end

theorem toList_enclose {needed : Bool} {s : String} {ts : List Token} (h : s.toList = Token.spelled ts) :
    (enclose needed s).toList = Token.spelled (enclosed needed ts) := by
  cases needed with
  | false => exact h
  | true => simp [enclose, enclosed, h, Token.spelled, Token.chars]

mutual

theorem toList_text : ∀ f : Formula, f.text.toList = Token.spelled f.tokens
  | .literal (.number n) => by
      simp only [text, tokens]
      split <;> simp [Token.spelled, Token.chars, Value.display]
  | .literal (.text s) => by simp [text, tokens, Token.spelled, Token.chars]
  | .literal .blank => by simp [text, tokens, Token.spelled, Token.chars]
  | .literal (.truth b) => by simp [text, tokens, Token.spelled, Token.chars]
  | .failure e => by simp [text, tokens, Token.spelled, Token.chars]
  | .cell a => by simp [text, tokens, Token.spelled, Token.chars]
  | .range a b => by simp [text, tokens, Token.spelled, Token.chars]
  | .rowCount => by simp [text, tokens, Token.spelled, Token.chars]
  | .name w => by simp [text, tokens, Token.spelled, Token.chars]
  | .negate f => by
      rw [text, tokens, String.toList_append, toList_enclose (toList_text f)]
      rfl
  | .binary o f g => by
      rw [text, tokens, String.toList_append, String.toList_append, toList_enclose (toList_text f),
        toList_enclose (toList_text g), ← o.chars_token]
      simp [Token.spelled]
  | .call w fs => by
      simp [text, tokens, toList_argumentsText fs, Token.spelled, Token.chars]

theorem toList_argumentsText : ∀ fs : List Formula, (argumentsText fs).toList = Token.spelled (argumentsTokens fs)
  | [] => rfl
  | [f] => by rw [argumentsText, argumentsTokens, toList_text f]
  | f :: g :: fs => by
      simp [argumentsText, argumentsTokens, toList_text f, toList_argumentsText (g :: fs), Token.spelled, Token.chars]

end

end Formula

namespace Token

structure IsRow (ts : List Token) : Prop where
  ne_nil : ts ≠ []
  meets : ts.IsChain Meets
  head : ∀ t ∈ ts.head?, t.isOperator = false
  last : ∀ t ∈ ts.getLast?, t.isOperator = false

namespace IsRow

variable {t : Token} {ts us : List Token}

theorem single (ht : t.isOperator = false) : IsRow [t] where
  ne_nil := List.cons_ne_nil _ _
  meets := .singleton t
  head := by simpa using ht
  last := by simpa using ht

theorem cons (ht : t.isOperand = false) (hoperator : t.isOperator = false) (hts : IsRow ts) : IsRow (t :: ts) where
  ne_nil := List.cons_ne_nil _ _
  meets := hts.meets.cons fun u hu => ⟨by simp [ht], by simp [hoperator]⟩
  head := by simpa using hoperator
  last := by
    rw [List.getLast?_cons_of_ne_nil hts.ne_nil]
    exact hts.last

theorem append (hts : IsRow ts) (ht : t.isOperand = false) (hus : IsRow us) : IsRow (ts ++ t :: us) where
  ne_nil := by simp
  meets := hts.meets.append (hus.meets.cons fun u hu => ⟨by simp [ht], fun _ => hus.head u hu⟩)
    fun u hu v hv => ⟨fun _ => by cases hv; exact ht, by simp [hts.last u hu]⟩
  head := by
    rw [List.head?_append_of_ne_nil _ hts.ne_nil]
    exact hts.head
  last := by
    rw [List.getLast?_append_of_ne_nil _ (List.cons_ne_nil _ _), List.getLast?_cons_of_ne_nil hus.ne_nil]
    exact hus.last

theorem concat (hts : IsRow ts) (ht : t.isOperand = false) (hoperator : t.isOperator = false) : IsRow (ts ++ [t]) where
  ne_nil := by simp
  meets := hts.meets.append (.singleton t) fun u hu v hv =>
    ⟨fun _ => by cases hv; exact ht, by simp [hts.last u hu]⟩
  head := by
    rw [List.head?_append_of_ne_nil _ hts.ne_nil]
    exact hts.head
  last := by simpa using hoperator

theorem enclosed (hts : IsRow ts) (needed : Bool) : IsRow (Formula.enclosed needed ts) := by
  cases needed with
  | false => exact hts
  | true => exact (hts.concat rfl rfl).cons rfl rfl

end IsRow

end Token

namespace Formula

open Token (IsRow)

mutual

theorem isRow_tokens : ∀ f : Formula, IsRow f.tokens
  | .literal (.number n) => by
      simp only [tokens]
      split <;> exact .single rfl
  | .literal (.text s) => .single rfl
  | .literal .blank => .single rfl
  | .literal (.truth b) => .single rfl
  | .failure e => .single rfl
  | .cell a => .single rfl
  | .range a b => .append (.single rfl) rfl (.single rfl)
  | .rowCount => .single rfl
  | .name w => .single rfl
  | .negate f => ((isRow_tokens f).enclosed _).cons rfl rfl
  | .binary o f g => ((isRow_tokens f).enclosed _).append o.isOperand_token ((isRow_tokens g).enclosed _)
  | .call w [] => .concat (.concat (.single rfl) rfl rfl) rfl rfl
  | .call w (f :: fs) =>
      .concat (.append (.single rfl) rfl (isRow_argumentsTokens (f :: fs) (List.cons_ne_nil _ _))) rfl rfl

theorem isRow_argumentsTokens : ∀ fs : List Formula, fs ≠ [] → IsRow (argumentsTokens fs)
  | [], h => absurd rfl h
  | [f], _ => isRow_tokens f
  | f :: g :: fs, _ => (isRow_tokens f).append rfl (isRow_argumentsTokens (g :: fs) (List.cons_ne_nil _ _))

end

mutual

def parts : Formula → List Formula
  | .negate f => .negate f :: f.parts
  | .binary o f g => .binary o f g :: (f.parts ++ g.parts)
  | .call w fs => .call w fs :: allParts fs
  | f => [f]

def allParts : List Formula → List Formula
  | [] => []
  | f :: fs => f.parts ++ allParts fs

end

mutual

def nesting : Formula → Nat
  | .negate f => f.nesting + (if f.precedence < 6 then 1 else 0) + 1
  | .binary o f g =>
      max (f.nesting + (if f.precedence < o.precedence then 1 else 0))
        (g.nesting + (if g.precedence ≤ o.precedence then 1 else 0) + 1)
  | .call _ fs => argumentsNesting fs
  | _ => 0

def argumentsNesting : List Formula → Nat
  | [] => 0
  | f :: fs => max (f.nesting + 1) (argumentsNesting fs)

end

def IsSpellable : Formula → Prop
  | .literal (.number n) => Number.isFinite n = true
  | .literal .blank => False
  | .cell a => a.IsNear
  | .range a b => a.IsNear ∧ b.IsNear
  | .name w => IsName w
  | .call w _ => Text.upperAscii w = w
  | _ => True

theorem one_le_precedence (f : Formula) : 1 ≤ f.precedence := by
  cases f with
  | binary o => exact o.one_le_precedence
  | _ => simp [precedence]

def IsSpelled (f : Formula) : Prop := ∀ s : Stratum, s.rank ≤ f.precedence → Spells f.nesting (.stratum s f) f.tokens

variable {f : Formula}

theorem IsSpelled.enclosed (h : f.IsSpelled) (s : Stratum) {needed : Prop} [Decidable needed]
    (hneeded : needed ↔ f.precedence < s.rank) :
    Spells (f.nesting + (if needed then 1 else 0)) (.stratum s f) (Formula.enclosed needed f.tokens) := by
  by_cases hp : needed
  · have hinner := (h .comparison f.one_le_precedence).enclosed
    simpa [Formula.enclosed, hp] using hinner.primary.loosen s.rank_le
  · simpa [Formula.enclosed, hp] using h s (Nat.not_lt.mp (hp ∘ hneeded.mpr))

theorem IsSpelled.of_primary (h : Spells f.nesting (.primary f) f.tokens) : f.IsSpelled :=
  fun s _ => h.primary.loosen s.rank_le

mutual

theorem isSpelled : ∀ f : Formula, (∀ g ∈ f.parts, g.IsSpellable) → f.IsSpelled
  | .literal (.number n), h => by
      have hn : Number.isFinite n = true := h _ List.mem_cons_self
      refine .of_primary ?_
      rw [tokens, if_pos hn]
      exact .number n
  | .literal (.text s), _ => .of_primary (.text s)
  | .literal .blank, h => (h _ List.mem_cons_self).elim
  | .literal (.truth b), _ => .of_primary (.truth b (by cases b <;> decide +kernel))
  | .failure e, _ => .of_primary (.failure e)
  | .cell a, h => .of_primary (.cell (Address.ofWord?_text (h _ List.mem_cons_self)))
  | .range a b, h =>
      have hnear : a.IsNear ∧ b.IsNear := h _ List.mem_cons_self
      .of_primary (.range (Address.ofWord?_text hnear.1) (Address.ofWord?_text hnear.2))
  | .rowCount, _ => .of_primary (.rowCount (by decide +kernel))
  | .name w, h => .of_primary (.name (h _ List.mem_cons_self))
  | .negate f, h => by
      have hf : f.IsSpelled := isSpelled f fun g hg => h g (List.mem_cons_of_mem _ hg)
      intro s hs
      exact (hf.enclosed .sign Iff.rfl).minus.loosen hs
  | .binary o f g, h => by
      have hf : f.IsSpelled := isSpelled f fun x hx => h x (by simp [parts, hx])
      have hg : g.IsSpelled := isSpelled g fun x hx => h x (by simp [parts, hx])
      obtain ⟨s, t, hst, ho⟩ := Stratum.exists_of_operator o
      have hprecedence := Stratum.mem_operators.mp ho
      have hrank := Stratum.rank_tighter hst
      intro u hu
      have hu : u.rank ≤ o.precedence := hu
      refine Spells.loosen ?_ (hprecedence ▸ hu)
      exact .binary hst ho o.operator?_token (hf.enclosed s (by rw [hprecedence])) (hg.enclosed t (by omega))
  | .call w fs, h => by
      have hw : Text.upperAscii w = w := h _ List.mem_cons_self
      have hfs := spells_argumentsTokens fs fun g hg => h g (List.mem_cons_of_mem _ hg)
      have hcall := hfs.call (w := w)
      rw [hw] at hcall
      exact .of_primary hcall

theorem spells_argumentsTokens : ∀ fs : List Formula, (∀ g ∈ allParts fs, g.IsSpellable) →
    Spells (argumentsNesting fs) (.arguments fs) (argumentsTokens fs)
  | [], _ => .noArgument
  | [f], h => by
      have hf : f.IsSpelled := isSpelled f fun g hg => h g (by simp [allParts, hg])
      simpa [argumentsNesting, argumentsTokens] using (hf .comparison f.one_le_precedence).lastArgument
  | f :: g :: fs, h => by
      have hf : f.IsSpelled := isSpelled f fun x hx => h x (by simp [allParts, hx])
      have hfs := spells_argumentsTokens (g :: fs) fun x hx => h x (List.mem_append_right _ hx)
      exact (hf .comparison f.one_le_precedence).argument hfs

end

end Formula

def Phrase.nesting : Phrase → Nat
  | .stratum s f => f.nesting + (if f.precedence < s.rank then 1 else 0)
  | .primary f => f.nesting + (if f.precedence ≤ 6 then 1 else 0)
  | .arguments fs => Formula.argumentsNesting fs

theorem Spells.nesting_le {d : Nat} {p : Phrase} {ts : List Token} (h : Spells d p ts) : p.nesting ≤ d := by
  have hcomparison : Stratum.comparison.rank = 1 := rfl
  have hsign : Stratum.sign.rank = 6 := rfl
  induction h with
  | @tighter s t f d ts hst _ ih =>
      have hrank := Stratum.rank_tighter hst
      simp only [Phrase.nesting] at ih ⊢
      split at ih <;> split <;> omega
  | @binary s t o token f g d e ts us hst ho _ _ _ ihleft ihright =>
      have hrank := Stratum.rank_tighter hst
      have hprecedence := Stratum.mem_operators.mp ho
      have hself : ¬(Formula.binary o f g).precedence < s.rank := Nat.not_lt.mpr (Nat.le_of_eq hprecedence.symm)
      have hright : g.precedence ≤ s.rank ↔ g.precedence < t.rank := by omega
      have hnesting : (Formula.binary o f g).nesting = max (f.nesting + if f.precedence < s.rank then 1 else 0)
          (g.nesting + (if g.precedence < t.rank then 1 else 0) + 1) := by
        simp only [Formula.nesting, hprecedence, hright]
      simp only [Phrase.nesting, hself, if_false, hnesting] at ihleft ihright ⊢
      omega
  | @minus f d ts _ ih =>
      have hself : ¬(Formula.negate f).precedence < Stratum.sign.rank := Nat.lt_irrefl 6
      simp only [Phrase.nesting, Formula.nesting, hself, if_false] at ih ⊢
      split at ih <;> split <;> omega
  | plus _ ih => exact Nat.le_succ_of_le ih
  | @primary f d ts _ ih =>
      simp only [Phrase.nesting] at ih ⊢
      split at ih <;> split <;> omega
  | number | text | failure | cell | range | truth | rowCount | name => exact Nat.le_refl 0
  | @enclosed f d ts _ ih =>
      simp only [Phrase.nesting] at ih ⊢
      split at ih <;> split <;> omega
  | call _ ih => exact ih
  | noArgument => exact Nat.le_refl 0
  | @lastArgument f d ts _ ih =>
      simp only [Phrase.nesting, Formula.argumentsNesting] at ih ⊢
      omega
  | @argument f g fs d e ts us _ _ ih ihmore =>
      simp only [Phrase.nesting, Formula.argumentsNesting] at ih ihmore ⊢
      omega

end LiveSheet
