import LiveSheet.Formula.Parser

/-!
The grammar of formulas. A list of tokens spells a formula in one of six strata of operators, from the comparisons
at the loose end to the signs; the depth of a spelling counts how far its parentheses, signs, arguments and right
operands nest, and restricts nothing.
-/

namespace LiveSheet

theorem Operator.one_le_precedence (o : Operator) : 1 ≤ o.precedence := by
  cases o <;> decide

inductive Stratum where
  | comparison
  | joining
  | additive
  | term
  | power
  | sign
  deriving DecidableEq, Repr

namespace Stratum

def operators : Stratum → List Operator
  | .comparison => [.equal, .unequal, .less, .atMost, .greater, .atLeast]
  | .joining => [.join]
  | .additive => [.add, .subtract]
  | .term => [.multiply, .divide]
  | .power => [.power]
  | .sign => []

def tighter? : Stratum → Option Stratum
  | .comparison => some .joining
  | .joining => some .additive
  | .additive => some .term
  | .term => some .power
  | .power => some .sign
  | .sign => none

def rank : Stratum → Nat
  | .comparison => 1
  | .joining => 2
  | .additive => 3
  | .term => 4
  | .power => 5
  | .sign => 6

variable {s t : Stratum} {o : Operator}

theorem mem_operators : o ∈ s.operators ↔ o.precedence = s.rank := by
  cases s <;> cases o <;> decide

theorem rank_tighter (h : s.tighter? = some t) : t.rank = s.rank + 1 := by
  cases s <;> cases h <;> rfl

theorem rank_le : s.rank ≤ 6 := by
  cases s <;> decide

theorem eq_sign (h : s.tighter? = none) : s = .sign := by
  cases s <;> cases h
  rfl

theorem rank_injective (h : s.rank = t.rank) : s = t := by
  cases s <;> cases t <;> first | rfl | cases h

theorem exists_tighter (h : s.rank < t.rank) : ∃ u, s.tighter? = some u ∧ u.rank ≤ t.rank := by
  cases hs : s.tighter? with
  | none =>
      rw [eq_sign hs] at h
      exact absurd t.rank_le (Nat.not_le.mpr h)
  | some u => exact ⟨u, rfl, by rw [rank_tighter hs]; exact h⟩

theorem exists_of_operator (o : Operator) : ∃ s t : Stratum, s.tighter? = some t ∧ o ∈ s.operators := by
  cases o with
  | equal | unequal | less | atMost | greater | atLeast => exact ⟨.comparison, .joining, rfl, by decide⟩
  | join => exact ⟨.joining, .additive, rfl, by decide⟩
  | add | subtract => exact ⟨.additive, .term, rfl, by decide⟩
  | multiply | divide => exact ⟨.term, .power, rfl, by decide⟩
  | power => exact ⟨.power, .sign, rfl, by decide⟩

end Stratum

structure IsName (w : String) : Prop where
  noAddress : Address.ofWord? w = none
  noAnchor : '$' ∉ w.toList
  noTruth : Text.upperAscii w ≠ "TRUE"
  noFalsehood : Text.upperAscii w ≠ "FALSE"
  noRowCount : Text.upperAscii w ≠ rowCountName

inductive Phrase where
  | stratum (s : Stratum) (f : Formula)
  | primary (f : Formula)
  | arguments (fs : List Formula)

/-- `Spells d p ts`: the tokens `ts` spell the phrase `p`, nested `d` deep. -/
inductive Spells : Nat → Phrase → List Token → Prop where
  | tighter {s t : Stratum} {f : Formula} {d : Nat} {ts : List Token} : s.tighter? = some t →
      Spells d (.stratum t f) ts → Spells d (.stratum s f) ts
  | binary {s t : Stratum} {o : Operator} {token : Token} {f g : Formula} {d e : Nat} {ts us : List Token} :
      s.tighter? = some t → o ∈ s.operators → token.operator? = some o → Spells d (.stratum s f) ts →
      Spells e (.stratum t g) us → Spells (max d (e + 1)) (.stratum s (.binary o f g)) (ts ++ token :: us)
  | minus {f : Formula} {d : Nat} {ts : List Token} : Spells d (.stratum .sign f) ts →
      Spells (d + 1) (.stratum .sign (.negate f)) (.minus :: ts)
  | plus {f : Formula} {d : Nat} {ts : List Token} : Spells d (.stratum .sign f) ts →
      Spells (d + 1) (.stratum .sign f) (.plus :: ts)
  | primary {f : Formula} {d : Nat} {ts : List Token} : Spells d (.primary f) ts → Spells d (.stratum .sign f) ts
  | number (n : Float) : Spells 0 (.primary (.literal (.number n))) [.number n]
  | text (s : String) : Spells 0 (.primary (.literal (.text s))) [.text s]
  | failure (e : CellError) : Spells 0 (.primary (.failure e)) [.failure e]
  | cell {w : String} {a : Address} : Address.ofWord? w = some a → Spells 0 (.primary (.cell a)) [.word w]
  | range {v w : String} {a b : Address} : Address.ofWord? v = some a → Address.ofWord? w = some b →
      Spells 0 (.primary (.range a b)) [.word v, .colon, .word w]
  | truth {w : String} (b : Bool) : Text.upperAscii w = (if b then "TRUE" else "FALSE") →
      Spells 0 (.primary (.literal (.truth b))) [.word w]
  | rowCount {w : String} : Text.upperAscii w = rowCountName → Spells 0 (.primary .rowCount) [.word w]
  | name {w : String} : IsName w → Spells 0 (.primary (.name w)) [.word w]
  | enclosed {f : Formula} {d : Nat} {ts : List Token} : Spells d (.stratum .comparison f) ts →
      Spells (d + 1) (.primary f) (.opening :: ts ++ [.closing])
  | call {w : String} {fs : List Formula} {d : Nat} {ts : List Token} : Spells d (.arguments fs) ts →
      Spells d (.primary (.call (Text.upperAscii w) fs)) (.word w :: .opening :: ts ++ [.closing])
  | noArgument : Spells 0 (.arguments []) []
  | lastArgument {f : Formula} {d : Nat} {ts : List Token} : Spells d (.stratum .comparison f) ts →
      Spells (d + 1) (.arguments [f]) ts
  | argument {f g : Formula} {fs : List Formula} {d e : Nat} {ts us : List Token} :
      Spells d (.stratum .comparison f) ts → Spells e (.arguments (g :: fs)) us →
      Spells (max (d + 1) e) (.arguments (f :: g :: fs)) (ts ++ .comma :: us)

namespace Spells

theorem loosen {s t : Stratum} {f : Formula} {d : Nat} {ts : List Token} (h : Spells d (.stratum t f) ts)
    (hst : s.rank ≤ t.rank) : Spells d (.stratum s f) ts := by
  by_cases heq : s.rank = t.rank
  · rwa [Stratum.rank_injective heq]
  · obtain ⟨u, hu, hut⟩ := Stratum.exists_tighter (Nat.lt_of_le_of_ne hst heq)
    have : s.rank < u.rank := by rw [Stratum.rank_tighter hu]; exact Nat.lt_succ_self _
    exact .tighter hu (h.loosen hut)
termination_by t.rank - s.rank

end Spells

def Formula.SpelledBy (f : Formula) (ts : List Token) : Prop := ∃ d, Spells d (.stratum .comparison f) ts

end LiveSheet
