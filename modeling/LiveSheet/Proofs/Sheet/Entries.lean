import LiveSheet.Proofs.Formula.Evaluation
import LiveSheet.Proofs.Graph.Cycle
import LiveSheet.Sheet.Sheet

namespace LiveSheet

namespace Entry

def SpellsCycle : Entry → Prop
  | .formula _ (.ok f) => .cycle ∈ f.failures
  | _ => False

instance (e : Entry) : Decidable e.SpellsCycle :=
  match e with
  | .formula _ (.ok f) => inferInstanceAs (Decidable (.cycle ∈ f.failures))
  | .formula _ (.error _) => inferInstanceAs (Decidable False)
  | .literal _ => inferInstanceAs (Decidable False)

inductive Alike : Entry → Entry → Prop
  | literal {v w : Value} (h : Value.Alike v w) : Alike (.literal v) (.literal w)
  | formula (text : String) (reading : Except CellError Formula) :
      Alike (.formula text reading) (.formula text reading)

variable {e e' : Entry}

theorem alike_refl (e : Entry) : Alike e e := by
  cases e with
  | literal v => exact .literal (.refl v)
  | formula text reading => exact .formula text reading

theorem Alike.symm (h : Alike e e') : Alike e' e := by
  cases h with
  | literal h => exact .literal h.symm
  | formula text reading => exact .formula text reading

theorem Alike.trans {e'' : Entry} (h : Alike e e') (k : Alike e' e'') : Alike e e'' := by
  cases h with
  | literal h =>
      cases k with
      | literal k => exact .literal (h.trans k)
  | formula => exact k

theorem rel_refl (x : Option Entry) : Option.Rel Alike x x := by
  cases x with
  | none => exact .none
  | some e => exact .some (alike_refl e)

theorem rel_symm {x y : Option Entry} (h : Option.Rel Alike x y) : Option.Rel Alike y x := by
  cases h with
  | none => exact .none
  | some h => exact .some h.symm

theorem rel_trans {x y z : Option Entry} (h : Option.Rel Alike x y) (k : Option.Rel Alike y z) :
    Option.Rel Alike x z := by
  cases h with
  | none => exact k
  | some h =>
      cases k with
      | some k => exact .some (h.trans k)

theorem precedents_alike (h : Alike e e') : e.precedents = e'.precedents := by cases h <;> rfl

theorem spellsCycle_alike (h : Alike e e') : e.SpellsCycle ↔ e'.SpellsCycle := by cases h <;> rfl

theorem exists_alike {x y : Option Entry} {P : Entry → Prop} (h : Option.Rel Alike x y)
    (hP : ∀ e e', Alike e e' → (P e ↔ P e')) : (∃ e, x = some e ∧ P e) ↔ ∃ e, y = some e ∧ P e := by
  cases h with
  | none => simp
  | some h => simp [hP _ _ h]

theorem ofFormulaText_eq (text : String) : ∃ reading, ofFormulaText text = .formula text reading := ⟨_, rfl⟩

theorem reading_ne_cycle {text : String} {reading : Except CellError Formula}
    (h : ofFormulaText text = .formula text reading) : reading ≠ .error .cycle := by
  unfold ofFormulaText at h
  injection h with _ h
  subst h
  intro hc
  unfold Formula.parse at hc
  cases hf : Formula.read text with
  | error e => simp [hf, bind, Except.bind] at hc
  | ok f =>
      simp only [hf, bind, Except.bind, Formula.references] at hc
      cases ht : f.tally? rangeLimit 0 <;> simp [ht, pure, Except.pure] at hc

end Entry

namespace Entries

variable (m m' : CellMap Entry)

def Reads (c d : Cell) : Prop := ∃ e, m[c]? = some e ∧ d ∈ e.precedents

instance (c d : Cell) : Decidable (Reads m c d) :=
  decidable_of_iff (m[c]?.any fun e => d ∈ e.precedents) <| by
    unfold Reads
    cases m[c]? <;> simp

def OnCycle (c : Cell) : Prop := Relation.TransGen (Reads m) c c

def Entangled (c : Cell) : Prop := ∃ d, Relation.ReflTransGen (Reads m) c d ∧ OnCycle m d

/-- The cell or one that it leads to holds a formula that spells out the error of a cycle. -/
def Spelled (c : Cell) : Prop :=
  ∃ d e, Relation.ReflTransGen (Reads m) c d ∧ m[d]? = some e ∧ e.SpellsCycle

def Alike : Prop := ∀ c : Cell, Option.Rel Entry.Alike m[c]? m'[c]?

def AlikeBelow (c : Cell) : Prop :=
  ∀ d, Relation.ReflTransGen (Reads m) c d → Option.Rel Entry.Alike m[d]? m'[d]?

variable {m m'} {c d : Cell}

theorem exists_formula_of_reads (h : Reads m c d) :
    ∃ text f, m[c]? = some (.formula text (.ok f)) ∧ d ∈ f.cells := by
  obtain ⟨e, he, hd⟩ := h
  match e, hd with
  | .formula text (.ok f), hd => exact ⟨text, f, he, hd⟩

theorem mem_keys_of_reads (h : Reads m c d) : c ∈ m.keys := by
  obtain ⟨e, he, -⟩ := h
  rw [Std.ExtTreeMap.mem_keys, Std.ExtTreeMap.mem_iff_isSome_getElem?, he]
  rfl

theorem reads_alike (h : Option.Rel Entry.Alike m[c]? m'[c]?) : Reads m c d ↔ Reads m' c d :=
  Entry.exists_alike h fun _ _ he => by rw [Entry.precedents_alike he]

theorem Alike.symm (h : Entries.Alike m m') : Entries.Alike m' m := fun c => Entry.rel_symm (h c)

theorem Alike.trans {m'' : CellMap Entry} (h : Entries.Alike m m') (k : Entries.Alike m' m'') :
    Entries.Alike m m'' :=
  fun c => Entry.rel_trans (h c) (k c)

theorem Alike.reads_eq (h : Entries.Alike m m') : Reads m = Reads m' := by
  funext c d
  exact propext (reads_alike (h c))

theorem Alike.below (h : Entries.Alike m m') (c : Cell) : AlikeBelow m m' c := fun d _ => h d

theorem entangled_of_onCycle (h : OnCycle m c) : Entangled m c := ⟨c, .refl, h⟩

theorem entangled_of_reads (h : Reads m c d) (hd : Entangled m d) : Entangled m c := by
  obtain ⟨x, hx, hcycle⟩ := hd
  exact ⟨x, .head h hx, hcycle⟩

theorem spelled_of_reads (h : Reads m c d) (hd : Spelled m d) : Spelled m c := by
  obtain ⟨x, e, hx, he, hspells⟩ := hd
  exact ⟨x, e, .head h hx, he, hspells⟩

theorem not_entangled_of_rank (rank : Cell → Nat)
    (h : ∀ p ∈ m.toList, ∀ d ∈ p.2.precedents, rank d < rank p.1) (c : Cell) : ¬Entangled m c := by
  have hreads {a b : Cell} (hab : Reads m a b) : rank b < rank a := by
    obtain ⟨e, he, hb⟩ := hab
    exact h (a, e) (Std.ExtTreeMap.mem_toList_iff_getElem?_eq_some.mpr he) b hb
  rintro ⟨d, -, hd⟩
  have hlt {a b : Cell} (hab : Relation.TransGen (Reads m) a b) : rank b < rank a := by
    induction hab with
    | single hab => exact hreads hab
    | tail _ hbc ih => exact Nat.lt_trans (hreads hbc) ih
  exact Nat.lt_irrefl _ (hlt hd)

theorem closed_of_reaches {P : Cell → Prop} (h : ∀ p ∈ m.toList, P p.1 → ∀ d ∈ p.2.precedents, P d) (hc : P c)
    (hcd : Relation.ReflTransGen (Reads m) c d) : P d := by
  induction hcd with
  | refl => exact hc
  | tail _ hab ih =>
      obtain ⟨e, he, hb⟩ := hab
      exact h (_, e) (Std.ExtTreeMap.mem_toList_iff_getElem?_eq_some.mpr he) ih _ hb

theorem not_spelled_of_all (h : ∀ p ∈ m.toList, ¬p.2.SpellsCycle) (c : Cell) : ¬Spelled m c := by
  rintro ⟨d, e, -, he, hspells⟩
  exact h (d, e) (Std.ExtTreeMap.mem_toList_iff_getElem?_eq_some.mpr he) hspells

namespace AlikeBelow

variable (h : AlikeBelow m m' c)

include h

theorem below (hcd : Relation.ReflTransGen (Reads m) c d) : AlikeBelow m m' d :=
  fun x hdx => h x (hcd.trans hdx)

theorem reaches_iff : Relation.ReflTransGen (Reads m) c d ↔ Relation.ReflTransGen (Reads m') c d := by
  constructor
  · intro hcd
    induction hcd with
    | refl => exact .refl
    | tail hca hab ih => exact ih.tail ((reads_alike (h _ hca)).mp hab)
  · intro hcd
    induction hcd with
    | refl => exact .refl
    | tail _ hab ih => exact ih.tail ((reads_alike (h _ ih)).mpr hab)

theorem onCycle_iff : OnCycle m c ↔ OnCycle m' c := by
  unfold OnCycle
  rw [Relation.TransGen.tail'_iff, Relation.TransGen.tail'_iff]
  constructor
  · rintro ⟨d, hcd, hdc⟩
    exact ⟨d, h.reaches_iff.mp hcd, (reads_alike (h d hcd)).mp hdc⟩
  · rintro ⟨d, hcd, hdc⟩
    have hcd := h.reaches_iff.mpr hcd
    exact ⟨d, hcd, (reads_alike (h d hcd)).mpr hdc⟩

theorem entangled_iff : Entangled m c ↔ Entangled m' c := by
  constructor
  · rintro ⟨d, hcd, hcycle⟩
    exact ⟨d, h.reaches_iff.mp hcd, (h.below hcd).onCycle_iff.mp hcycle⟩
  · rintro ⟨d, hcd, hcycle⟩
    have hcd := h.reaches_iff.mpr hcd
    exact ⟨d, hcd, (h.below hcd).onCycle_iff.mpr hcycle⟩

theorem spelled_iff : Spelled m c ↔ Spelled m' c := by
  have hsame (d : Cell) (hcd : Relation.ReflTransGen (Reads m) c d) :
      (∃ e, m[d]? = some e ∧ e.SpellsCycle) ↔ ∃ e, m'[d]? = some e ∧ e.SpellsCycle :=
    Entry.exists_alike (h d hcd) fun _ _ he => Entry.spellsCycle_alike he
  constructor
  · rintro ⟨d, e, hcd, hde⟩
    obtain ⟨e', hde'⟩ := (hsame d hcd).mp ⟨e, hde⟩
    exact ⟨d, e', h.reaches_iff.mp hcd, hde'⟩
  · rintro ⟨d, e, hcd, hde⟩
    have hcd := h.reaches_iff.mpr hcd
    obtain ⟨e', hde'⟩ := (hsame d hcd).mpr ⟨e, hde⟩
    exact ⟨d, e', hcd, hde'⟩

end AlikeBelow

theorem induction_on_reads {motive : Cell → Prop} (hc : ¬Entangled m c)
    (step : ∀ c, ¬Entangled m c → (∀ d, Reads m c d → motive d) → motive c) : motive c := by
  classical
  by_contra hmotive
  have hnext (x : Cell) (hx : ¬Entangled m x) (hxm : ¬motive x) :
      x ∈ m.keys ∧ ∃ d, Reads m x d ∧ ¬Entangled m d ∧ ¬motive d := by
    have hd : ∃ d, Reads m x d ∧ ¬motive d := by
      by_contra h
      push Not at h
      exact hxm (step x hx h)
    obtain ⟨d, hxd, hdm⟩ := hd
    exact ⟨mem_keys_of_reads hxd, d, hxd, fun h => hx (entangled_of_reads hxd h), hdm⟩
  let failing := m.keys.filter fun x => ¬Entangled m x ∧ ¬motive x
  have hmem (x : Cell) (hx : ¬Entangled m x) (hxm : ¬motive x) : x ∈ failing := by
    simpa [failing, hx, hxm] using (hnext x hx hxm).1
  have hstuck : ∀ x ∈ failing, ∃ d ∈ failing, Reads m x d := by
    intro x hx
    obtain ⟨hx, hxm⟩ : ¬Entangled m x ∧ ¬motive x := by simpa using (List.mem_filter.mp hx).2
    obtain ⟨-, d, hxd, hd, hdm⟩ := hnext x hx hxm
    exact ⟨d, hmem d hd hdm, hxd⟩
  obtain ⟨d, -, hcd, hcycle⟩ := exists_cycle_of_stuck hstuck (hmem c hc hmotive)
  exact hc ⟨d, hcd, hcycle⟩

end Entries

end LiveSheet
