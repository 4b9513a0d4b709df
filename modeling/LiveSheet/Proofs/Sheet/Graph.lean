import LiveSheet.Proofs.Sheet.History

namespace LiveSheet

theorem Formula.references_eq_ok_iff {limit : Nat} {f : Formula} {cells : List Cell} :
    f.references limit = .ok cells ↔ (f.tally? limit 0).isSome = true ∧ cells = f.cells := by
  unfold references
  cases f.tally? limit 0 <;> simp [eq_comm]

theorem Entry.ofFormulaText_eq_ok_iff {text : String} {f : Formula} : ofFormulaText text = .formula text (.ok f) ↔
    Formula.parse text = .ok f ∧ f.references rangeLimit = .ok f.cells := by
  unfold ofFormulaText
  cases Formula.parse text with
  | error e => simp [bind, Except.bind]
  | ok g =>
      cases hg : g.references rangeLimit with
      | error e =>
          simp only [bind, Except.bind, hg, formula.injEq, reduceCtorEq, and_false, Except.ok.injEq, false_iff, not_and]
          rintro rfl hf
          rw [hg] at hf
          cases hf
      | ok cells =>
          have hcells := (Formula.references_eq_ok_iff.mp hg).2
          simp only [bind, Except.bind, hg, pure, Except.pure, formula.injEq, Except.ok.injEq, true_and]
          refine ⟨?_, And.left⟩
          rintro rfl
          exact ⟨rfl, hcells ▸ hg⟩

namespace Sheet

def Expresses (s : Sheet) (c : Cell) (f : Formula) (cells : List Cell) : Prop :=
  ∃ text, s.formulaText? c = some text ∧ Formula.parse text = .ok f ∧ f.references Entry.rangeLimit = .ok cells

variable {s : Sheet} {c : Cell}

theorem formulaText?_eq_some_iff {text : String} :
    s.formulaText? c = some text ↔ ∃ reading, s.entries[c]? = some (.formula text reading) := by
  unfold formulaText?
  cases s.entries[c]? with
  | none => simp
  | some e => cases e <;> simp

theorem Linked.expresses_iff (h : Linked s) {f : Formula} {cells : List Cell} :
    s.Expresses c f cells ↔ cells = f.cells ∧ ∃ text, s.entries[c]? = some (.formula text (.ok f)) := by
  constructor
  · rintro ⟨text, ht, hf, hcells⟩
    obtain ⟨reading, he⟩ := formulaText?_eq_some_iff.mp ht
    obtain rfl := (Formula.references_eq_ok_iff.mp hcells).2
    refine ⟨rfl, text, ?_⟩
    rw [he, ← h.parsed c text reading he, Entry.ofFormulaText_eq_ok_iff.mpr ⟨hf, hcells⟩]
  · rintro ⟨rfl, text, he⟩
    exact ⟨text, formulaText?_eq_some_iff.mpr ⟨_, he⟩, Entry.ofFormulaText_eq_ok_iff.mp (h.parsed c text _ he)⟩

theorem Linked.mem_precedents_iff (h : Linked s) {p : Cell} :
    p ∈ s.graph.precedents c ↔ ∃ f cells, s.Expresses c f cells ∧ p ∈ cells := by
  rw [h.precedents]
  constructor
  · intro hp
    obtain ⟨text, f, he, hf⟩ := Entries.exists_formula_of_reads hp
    exact ⟨f, f.cells, h.expresses_iff.mpr ⟨rfl, text, he⟩, hf⟩
  · rintro ⟨f, cells, hf, hp⟩
    obtain ⟨rfl, text, he⟩ := h.expresses_iff.mp hf
    exact ⟨_, he, hp⟩

theorem Linked.mem_rowCountReaders_iff (h : Linked s) :
    c ∈ s.rowCountReaders ↔ ∃ f cells, s.Expresses c f cells ∧ f.usesRowCount = true := by
  rw [h.counted]
  constructor
  · rintro ⟨e, he, hrows⟩
    match e, he, hrows with
    | .formula text (.ok f), he, hrows => exact ⟨f, f.cells, h.expresses_iff.mpr ⟨rfl, text, he⟩, hrows⟩
  · rintro ⟨f, cells, hf, hrows⟩
    obtain ⟨-, text, he⟩ := h.expresses_iff.mp hf
    exact ⟨_, he, hrows⟩

theorem Linked.precedents_eq_empty (h : Linked s) (hc : ¬s.isFormula c = true) : s.graph.precedents c = ∅ := by
  apply Std.ExtTreeSet.eq_empty_iff_forall_not_mem.mpr
  intro p hp
  obtain ⟨text, f, he, -⟩ := Entries.exists_formula_of_reads ((h.precedents c p).mp hp)
  exact hc (isFormula_iff.mpr ⟨text, _, he⟩)

theorem Linked.precedents_of_input (h : Linked s) {n : Node} (hn : s.graph.node? c = some n) (hrole : n.role = .input) :
    n.precedents = ∅ := by
  have hc : ¬s.graph.HoldsFormula c := by
    rintro ⟨formula, hformula, hrole'⟩
    cases hn.symm.trans hformula
    cases hrole.symm.trans hrole'
  simpa [Graph.precedents, hn] using h.precedents_eq_empty (mt (h.holdsFormula c).mpr hc)

theorem Linked.freshness_of_node (h : Linked s) {n : Node} (hn : s.graph.node? c = some n) : n.freshness = .fresh :=
  Graph.rested_iff.mp h.rested c n hn

/-- Roles, edges, readers of the row count and results follow the formulas, and a recalculation leaves nothing to do. -/
theorem graph_reflects_formulas (history : List Operation) :
    let s := after history
    (∀ c, s.graph.HoldsFormula c ↔ s.isFormula c = true) ∧
      (∀ c p, p ∈ s.graph.precedents c ↔ ∃ f cells, s.Expresses c f cells ∧ p ∈ cells) ∧
      (∀ c n, s.graph.node? c = some n → n.role = .input → n.precedents = ∅) ∧
      (∀ c, c ∈ s.rowCountReaders ↔ ∃ f cells, s.Expresses c f cells ∧ f.usesRowCount = true) ∧
      (∀ c : Cell, s.results[c]?.isSome = true → s.isFormula c = true) ∧
      ∀ visit, let t := (s.recalculate visit).1
        t.pending = ∅ ∧ (∀ c : Cell, t.isFormula c = true → t.results[c]?.isSome = true) ∧
          ∀ c n, t.graph.node? c = some n → n.freshness = .fresh := by
  intro s
  have h : Sound s := (keeps_after history).sound
  refine ⟨h.holdsFormula, fun c p => h.mem_precedents_iff, fun c n => h.precedents_of_input,
    fun c => h.mem_rowCountReaders_iff, h.results, fun visit => ?_⟩
  intro t
  have ht : Settled t := settled_recalculate h visit
  refine ⟨ht.pending, fun c hc => ht.computed c hc ?_, fun c n => ht.freshness_of_node⟩
  rw [ht.pending]
  simp

end Sheet

end LiveSheet
