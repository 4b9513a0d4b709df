import LiveSheet.Proofs.Graph.Marks
import LiveSheet.Proofs.Sheet.Entries

/-!
What holds of a sheet between any two operations. The edges are those of the entries, and each result can be
trusted as far as the pending cells allow: the result of a formula that is not pending, and below which
nothing waits that its readers did not see, is the one it would have now, or marks a cycle that a cell below
it marks too.
-/

namespace LiveSheet

theorem Sheet.compute_alike {s t : Sheet} (text : String) {reading : Except CellError Formula}
    (hcells : ∀ p ∈ (Entry.formula text reading).precedents, Outcome.Alike (s.value p) (t.value p))
    (hrows : (Entry.formula text reading).readsRowCount = true → s.rowCount = t.rowCount) :
    Outcome.Alike (Sheet.Run.compute s reading) (Sheet.Run.compute t reading) := by
  cases reading with
  | error e => exact .error trivial
  | ok f =>
      have h : Outcome.Alike (f.valueIn s.grid) (f.valueIn t.grid) := Formula.valueIn_alike hcells hrows
      exact h.map fun _ _ hv => Value.promoted_alike hv

namespace Sheet

structure Linked (s : Sheet) : Prop where
  mirrored : s.graph.Mirrored
  rested : s.graph.Rested
  precedents : ∀ c d, d ∈ s.graph.precedents c ↔ Entries.Reads s.entries c d
  holdsFormula : ∀ c, s.graph.HoldsFormula c ↔ s.isFormula c = true
  parsed : ∀ (c : Cell) text reading, s.entries[c]? = some (.formula text reading) →
    Entry.ofFormulaText text = .formula text reading
  counted : ∀ c : Cell, c ∈ s.rowCountReaders ↔ ∃ e, s.entries[c]? = some e ∧ e.readsRowCount = true

/-- A change of the cell that its readers have not seen. The change of a formula is seen once its result
differs. -/
def Upset (s : Sheet) (c : Cell) : Prop := c ∈ s.pending ∧ s.results[c]? = none

def Consistent (s : Sheet) (c : Cell) (reading : Except CellError Formula) : Prop :=
  ∃ result, s.results[c]? = some result ∧ Outcome.Alike result (Run.compute s reading)

def Marked (s : Sheet) (c : Cell) : Prop :=
  s.results[c]? = some (.error .cycle) ∧
    ∃ p, Entries.Reads s.entries c p ∧ s.results[p]? = some (.error .cycle)

def Trusted (s : Sheet) (c : Cell) (reading : Except CellError Formula) : Prop :=
  s.Consistent c reading ∨ s.Marked c

def QuietlyReads (s : Sheet) (c d : Cell) : Prop := c ∉ s.pending ∧ Entries.Reads s.entries c d

structure Sound (s : Sheet) : Prop extends Linked s where
  results : ∀ c : Cell, s.results[c]?.isSome = true → s.isFormula c = true
  computed : ∀ c, s.isFormula c = true → c ∉ s.pending → s.results[c]?.isSome = true
  trusted : ∀ (c : Cell) text reading, s.entries[c]? = some (.formula text reading) → c ∉ s.pending →
    (∀ p, Entries.Reads s.entries c p → ¬s.Upset p) → s.Trusted c reading
  circular : ∀ c, Relation.TransGen s.QuietlyReads c c → s.results[c]? = some (.error .cycle)

theorem sound_empty : Sound .empty := by
  have hreads (c d : Cell) : ¬Entries.Reads empty.entries c d := by
    rintro ⟨e, he, -⟩
    simp [empty] at he
  refine ⟨⟨fun c d => ?_, fun c => ?_, fun c d => ?_, fun c => ?_, ?_, fun c => ?_⟩, ?_, ?_, ?_, ?_⟩
  · simp [empty, Graph.empty, Graph.readers, Graph.precedents, Graph.node?]
  · simp [empty, Graph.empty, Graph.freshness, Graph.node?]
  · rw [iff_false_right (hreads c d)]
    simp [empty, Graph.empty, Graph.precedents, Graph.node?]
  · simp [empty, Graph.empty, Graph.HoldsFormula, Graph.node?, isFormula]
  · simp [empty]
  · simp [empty]
  · simp [empty]
  · simp [empty, isFormula]
  · simp [empty]
  · intro c h
    obtain ⟨d, hd, -⟩ := Relation.TransGen.head'_iff.mp h
    exact absurd hd.2 (hreads c d)

structure Edited (s t : Sheet) (d : Cell) : Prop where
  entries : ∀ c : Cell, c ≠ d → t.entries[c]? = s.entries[c]?
  results : ∀ c : Cell, c ≠ d → t.results[c]? = s.results[c]?
  kept : ∀ result, t.results[d]? = some result → s.results[d]? = some result
  pending : ∀ c, c ∈ t.pending ↔ c = d ∨ c ∈ s.pending
  rowCount : t.rowCount = s.rowCount

variable {s t : Sheet} {c d : Cell}

theorem value_formula {text : String} {reading : Except CellError Formula}
    (h : s.entries[c]? = some (.formula text reading)) : s.value c = (s.results[c]?).getD (.ok .blank) := by
  simp [value, h]

theorem isFormula_iff : s.isFormula c = true ↔ ∃ text reading, s.entries[c]? = some (.formula text reading) := by
  unfold isFormula
  cases s.entries[c]? with
  | none => simp
  | some e => cases e <;> simp [Entry.isFormula]

theorem value_of_result (h : s.isFormula c = true) {result : Outcome} (hr : s.results[c]? = some result) :
    s.value c = result := by
  obtain ⟨text, reading, he⟩ := isFormula_iff.mp h
  simp [value_formula he, hr]

namespace Edited

variable (h : Edited s t d)

include h

theorem value (hc : c ≠ d) : t.value c = s.value c := by
  unfold Sheet.value
  rw [h.entries c hc, h.results c hc]

theorem reads {x : Cell} (hc : c ≠ d) : Entries.Reads t.entries c x ↔ Entries.Reads s.entries c x := by
  unfold Entries.Reads
  rw [h.entries c hc]

theorem sound (hs : Sound s) (ht : Linked t)
    (hresults : t.results[d]?.isSome = true → t.isFormula d = true) : Sound t := by
  have hquiet (c : Cell) (hc : c ∉ t.pending) : c ≠ d ∧ c ∉ s.pending := by
    rw [h.pending] at hc
    exact not_or.mp hc
  have hformula (c : Cell) (hc : c ≠ d) : t.isFormula c = s.isFormula c := by
    unfold isFormula
    rw [h.entries c hc]
  have hseen (p : Cell) (hp : ¬t.Upset p) : ¬s.Upset p ∧ t.value p = s.value p := by
    by_cases hpd : p = d
    · subst hpd
      cases hr : t.results[p]? with
      | none => exact absurd ⟨(h.pending p).mpr (.inl rfl), hr⟩ hp
      | some result =>
          have hr' := h.kept result hr
          refine ⟨fun hu => by simp [hu.2] at hr', ?_⟩
          rw [value_of_result (hresults (by simp [hr])) hr,
            value_of_result (hs.results p (by simp [hr'])) hr']
    · refine ⟨fun hu => hp ⟨(h.pending p).mpr (.inr hu.1), ?_⟩, h.value hpd⟩
      rw [h.results p hpd]
      exact hu.2
  refine ⟨ht, fun c hc => ?_, fun c hc hp => ?_, fun c text reading he hc hp => ?_, fun c hc => ?_⟩
  · by_cases hcd : c = d
    · subst hcd
      exact hresults hc
    · rw [h.results c hcd] at hc
      rw [hformula c hcd]
      exact hs.results c hc
  · obtain ⟨hcd, hps⟩ := hquiet c hp
    rw [h.results c hcd]
    rw [hformula c hcd] at hc
    exact hs.computed c hc hps
  · obtain ⟨hcd, hps⟩ := hquiet c hc
    have he' : s.entries[c]? = some (.formula text reading) := by rw [← h.entries c hcd, he]
    have hp' (p : Cell) (hcp : Entries.Reads s.entries c p) : ¬s.Upset p ∧ t.value p = s.value p :=
      hseen p (hp p ((h.reads hcd).mpr hcp))
    rcases hs.trusted c text reading he' hps fun p hcp => (hp' p hcp).1 with ⟨r, hr, ha⟩ | ⟨hr, p, hcp, hrp⟩
    · refine .inl ⟨r, by rw [h.results c hcd, hr], Outcome.alike_trans ha ?_⟩
      refine compute_alike text (fun p hmem => ?_) fun _ => h.rowCount.symm
      rw [(hp' p ⟨_, he', hmem⟩).2]
      exact Outcome.alike_refl _
    · refine .inr ⟨by rw [h.results c hcd, hr], p, (h.reads hcd).mpr hcp, ?_⟩
      by_cases hpd : p = d
      · subst hpd
        cases hr' : t.results[p]? with
        | none => exact absurd ⟨(h.pending p).mpr (.inl rfl), hr'⟩ (hp p ((h.reads hcd).mpr hcp))
        | some result => rw [← hrp, h.kept result hr']
      · rw [h.results p hpd, hrp]
  · have hstep (a b : Cell) (hab : t.QuietlyReads a b) : s.QuietlyReads a b :=
      ⟨(hquiet a hab.1).2, (h.reads (hquiet a hab.1).1).mp hab.2⟩
    obtain ⟨x, hcx, -⟩ := Relation.TransGen.head'_iff.mp hc
    rw [h.results c (hquiet c hcx.1).1]
    exact hs.circular c (Relation.TransGen.mono hstep c c hc)

end Edited

end Sheet

end LiveSheet
