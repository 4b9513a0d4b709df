import LiveSheet.Proofs.Sheet.Sound

namespace LiveSheet.Sheet

variable {s t : Sheet} {d : Cell}

theorem Linked.replace (h : Linked s) (d : Cell) (e? : Option Entry)
    (hentries : ∀ c : Cell, t.entries[c]? = if c = d then e? else s.entries[c]?)
    (hmirrored : t.graph.Mirrored) (hrested : t.graph.Rested)
    (hprecedents : ∀ c x, x ∈ t.graph.precedents c ↔
      if c = d then ∃ e, e? = some e ∧ x ∈ e.precedents else x ∈ s.graph.precedents c)
    (hholds : ∀ c, t.graph.HoldsFormula c ↔
      if c = d then e?.any Entry.isFormula = true else s.graph.HoldsFormula c)
    (hparsed : ∀ text reading, e? = some (.formula text reading) →
      Entry.ofFormulaText text = .formula text reading)
    (hcounted : ∀ c : Cell, c ∈ t.rowCountReaders ↔
      if c = d then ∃ e, e? = some e ∧ e.readsRowCount = true else c ∈ s.rowCountReaders) : Linked t := by
  refine ⟨hmirrored, hrested, fun c x => ?_, fun c => ?_, fun c text reading he => ?_, fun c => ?_⟩
  · rw [hprecedents]
    unfold Entries.Reads
    rw [hentries]
    split
    · rfl
    · exact h.precedents c x
  · rw [hholds]
    unfold isFormula
    rw [hentries]
    split
    · rfl
    · exact h.holdsFormula c
  · rw [hentries] at he
    split at he
    · exact hparsed text reading he
    · exact h.parsed c text reading he
  · rw [hcounted, hentries]
    split
    · rfl
    · exact h.counted c

def plain (s : Sheet) (c : Cell) : Sheet := if s.isFormula c then s.demote c else s

section Plain

variable (s d)

theorem entries_plain : (s.plain d).entries = s.entries := by
  unfold plain
  split <;> rfl

theorem pending_plain : (s.plain d).pending = s.pending := by
  unfold plain
  split <;> rfl

theorem rowCount_plain : (s.plain d).rowCount = s.rowCount := by
  unfold plain
  split <;> rfl

variable {s d}

theorem enterValue_eq {v : Value} (hv : ¬s.holdsValue d v = true) : s.enterValue d v = { s.plain d with
    entries := s.entries.insert d (.literal v), pending := s.pending.insert d } := by
  rw [← entries_plain s d, ← pending_plain s d]
  unfold enterValue
  rw [if_neg hv]
  rfl

theorem clear_eq (hd : d ∈ s.entries) : s.clear d = { s.plain d with
    entries := s.entries.erase d, pending := s.pending.insert d, graph := (s.plain d).graph.prune d } := by
  rw [← pending_plain s d]
  unfold clear plain
  rw [if_pos hd]
  split <;> rfl

variable (d) (h : Sound s) (c : Cell)

include h

theorem results_plain : (s.plain d).results[c]? = if c = d then none else s.results[c]? := by
  unfold plain
  split
  · simp [demote, Std.ExtTreeMap.getElem?_erase, eq_comm (a := c)]
  · next hd =>
      split
      · next hcd =>
          subst hcd
          cases hr : s.results[c]? with
          | none => rfl
          | some r => exact absurd (h.results c (by simp [hr])) hd
      · rfl

theorem mirrored_plain : (s.plain d).graph.Mirrored := by
  unfold plain
  split
  · exact Graph.mirrored_setPrecedents _ _ _ h.mirrored
  · exact h.mirrored

theorem rested_plain : (s.plain d).graph.Rested := by
  unfold plain
  split
  · exact Graph.rested_setPrecedents h.rested _ _ _
  · exact h.rested

theorem mem_precedents_plain {x : Cell} :
    x ∈ (s.plain d).graph.precedents c ↔ c ≠ d ∧ x ∈ s.graph.precedents c := by
  unfold plain
  split
  · rw [demote, Graph.mem_precedents_setPrecedents]
    split <;> simp_all
  · next hd =>
      refine ⟨fun hx => ⟨?_, hx⟩, fun hx => hx.2⟩
      rintro rfl
      obtain ⟨text, f, he, -⟩ := Entries.exists_formula_of_reads ((h.precedents c x).mp hx)
      exact hd (isFormula_iff.mpr ⟨text, _, he⟩)

theorem holdsFormula_plain : (s.plain d).graph.HoldsFormula c ↔ c ≠ d ∧ s.graph.HoldsFormula c := by
  unfold plain
  split
  · rw [demote, Graph.holdsFormula_setPrecedents]
    split <;> simp_all
  · next hd =>
      refine ⟨fun hx => ⟨?_, hx⟩, fun hx => hx.2⟩
      rintro rfl
      exact hd ((h.holdsFormula c).mp hx)

theorem mem_rowCountReaders_plain : c ∈ (s.plain d).rowCountReaders ↔ c ≠ d ∧ c ∈ s.rowCountReaders := by
  unfold plain
  split
  · simp [demote, eq_comm (a := c)]
  · next hd =>
      refine ⟨fun hx => ⟨?_, hx⟩, fun hx => hx.2⟩
      rintro rfl
      obtain ⟨e, he, hrows⟩ := (h.counted c).mp hx
      cases e with
      | literal v => cases hrows
      | formula text reading => exact hd (isFormula_iff.mpr ⟨text, reading, he⟩)

end Plain

theorem getElem?_enterValue (s : Sheet) (c d : Cell) (v : Value) : (s.enterValue c v).entries[d]? =
    if d = c ∧ s.holdsValue c v = false then some (.literal v) else s.entries[d]? := by
  by_cases hv : s.holdsValue c v = true
  · simp [enterValue, hv]
  · rw [enterValue_eq hv]
    simp [Std.ExtTreeMap.getElem?_insert, hv, eq_comm (a := d)]

theorem getElem?_enterFormula (s : Sheet) (c d : Cell) (text : String) : (s.enterFormula c text).entries[d]? =
    if d = c ∧ s.formulaText? c ≠ some text then some (.ofFormulaText text) else s.entries[d]? := by
  unfold enterFormula
  split
  · next h => simp [h]
  · next h => simp [Std.ExtTreeMap.getElem?_insert, h, eq_comm (a := d)]

theorem getElem?_clear (s : Sheet) (c d : Cell) :
    (s.clear c).entries[d]? = if d = c then none else s.entries[d]? := by
  by_cases hc : c ∈ s.entries
  · rw [clear_eq hc]
    simp [Std.ExtTreeMap.getElem?_erase, eq_comm (a := d)]
  · rw [show s.clear c = s by simp [clear, hc]]
    split
    · next h => rw [h, Std.ExtTreeMap.getElem?_eq_none hc]
    · rfl

variable (h : Sound s)

include h

theorem edited_enterValue {v : Value} (hv : ¬s.holdsValue d v = true) : Edited s (s.enterValue d v) d := by
  rw [enterValue_eq hv]
  refine ⟨fun c hc => ?_, fun c hc => ?_, fun r hr => ?_, fun c => ?_, ?_⟩
  · simp [Std.ExtTreeMap.getElem?_insert, Ne.symm hc]
  · simp [results_plain d h, hc]
  · simp [results_plain d h] at hr
  · simp [eq_comm (a := c)]
  · exact rowCount_plain s d

omit h in
theorem edited_enterFormula {text : String} (ht : ¬s.formulaText? d = some text) :
    Edited s (s.enterFormula d text) d := by
  unfold enterFormula
  rw [if_neg ht]
  refine ⟨fun c hc => ?_, fun c _ => rfl, fun r hr => hr, fun c => ?_, rfl⟩
  · simp [Std.ExtTreeMap.getElem?_insert, Ne.symm hc]
  · simp [eq_comm (a := c)]

theorem edited_clear (hd : d ∈ s.entries) : Edited s (s.clear d) d := by
  rw [clear_eq hd]
  refine ⟨fun c hc => ?_, fun c hc => ?_, fun r hr => ?_, fun c => ?_, ?_⟩
  · simp [Std.ExtTreeMap.getElem?_erase, Ne.symm hc]
  · simp [results_plain d h, hc]
  · simp [results_plain d h] at hr
  · simp [eq_comm (a := c)]
  · exact rowCount_plain s d

theorem sound_enterValue (d : Cell) (v : Value) : Sound (s.enterValue d v) := by
  by_cases hv : s.holdsValue d v = true
  · rw [show s.enterValue d v = s by simp [enterValue, hv]]
    exact h
  · have hedited := edited_enterValue h hv
    rw [enterValue_eq hv] at hedited ⊢
    refine hedited.sound h ?_ ?_
    · apply h.toLinked.replace d (some (.literal v))
      · intro c
        simp [Std.ExtTreeMap.getElem?_insert, eq_comm (a := c)]
      · exact mirrored_plain d h
      · exact rested_plain d h
      · intro c x
        rw [mem_precedents_plain d h]
        split <;> simp_all [Entry.precedents]
      · intro c
        rw [holdsFormula_plain d h]
        split <;> simp_all [Entry.isFormula]
      · simp
      · intro c
        rw [mem_rowCountReaders_plain d h]
        split <;> simp_all [Entry.readsRowCount]
    · intro hr
      simp [results_plain d h] at hr

theorem sound_enterFormula (d : Cell) (text : String) : Sound (s.enterFormula d text) := by
  by_cases hholds : s.formulaText? d = some text
  · rw [show s.enterFormula d text = s by simp [enterFormula, hholds]]
    exact h
  · obtain ⟨reading, hentry⟩ := Entry.ofFormulaText_eq text
    have hedited := edited_enterFormula hholds
    unfold enterFormula at hedited ⊢
    rw [if_neg hholds] at hedited ⊢
    refine hedited.sound h ?_ ?_
    · apply h.toLinked.replace d (some (Entry.ofFormulaText text))
      · intro c
        simp [Std.ExtTreeMap.getElem?_insert, eq_comm (a := c)]
      · exact Graph.mirrored_setPrecedents _ _ _ h.mirrored
      · exact Graph.rested_setPrecedents h.rested _ _ _
      · intro c x
        rw [Graph.mem_precedents_setPrecedents]
        simp
      · intro c
        rw [Graph.holdsFormula_setPrecedents]
        simp [hentry, Entry.isFormula]
      · intro text' reading' he
        rw [hentry] at he
        cases he
        exact hentry
      · intro c
        by_cases hrows : (Entry.ofFormulaText text).readsRowCount = true
        · simp only [hrows, if_true, Std.ExtTreeSet.mem_insert]
          by_cases hc : c = d
          · simp [hc, hrows]
          · simp [hc, Ne.symm hc]
        · by_cases hc : c = d
          · simp [hc, hrows]
          · simp [hrows, hc, Ne.symm hc]
    · intro _
      simp [isFormula, hentry, Entry.isFormula]

theorem sound_clear (d : Cell) : Sound (s.clear d) := by
  by_cases hd : d ∈ s.entries
  · have hedited := edited_clear h hd
    rw [clear_eq hd] at hedited ⊢
    refine hedited.sound h ?_ ?_
    · apply h.toLinked.replace d none
      · intro c
        simp [Std.ExtTreeMap.getElem?_erase, eq_comm (a := c)]
      · exact Graph.mirrored_prune _ (mirrored_plain d h)
      · exact Graph.rested_prune (rested_plain d h) _
      · intro c x
        rw [Graph.precedents_prune, mem_precedents_plain d h]
        split <;> simp_all
      · intro c
        rw [Graph.holdsFormula_prune, holdsFormula_plain d h]
        split <;> simp_all
      · simp
      · intro c
        rw [mem_rowCountReaders_plain d h]
        split <;> simp_all
    · intro hr
      simp [results_plain d h] at hr
  · rw [show s.clear d = s by simp [clear, hd]]
    exact h

theorem sound_setRowCount (rows : Nat) : Sound (s.setRowCount rows) := by
  unfold setRowCount
  split
  · exact h
  · have hpending (c : Cell) : c ∈ s.pending.insertMany s.rowCountReaders.toList ↔
        c ∈ s.pending ∨ c ∈ s.rowCountReaders := by
      simp
    refine ⟨⟨h.mirrored, h.rested, h.precedents, h.holdsFormula, h.parsed, h.counted⟩, h.results,
      fun c hc hp => h.computed c hc fun hs => hp ((hpending c).mpr (.inl hs)),
      fun c text reading he hc hp => ?_, fun c hc => h.circular c ?_⟩
    · have hquiet : c ∉ s.pending ∧ c ∉ s.rowCountReaders := by
        rw [hpending] at hc
        exact not_or.mp hc
      have hseen (p : Cell) (hcp : Entries.Reads s.entries c p) : ¬s.Upset p :=
        fun hu => hp p hcp ⟨(hpending p).mpr (.inl hu.1), hu.2⟩
      rcases h.trusted c text reading he hquiet.1 hseen with ⟨r, hr, ha⟩ | hmarked
      · refine .inl ⟨r, hr, Outcome.alike_trans ha ?_⟩
        refine compute_alike text (fun p _ => Outcome.alike_refl _) fun hrows => ?_
        exact absurd ((h.counted c).mpr ⟨_, he, hrows⟩) hquiet.2
      · exact .inr hmarked
    · refine Relation.TransGen.mono (fun a b hab => ?_) c c hc
      exact ⟨fun ha => hab.1 ((hpending a).mpr (.inl ha)), hab.2⟩

end LiveSheet.Sheet
