import LiveSheet.Proofs.Sheet.Refresh

namespace LiveSheet.Sheet

variable {s : Sheet} (visit : VisitOrder)

def affected (s : Sheet) (visit : VisitOrder) : List Cell := s.graph.reached visit s.pending.toList

section Affected

variable (h : Sound s) {c d : Cell}

include h

theorem feeds_iff : s.graph.Feeds d c ↔ Entries.Reads s.entries c d :=
  (h.mirrored c d).trans (h.precedents c d)

theorem swap_feeds : Function.swap s.graph.Feeds = Entries.Reads s.entries := by
  funext c d
  exact propext (feeds_iff h)

theorem mem_affected : c ∈ s.affected visit ↔ ∃ d ∈ s.pending, d ∈ s.graph.nodes ∧
    Relation.ReflTransGen (Entries.Reads s.entries) c d := by
  unfold affected
  rw [Graph.mem_reached visit h.mirrored, ← swap_feeds h]
  simp only [Std.ExtTreeSet.mem_toList, Relation.reflTransGen_swap]

theorem affected_of_reads (hcd : Entries.Reads s.entries c d) (hd : d ∈ s.affected visit) :
    c ∈ s.affected visit := by
  obtain ⟨x, hx, hnode, hdx⟩ := (mem_affected visit h).mp hd
  exact (mem_affected visit h).mpr ⟨x, hx, hnode, .head hcd hdx⟩

theorem affected_of_reaches (hcd : Relation.ReflTransGen (Entries.Reads s.entries) c d)
    (hd : d ∈ s.affected visit) : c ∈ s.affected visit := by
  induction hcd using Relation.ReflTransGen.head_induction_on with
  | refl => exact hd
  | head hab _ ih => exact affected_of_reads visit h hab ih

theorem affected_of_formula (hf : s.isFormula c = true) (hc : c ∈ s.pending) : c ∈ s.affected visit :=
  (mem_affected visit h).mpr
    ⟨c, hc, Graph.mem_nodes_of_holdsFormula ((h.holdsFormula c).mpr hf), .refl⟩

theorem affected_of_reads_pending (hcd : Entries.Reads s.entries c d) (hd : d ∈ s.pending) :
    c ∈ s.affected visit := by
  have hnode : d ∈ s.graph.nodes := Graph.mem_nodes_of_feeds ((feeds_iff h).mpr hcd)
  exact (mem_affected visit h).mpr ⟨d, hd, hnode, .single hcd⟩

theorem mem_affected_iff : c ∈ s.affected visit ↔ c ∈ (s.agenda visit).order ∨ c ∈ (s.agenda visit).cyclic :=
  (scheduled_agenda h visit).covers c

theorem mem_cyclic_iff : c ∈ (s.agenda visit).cyclic ↔ ∃ d ∈ s.affected visit,
    Entries.OnCycle s.entries d ∧ Relation.ReflTransGen (Entries.Reads s.entries) c d := by
  have hclosed (x y : Cell) (hxy : s.graph.Feeds x y) (hx : x ∈ s.affected visit) : y ∈ s.affected visit :=
    affected_of_reads visit h ((feeds_iff h).mp hxy) hx
  unfold Entries.OnCycle
  rw [← swap_feeds h]
  simp only [Relation.transGen_swap, Relation.reflTransGen_swap]
  exact (scheduled_agenda h visit).mem_cyclic_iff h.mirrored hclosed

theorem cyclic_of_reaches (hcd : Relation.ReflTransGen (Entries.Reads s.entries) c d)
    (hd : d ∈ (s.agenda visit).cyclic) : c ∈ (s.agenda visit).cyclic := by
  obtain ⟨x, hx, hcycle, hdx⟩ := (mem_cyclic_iff visit h).mp hd
  exact (mem_cyclic_iff visit h).mpr ⟨x, hx, hcycle, hcd.trans hdx⟩

theorem cyclic_of_onCycle (hc : Entries.OnCycle s.entries c) (haffected : c ∈ s.affected visit) :
    c ∈ (s.agenda visit).cyclic :=
  (mem_cyclic_iff visit h).mpr ⟨c, haffected, hc, .refl⟩

theorem value_refresh_alike (hchanged : c ∉ (s.refresh visit).changed) (hcyclic : c ∉ (s.agenda visit).cyclic) :
    ¬s.Upset c ∧ Outcome.Alike (s.value c) ((s.refresh visit).sheet.value c) := by
  have hr := refreshed_refresh h visit
  cases hf : s.isFormula c with
  | false =>
      refine ⟨fun hu => hchanged ((hr.changed c (.inr hf)).mpr ⟨hu.1, hf⟩), ?_⟩
      rw [hr.content.value (hr.untouched c (.inr hf))]
      exact Outcome.alike_refl _
  | true =>
      by_cases horder : c ∈ (s.agenda visit).order
      · obtain ⟨text, reading, he⟩ := isFormula_iff.mp hf
        have hdone := hr.done c horder text reading he
        by_cases hdue : Due s (s.refresh visit).changed c
        · obtain ⟨result, hresult, -, hk⟩ := hdone.computed hdue
          have hkeeps : Run.keeps s c result = true := by
            rw [← Bool.not_eq_false]
            exact fun hk' => hchanged (hk.mpr hk')
          unfold Run.keeps at hkeeps
          obtain ⟨old, hold, hsame⟩ := (Option.any_eq_true _ _).mp hkeeps
          refine ⟨fun hu => by simp [hu.2] at hold, ?_⟩
          rw [value_of_result hf hold, value_of_result ((hr.content.isFormula c).trans hf) hresult]
          exact Outcome.alike_symm (Outcome.same_iff.mp hsame).1
        · refine ⟨fun hu => hdue (.inl hu.1), ?_⟩
          rw [hr.content.value (hdone.spared hdue).1]
          exact Outcome.alike_refl _
      · have haffected : c ∉ s.affected visit := by
          rw [mem_affected_iff visit h]
          exact not_or.mpr ⟨horder, hcyclic⟩
        refine ⟨fun hu => haffected (affected_of_formula visit h hf hu.1), ?_⟩
        rw [hr.content.value (hr.untouched c (.inl ⟨horder, hcyclic⟩))]
        exact Outcome.alike_refl _

theorem results_refresh_isSome (hf : s.isFormula c = true) :
    (s.refresh visit).sheet.results[c]?.isSome = true := by
  have hr := refreshed_refresh h visit
  by_cases hcyclic : c ∈ (s.agenda visit).cyclic
  · simp [hr.refused c hcyclic hf]
  · by_cases horder : c ∈ (s.agenda visit).order
    · obtain ⟨text, reading, he⟩ := isFormula_iff.mp hf
      have hdone := hr.done c horder text reading he
      by_cases hdue : Due s (s.refresh visit).changed c
      · obtain ⟨result, hresult, -⟩ := hdone.computed hdue
        simp [hresult]
      · rw [(hdone.spared hdue).1]
        exact h.computed c hf fun hp => hdue (.inl hp)
    · rw [hr.untouched c (.inl ⟨horder, hcyclic⟩)]
      refine h.computed c hf fun hp => ?_
      rcases (mem_affected_iff visit h).mp (affected_of_formula visit h hf hp) with hc | hc
      · exact horder hc
      · exact hcyclic hc

theorem trusted_refresh {text : String} {reading : Except CellError Formula}
    (he : s.entries[c]? = some (.formula text reading)) : (s.refresh visit).sheet.Trusted c reading := by
  have hr := refreshed_refresh h visit
  have hf : s.isFormula c = true := isFormula_iff.mpr ⟨text, reading, he⟩
  have hreads {a b : Cell} : Entries.Reads (s.refresh visit).sheet.entries a b ↔ Entries.Reads s.entries a b := by
    rw [hr.content.entries]
  by_cases hcyclic : c ∈ (s.agenda visit).cyclic
  · obtain ⟨p, hcp, hp⟩ := (scheduled_agenda h visit).stuck c hcyclic
    obtain ⟨q, hpq, -⟩ := (scheduled_agenda h visit).stuck p hp
    obtain ⟨text', f, hpe, -⟩ := Entries.exists_formula_of_reads ((h.precedents p q).mp hpq)
    refine .inr ⟨hr.refused c hcyclic hf, p, hreads.mpr ((h.precedents c p).mp hcp), ?_⟩
    exact hr.refused p hp (isFormula_iff.mpr ⟨text', _, hpe⟩)
  · by_cases hdue : c ∈ (s.agenda visit).order ∧ Due s (s.refresh visit).changed c
    · obtain ⟨result, hresult, ha, -⟩ := (hr.done c hdue.1 text reading he).computed hdue.2
      exact .inl ⟨result, hresult, ha⟩
    · have hkept : (s.refresh visit).sheet.results[c]? = s.results[c]? ∧ c ∉ s.pending ∧
          ∀ p, Entries.Reads s.entries c p → p ∉ (s.refresh visit).changed ∧ p ∉ (s.agenda visit).cyclic := by
        have hreader (p : Cell) (hcp : Entries.Reads s.entries c p) : p ∉ (s.agenda visit).cyclic :=
          fun hp => hcyclic (cyclic_of_reaches visit h (.single hcp) hp)
        by_cases horder : c ∈ (s.agenda visit).order
        · have hspared : ¬Due s (s.refresh visit).changed c := fun hd => hdue ⟨horder, hd⟩
          refine ⟨((hr.done c horder text reading he).spared hspared).1, fun hp => hspared (.inl hp),
            fun p hcp => ⟨fun hp => hspared (.inr ⟨p, hcp, hp⟩), hreader p hcp⟩⟩
        · have haffected : c ∉ s.affected visit := by
            rw [mem_affected_iff visit h]
            exact not_or.mpr ⟨horder, hcyclic⟩
          refine ⟨hr.untouched c (.inl ⟨horder, hcyclic⟩),
            fun hp => haffected (affected_of_formula visit h hf hp), fun p hcp => ⟨fun hp => ?_, hreader p hcp⟩⟩
          have hporder : p ∉ (s.agenda visit).order := fun hp =>
            haffected (affected_of_reads visit h hcp ((mem_affected_iff visit h).mpr (.inl hp)))
          exact haffected (affected_of_reads_pending visit h hcp ((hr.changed p (.inl hporder)).mp hp).1)
      obtain ⟨hresult, hpending, hreader⟩ := hkept
      have hvalue (p : Cell) (hcp : Entries.Reads s.entries c p) :=
        value_refresh_alike visit h (hreader p hcp).1 (hreader p hcp).2
      rcases h.trusted c text reading he hpending fun p hcp => (hvalue p hcp).1 with
        ⟨result, hres, ha⟩ | ⟨hres, p, hcp, hp⟩
      · refine .inl ⟨result, hresult.trans hres, Outcome.alike_trans ha ?_⟩
        exact compute_alike text (fun p hp => (hvalue p ⟨_, he, hp⟩).2) fun _ => hr.content.rowCount.symm
      · refine .inr ⟨hresult.trans hres, p, hreads.mpr hcp, ?_⟩
        have hpf : s.isFormula p = true := h.results p (by simp [hp])
        have hpr := (hvalue p hcp).2
        obtain ⟨result, hpresult⟩ := Option.isSome_iff_exists.mp (results_refresh_isSome visit h hpf)
        rw [value_of_result hpf hp, value_of_result ((hr.content.isFormula p).trans hpf) hpresult] at hpr
        rw [hpresult, Outcome.eq_error_of_alike (Outcome.alike_symm hpr)]

theorem consistent_refresh {text : String} {reading : Except CellError Formula}
    (he : s.entries[c]? = some (.formula text reading)) (hcyclic : c ∉ (s.agenda visit).cyclic)
    (hold : s.results[c]? ≠ some (.error .cycle)) : (s.refresh visit).sheet.Consistent c reading := by
  have hr := refreshed_refresh h visit
  by_cases hdue : c ∈ (s.agenda visit).order ∧ Due s (s.refresh visit).changed c
  · obtain ⟨result, hresult, ha, -⟩ := (hr.done c hdue.1 text reading he).computed hdue.2
    exact ⟨result, hresult, ha⟩
  · refine (trusted_refresh visit h he).resolve_right fun hmarked => hold ?_
    rw [← hmarked.1]
    by_cases horder : c ∈ (s.agenda visit).order
    · exact ((hr.done c horder text reading he).spared fun hd => hdue ⟨horder, hd⟩).1.symm
    · exact (hr.untouched c (.inl ⟨horder, hcyclic⟩)).symm

theorem circular_refresh (hc : Entries.OnCycle s.entries c) :
    (s.refresh visit).sheet.results[c]? = some (.error .cycle) := by
  have hr := refreshed_refresh h visit
  have hf : s.isFormula c = true := by
    obtain ⟨d, hcd, -⟩ := Relation.TransGen.head'_iff.mp hc
    obtain ⟨text, f, he, -⟩ := Entries.exists_formula_of_reads hcd
    exact isFormula_iff.mpr ⟨text, _, he⟩
  by_cases haffected : c ∈ s.affected visit
  · exact hr.refused c (cyclic_of_onCycle visit h hc haffected) hf
  · have hleft : c ∉ (s.agenda visit).order ∧ c ∉ (s.agenda visit).cyclic := by
      rw [mem_affected_iff visit h] at haffected
      exact not_or.mp haffected
    rw [hr.untouched c (.inl hleft)]
    -- nothing on the cycle is pending, because the cell would be affected by it
    have hquiet {a b : Cell} (hab : Relation.TransGen (Entries.Reads s.entries) a b)
        (ha : a ∉ s.affected visit) : Relation.TransGen s.QuietlyReads a b := by
      have hpending {x y : Cell} (hx : x ∉ s.affected visit) (hxy : Entries.Reads s.entries x y) :
          x ∉ s.pending := by
        intro hp
        obtain ⟨text, f, he, -⟩ := Entries.exists_formula_of_reads hxy
        exact hx (affected_of_formula visit h (isFormula_iff.mpr ⟨text, _, he⟩) hp)
      induction hab using Relation.TransGen.head_induction_on with
      | single hab => exact .single ⟨hpending ha hab, hab⟩
      | head hab _ ih =>
          exact .head ⟨hpending ha hab, hab⟩ (ih fun hb => ha (affected_of_reads visit h hab hb))
    exact h.circular c (hquiet hc haffected)

theorem sound_refresh : Sound (s.refresh visit).sheet := by
  have hr := refreshed_refresh h visit
  refine ⟨hr.content.linked h.toLinked hr.rested, fun c hc => ?_, fun c hf _ => ?_, fun c text reading he _ _ => ?_,
    fun c hc => ?_⟩
  · rw [hr.content.isFormula, ← Bool.not_eq_false]
    intro hf
    rw [hr.untouched c (.inr hf)] at hc
    simp [h.results c hc] at hf
  · rw [hr.content.isFormula] at hf
    exact results_refresh_isSome visit h hf
  · rw [hr.content.entries] at he
    exact trusted_refresh visit h he
  · apply circular_refresh visit h
    refine Relation.TransGen.mono (fun a b hab => ?_) c c hc
    have hreads := hab.2
    rwa [hr.content.entries] at hreads

theorem sound_recalculate : Sound (s.recalculate visit).1 := by
  unfold recalculate
  split
  · exact h
  · exact sound_refresh visit h

theorem pending_recalculate : (s.recalculate visit).1.pending = ∅ := by
  unfold recalculate
  split
  · next he => exact Std.ExtTreeSet.isEmpty_iff.mp he
  · exact (refreshed_refresh h visit).pending

theorem content_recalculate : (s.recalculate visit).1.entries = s.entries ∧
    (s.recalculate visit).1.rowCount = s.rowCount := by
  unfold recalculate
  split
  · exact ⟨rfl, rfl⟩
  · exact ⟨(refreshed_refresh h visit).content.entries, (refreshed_refresh h visit).content.rowCount⟩

end Affected

end LiveSheet.Sheet
