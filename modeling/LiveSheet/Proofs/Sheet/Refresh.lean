import LiveSheet.Proofs.Graph.Order
import LiveSheet.Proofs.Sheet.Sound

namespace LiveSheet.Sheet

structure SameContent (s t : Sheet) : Prop where
  entries : t.entries = s.entries
  rowCount : t.rowCount = s.rowCount
  counted : t.rowCountReaders = s.rowCountReaders
  edges : Graph.SameEdges s.graph t.graph

theorem SameContent.trans {s t u : Sheet} (h : SameContent s t) (k : SameContent t u) : SameContent s u :=
  ⟨k.entries.trans h.entries, k.rowCount.trans h.rowCount, k.counted.trans h.counted, h.edges.trans k.edges⟩

theorem SameContent.value {s t : Sheet} {c : Cell} (h : SameContent s t)
    (hresults : t.results[c]? = s.results[c]?) : t.value c = s.value c := by
  unfold Sheet.value
  rw [h.entries, hresults]

theorem SameContent.isFormula {s t : Sheet} (h : SameContent s t) (c : Cell) :
    t.isFormula c = s.isFormula c := by
  unfold Sheet.isFormula
  rw [h.entries]

theorem SameContent.linked {s t : Sheet} (h : SameContent s t) (hs : Linked s) (hrest : t.graph.Rested) :
    Linked t := by
  refine ⟨h.edges.mirrored hs.mirrored, hrest, fun c d => ?_, fun c => ?_, fun c text reading he => ?_, fun c => ?_⟩
  · rw [h.edges.precedents, h.entries]
    exact hs.precedents c d
  · rw [h.edges.holdsFormula, h.isFormula]
    exact hs.holdsFormula c
  · rw [h.entries] at he
    exact hs.parsed c text reading he
  · rw [h.counted, h.entries]
    exact hs.counted c

def Due (s : Sheet) (changed : CellSet) (c : Cell) : Prop :=
  c ∈ s.pending ∨ ∃ p, Entries.Reads s.entries c p ∧ p ∈ changed

structure Done (s : Sheet) (r : Run) (c : Cell) (reading : Except CellError Formula) : Prop where
  computed : Due s r.changed c → ∃ result, r.sheet.results[c]? = some result ∧
    Outcome.Alike result (Run.compute r.sheet reading) ∧ (c ∈ r.changed ↔ Run.keeps s c result = false)
  spared : ¬Due s r.changed c → r.sheet.results[c]? = s.results[c]? ∧ c ∉ r.changed

variable {s : Sheet}

theorem Done.frame {r r' : Run} {c : Cell} {text : String} {reading : Except CellError Formula}
    (h : Done s r c reading) (he : s.entries[c]? = some (.formula text reading))
    (hresult : r'.sheet.results[c]? = r.sheet.results[c]?) (hchanged : c ∈ r'.changed ↔ c ∈ r.changed)
    (hrows : r'.sheet.rowCount = r.sheet.rowCount)
    (hreads : ∀ p, Entries.Reads s.entries c p →
      (p ∈ r'.changed ↔ p ∈ r.changed) ∧ r'.sheet.value p = r.sheet.value p) : Done s r' c reading := by
  have hdue : Due s r'.changed c ↔ Due s r.changed c := by
    unfold Due
    refine or_congr .rfl (exists_congr fun p => and_congr_right fun hp => (hreads p hp).1)
  refine ⟨fun hd => ?_, fun hd => ?_⟩
  · obtain ⟨result, hr, ha, hk⟩ := h.computed (hdue.mp hd)
    refine ⟨result, hresult.trans hr, Outcome.alike_trans ha ?_, hchanged.trans hk⟩
    refine compute_alike text (fun p hp => ?_) fun _ => hrows.symm
    rw [(hreads p ⟨_, he, hp⟩).2]
    exact Outcome.alike_refl _
  · obtain ⟨hr, hc⟩ := h.spared fun hd' => hd (hdue.mpr hd')
    exact ⟨hresult.trans hr, fun hc' => hc (hchanged.mp hc')⟩

namespace Run

variable (r : Run) (c x : Cell)

theorem freshness_setFreshness_fresh (g : Graph) :
    (g.setFreshness .fresh c).freshness x = if x = c then .fresh else g.freshness x := by
  have hmark := g.freshness_mark c x fun _ => .fresh
  rw [Graph.setFreshness_eq, hmark]
  by_cases hx : x = c
  · subst hx
    by_cases hn : x ∈ g.nodes
    · simp [hn]
    · have hnode : g.node? x = none := by
        rw [Std.ExtTreeMap.mem_iff_isSome_getElem?, Option.not_isSome_iff_eq_none] at hn
        exact hn
      simp [hn, Graph.freshness, hnode]
  · simp [hx, Ne.symm hx]

theorem sameContent_update : SameContent r.sheet (r.update c).sheet := by
  have hedges := Graph.sameEdges_mark r.sheet.graph c fun _ => .fresh
  unfold update
  split
  · split <;> exact ⟨rfl, rfl, rfl, hedges⟩
  · exact ⟨rfl, rfl, rfl, hedges⟩

theorem pending_update : (r.update c).sheet.pending = r.sheet.pending := by
  unfold update
  split
  · split <;> rfl
  · rfl

theorem freshness_update : (r.update c).sheet.graph.freshness x =
    if x = c then .fresh else r.sheet.graph.freshness x := by
  rw [← freshness_setFreshness_fresh]
  unfold update
  split
  · split <;> rfl
  · rfl

theorem results_update (hx : x ≠ c ∨ r.sheet.isFormula c = false) :
    (r.update c).sheet.results[x]? = r.sheet.results[x]? := by
  unfold update
  split
  · next text reading he =>
      have hx : x ≠ c := hx.resolve_right fun hf => by simp [isFormula, he, Entry.isFormula] at hf
      split
      · simp [settle, store, Std.ExtTreeMap.getElem?_insert, Ne.symm hx]
      · rfl
  · rfl

theorem mem_changed_update (hx : x ≠ c ∨ r.sheet.isFormula c = false) :
    x ∈ (r.update c).changed ↔ x ∈ r.changed := by
  unfold update
  split
  · next text reading he =>
      have hx : x ≠ c := hx.resolve_right fun hf => by simp [isFormula, he, Entry.isFormula] at hf
      split
      · simp only [settle, store]
        split
        · rfl
        · simp [Ne.symm hx]
      · rfl
  · rfl

variable {text : String} {reading : Except CellError Formula} {r c}

theorem update_of_needsEvaluation (he : r.sheet.entries[c]? = some (.formula text reading))
    (hneeds : r.needsEvaluation c = true) :
    (r.update c).sheet.results[c]? = some (compute r.sheet reading) ∧
      (c ∈ (r.update c).changed ↔ c ∈ r.changed ∨ keeps r.sheet c (compute r.sheet reading) = false) := by
  unfold update
  simp only [he, hneeds, if_true, settle, store]
  refine ⟨by simp, ?_⟩
  split
  · next hk => simp [hk]
  · next hk => simp [hk]

theorem update_of_not_needsEvaluation (he : r.sheet.entries[c]? = some (.formula text reading))
    (hneeds : r.needsEvaluation c = false) :
    (r.update c).sheet.results[c]? = r.sheet.results[c]? ∧ (c ∈ (r.update c).changed ↔ c ∈ r.changed) := by
  unfold update
  simp [he, hneeds, settle]

variable (r) (cells : List Cell)

theorem sameContent_refuse (c : Cell) : SameContent r.sheet (r.refuse c).sheet := by
  have hedges := Graph.sameEdges_mark r.sheet.graph c fun _ => .fresh
  unfold refuse
  split <;> exact ⟨rfl, rfl, rfl, hedges⟩

theorem foldl_refuse : SameContent r.sheet (cells.foldl refuse r).sheet ∧
    (cells.foldl refuse r).sheet.pending = r.sheet.pending ∧ (cells.foldl refuse r).changed = r.changed := by
  induction cells generalizing r with
  | nil => exact ⟨⟨rfl, rfl, rfl, .refl _⟩, rfl, rfl⟩
  | cons c cells ih =>
      have hstep : (r.refuse c).sheet.pending = r.sheet.pending ∧ (r.refuse c).changed = r.changed := by
        unfold refuse
        split <;> exact ⟨rfl, rfl⟩
      obtain ⟨hcontent, hpending, hchanged⟩ := ih (r.refuse c)
      exact ⟨(r.sameContent_refuse c).trans hcontent, hpending.trans hstep.1, hchanged.trans hstep.2⟩

theorem freshness_foldl_refuse : (cells.foldl refuse r).sheet.graph.freshness x =
    if x ∈ cells then .fresh else r.sheet.graph.freshness x := by
  induction cells generalizing r with
  | nil => simp
  | cons c cells ih =>
      have hstep : (r.refuse c).sheet.graph.freshness x =
          if x = c then .fresh else r.sheet.graph.freshness x := by
        rw [← freshness_setFreshness_fresh]
        unfold refuse
        split <;> rfl
      rw [List.foldl_cons, ih, hstep]
      by_cases hx : x = c
      · simp [hx]
      · simp [hx]

theorem results_foldl_refuse : (cells.foldl refuse r).sheet.results[x]? =
    if x ∈ cells ∧ r.sheet.isFormula x = true then some (.error .cycle) else r.sheet.results[x]? := by
  induction cells generalizing r with
  | nil => simp
  | cons c cells ih =>
      have hformula : (r.refuse c).sheet.isFormula x = r.sheet.isFormula x :=
        (r.sameContent_refuse c).isFormula x
      have hstep : (r.refuse c).sheet.results[x]? =
          if x = c ∧ r.sheet.isFormula x = true then some (.error .cycle) else r.sheet.results[x]? := by
        unfold refuse
        by_cases hc : r.sheet.isFormula c = true
        · by_cases hx : x = c
          · simp [hx, hc, settle, store]
          · simp [hx, hc, settle, store, Std.ExtTreeMap.getElem?_insert, Ne.symm hx]
        · by_cases hx : x = c
          · simp [hx, hc, settle]
          · simp [hx, hc, settle]
      rw [List.foldl_cons, ih, hformula, hstep]
      by_cases hf : r.sheet.isFormula x = true
      · by_cases hx : x = c
        · subst hx
          simp [hf]
        · simp [hf, hx]
      · simp [hf]

end Run

structure Progress (s : Sheet) (cells before : List Cell) (r : Run) : Prop where
  content : SameContent s r.sheet
  pending : r.sheet.pending = ∅
  waiting : ∀ c ∈ cells, c ∉ before →
    r.sheet.graph.freshness c = if c ∈ s.pending then .stale else .suspect
  rested : ∀ c, c ∉ cells ∨ c ∈ before → r.sheet.graph.freshness c = .fresh
  untouched : ∀ c : Cell, c ∉ before ∨ s.isFormula c = false → r.sheet.results[c]? = s.results[c]?
  changed : ∀ c : Cell, c ∉ before ∨ s.isFormula c = false →
    (c ∈ r.changed ↔ c ∈ s.pending ∧ s.isFormula c = false)
  done : ∀ c ∈ before, ∀ text reading, s.entries[c]? = some (.formula text reading) → Done s r c reading

namespace Progress

variable {cells before : List Cell} {r : Run} {c : Cell}

theorem needsEvaluation_iff (h : Progress s cells before r) (hs : Linked s) (hc : c ∈ cells)
    (hnew : c ∉ before) : r.needsEvaluation c = true ↔ Due s r.changed c := by
  unfold Run.needsEvaluation Due
  rw [h.waiting c hc hnew]
  by_cases hp : c ∈ s.pending
  · simp [hp]
  · simp only [hp, if_false, false_or, List.any_eq_true, Std.ExtTreeSet.mem_toList, h.content.edges.precedents,
      hs.precedents, decide_eq_true_eq]

theorem update (h : Progress s cells before r) (hs : Linked s) (hc : c ∈ cells) (hnew : c ∉ before)
    (hready : ∀ p, Entries.Reads s.entries c p → p ∈ cells → p ∈ before)
    (hclosed : ∀ d ∈ before, ∀ p, Entries.Reads s.entries d p → p ∈ cells → p ∈ before) :
    Progress s cells (before ++ [c]) (r.update c) := by
  have hcontent := h.content.trans (r.sameContent_update c)
  have hmem (x : Cell) : x ∈ before ++ [c] ↔ x ∈ before ∨ x = c := by simp
  have hother (x : Cell) (hx : x ≠ c) : (r.update c).sheet.results[x]? = r.sheet.results[x]? ∧
      (x ∈ (r.update c).changed ↔ x ∈ r.changed) ∧ (r.update c).sheet.value x = r.sheet.value x :=
    ⟨r.results_update c x (.inl hx), r.mem_changed_update c x (.inl hx),
      (r.sameContent_update c).value (r.results_update c x (.inl hx))⟩
  have hplain (hf : s.isFormula c = false) : r.sheet.isFormula c = false := by rw [h.content.isFormula, hf]
  refine ⟨hcontent, (r.pending_update c).trans h.pending, fun x hx hxb => ?_, fun x hx => ?_, fun x hx => ?_,
    fun x hx => ?_, fun x hx text reading he => ?_⟩
  · rw [hmem, not_or] at hxb
    rw [r.freshness_update, if_neg hxb.2]
    exact h.waiting x hx hxb.1
  · rw [r.freshness_update]
    split
    · rfl
    · next hxc =>
        rw [hmem] at hx
        exact h.rested x (hx.imp_right fun hx => hx.resolve_right hxc)
  · rw [hmem] at hx
    by_cases hxc : x = c
    · subst hxc
      have hf := hx.resolve_left fun hx => hx (.inr rfl)
      rw [r.results_update x x (.inr (hplain hf))]
      exact h.untouched x (.inr hf)
    · rw [(hother x hxc).1]
      exact h.untouched x (hx.imp_left fun hx hxb => hx (.inl hxb))
  · rw [hmem] at hx
    by_cases hxc : x = c
    · subst hxc
      have hf := hx.resolve_left fun hx => hx (.inr rfl)
      rw [r.mem_changed_update x x (.inr (hplain hf))]
      exact h.changed x (.inr hf)
    · rw [(hother x hxc).2.1]
      exact h.changed x (hx.imp_left fun hx hxb => hx (.inl hxb))
  · rcases (hmem x).mp hx with hxb | rfl
    · -- `c` comes behind `x`, so that `x` does not read it
      have hxc : x ≠ c := fun hxc => hnew (hxc ▸ hxb)
      obtain ⟨hresult, hchanged, -⟩ := hother x hxc
      refine (h.done x hxb text reading he).frame he hresult hchanged (r.sameContent_update c).rowCount fun p hp => ?_
      have hpc : p ≠ c := by
        rintro rfl
        exact hnew (hclosed x hxb p hp hc)
      exact (hother p hpc).2
    · have hself (p : Cell) (hp : Entries.Reads s.entries x p) : p ≠ x := by
        rintro rfl
        exact hnew (hready p hp hc)
      have he' : r.sheet.entries[x]? = some (.formula text reading) := by rw [h.content.entries, he]
      have hformula : s.isFormula x = true := isFormula_iff.mpr ⟨text, reading, he⟩
      have hfresh : x ∉ r.changed := by
        rw [h.changed x (.inl hnew)]
        simp [hformula]
      have hdue : Due s (r.update x).changed x ↔ r.needsEvaluation x = true := by
        rw [h.needsEvaluation_iff hs hc hnew]
        unfold Due
        exact or_congr .rfl (exists_congr fun p => and_congr_right fun hp => (hother p (hself p hp)).2.1)
      refine ⟨fun hd => ?_, fun hd => ?_⟩
      · obtain ⟨hresult, hchanged⟩ := Run.update_of_needsEvaluation he' (hdue.mp hd)
        refine ⟨_, hresult, ?_, ?_⟩
        · refine compute_alike text (fun p hp => ?_) fun _ => (r.sameContent_update x).rowCount.symm
          rw [(hother p (hself p ⟨_, he, hp⟩)).2.2]
          exact Outcome.alike_refl _
        · rw [hchanged]
          simp [hfresh, Run.keeps, h.untouched x (.inl hnew)]
      · have hneeds : r.needsEvaluation x = false := by
          rw [← Bool.not_eq_true, ← hdue]
          exact hd
        obtain ⟨hresult, hchanged⟩ := Run.update_of_not_needsEvaluation he' hneeds
        exact ⟨hresult.trans (h.untouched x (.inl hnew)), fun hc => hfresh (hchanged.mp hc)⟩

theorem foldl_update {order rest : List Cell} (hs : Linked s) (horder : order.Nodup) (hcells : ∀ c ∈ order, c ∈ cells)
    (hbehind : s.graph.Behind cells order) (hsplit : before ++ rest = order) (h : Progress s cells before r) :
    Progress s cells order (rest.foldl Run.update r) := by
  have htake (i : Nat) (d : Cell) (hd : order[i]? = some d) (p : Cell) (hp : Entries.Reads s.entries d p)
      (hpc : p ∈ cells) : p ∈ order.take i :=
    hbehind i d hd p ((hs.precedents d p).mpr hp) hpc
  induction rest generalizing before r with
  | nil =>
      rw [List.append_nil] at hsplit
      exact hsplit ▸ h
  | cons c rest ih =>
      have hc : order[before.length]? = some c := by rw [← hsplit]; simp
      have hbefore : order.take before.length = before := by rw [← hsplit]; simp
      have hnew : c ∉ before := by
        intro hcb
        rw [← hsplit, List.nodup_append] at horder
        exact horder.2.2 c hcb c (by simp) rfl
      refine ih (by simpa using hsplit) (h.update hs (hcells c (List.mem_of_getElem? hc)) hnew ?_ ?_)
      · intro p hp hpc
        rw [← hbefore]
        exact htake before.length c hc p hp hpc
      · intro d hd p hp hpc
        obtain ⟨i, hi, hid⟩ := List.getElem_of_mem hd
        have hget : order[i]? = some d := by
          rw [← hsplit, List.getElem?_append_left hi, List.getElem?_eq_getElem hi, hid]
        have hp := htake i d hget p hp hpc
        rw [← hbefore]
        exact (List.take_subset_take_left order (Nat.le_of_lt hi)) hp

end Progress

structure Refreshed (s : Sheet) (schedule : Schedule) (r : Run) : Prop where
  content : SameContent s r.sheet
  pending : r.sheet.pending = ∅
  rested : r.sheet.graph.Rested
  untouched : ∀ c : Cell, c ∉ schedule.order ∧ c ∉ schedule.cyclic ∨ s.isFormula c = false →
    r.sheet.results[c]? = s.results[c]?
  refused : ∀ c ∈ schedule.cyclic, s.isFormula c = true → r.sheet.results[c]? = some (.error .cycle)
  changed : ∀ c : Cell, c ∉ schedule.order ∨ s.isFormula c = false →
    (c ∈ r.changed ↔ c ∈ s.pending ∧ s.isFormula c = false)
  done : ∀ c ∈ schedule.order, ∀ text reading, s.entries[c]? = some (.formula text reading) → Done s r c reading

def agenda (s : Sheet) (visit : VisitOrder) : Schedule :=
  s.graph.schedule visit (s.graph.reached visit s.pending.toList)

theorem scheduled_agenda (h : Sound s) (visit : VisitOrder) :
    s.graph.Scheduled (s.graph.reached visit s.pending.toList) (s.agenda visit) :=
  Graph.scheduled_schedule visit h.mirrored (s.graph.nodup_reached visit _)

theorem progress_start (h : Sound s) (visit : VisitOrder) :
    Progress s (s.graph.reached visit s.pending.toList) []
      (Run.start s (s.graph.markChanged visit s.pending.toList).1) := by
  have hfresh (c : Cell) := Graph.freshness_markChanged c visit s.pending.toList h.mirrored h.rested
  refine ⟨⟨rfl, rfl, rfl, Graph.sameEdges_markChanged _ _ _⟩, rfl, fun c hc _ => ?_, fun c hc => ?_, fun c _ => rfl,
    fun c _ => ?_, by simp⟩
  · change (s.graph.markChanged visit s.pending.toList).1.freshness c = _
    rw [hfresh, if_pos hc]
    simp
  · change (s.graph.markChanged visit s.pending.toList).1.freshness c = _
    rw [hfresh, if_neg (hc.resolve_right (by simp))]
  · change c ∈ s.pending.filter _ ↔ _
    simp [Std.ExtTreeSet.get_eq]

theorem refreshed_refresh (h : Sound s) (visit : VisitOrder) :
    Refreshed s (s.agenda visit) (s.refresh visit) := by
  have hscheduled := scheduled_agenda h visit
  have hprogress := (progress_start h visit).foldl_update h.toLinked
    hscheduled.nodup (fun c hc => (hscheduled.covers c).mpr (.inl hc)) hscheduled.behind rfl
  set r := (s.agenda visit).order.foldl Run.update (Run.start s (s.graph.markChanged visit s.pending.toList).1)
  have hdone : s.refresh visit = (s.agenda visit).cyclic.foldl Run.refuse r := rfl
  rw [hdone]
  obtain ⟨hcontent, hpending, hchanged⟩ := r.foldl_refuse (s.agenda visit).cyclic
  have hresults (c : Cell) := r.results_foldl_refuse c (s.agenda visit).cyclic
  have hfresh (c : Cell) := r.freshness_foldl_refuse c (s.agenda visit).cyclic
  refine ⟨hprogress.content.trans hcontent, hpending.trans hprogress.pending, fun c => ?_, fun c hc => ?_,
    fun c hc hf => ?_, fun c hc => ?_, fun c hc text reading he => ?_⟩
  · rw [hfresh]
    split
    · rfl
    · next hc =>
        apply hprogress.rested
        rw [hscheduled.covers]
        tauto
  · rw [hresults, hprogress.content.isFormula, if_neg]
    · exact hprogress.untouched c (hc.imp_left And.left)
    · rintro ⟨hcyclic, hf⟩
      rcases hc with hc | hc
      · exact hc.2 hcyclic
      · simp [hc] at hf
  · rw [hresults, hprogress.content.isFormula, if_pos ⟨hc, hf⟩]
  · rw [hchanged]
    exact hprogress.changed c hc
  · have hleft (p : Cell) (hp : p ∉ (s.agenda visit).cyclic) :
        ((s.agenda visit).cyclic.foldl Run.refuse r).sheet.results[p]? = r.sheet.results[p]? := by
      rw [hresults, if_neg fun h => hp h.1]
    have hlater (p : Cell) (hp : p ∈ (s.agenda visit).order) : p ∉ (s.agenda visit).cyclic :=
      fun hcyclic => hscheduled.apart p hcyclic hp
    refine (hprogress.done c hc text reading he).frame he (hleft c (hlater c hc)) (by rw [hchanged])
      hcontent.rowCount fun p hp => ⟨by rw [hchanged], hcontent.value (hleft p ?_)⟩
    -- what a cell of the order reads is in the order, or is not to be brought up to date at all
    intro hcyclic
    obtain ⟨i, hi, hic⟩ := List.getElem_of_mem hc
    have hget : (s.agenda visit).order[i]? = some c := by rw [List.getElem?_eq_getElem hi, hic]
    have hpc := (hscheduled.covers p).mpr (.inr hcyclic)
    have hp := hscheduled.behind i c hget p ((h.precedents c p).mpr hp) hpc
    exact hlater p (List.mem_of_mem_take hp) hcyclic

end LiveSheet.Sheet
