import LiveSheet.Proofs.Sheet.History

namespace LiveSheet

def Entries.MeetsCycle (m : CellMap Entry) (cells : CellSet) (c : Cell) : Prop :=
  ∃ d, Relation.ReflTransGen (Reads m) c d ∧ OnCycle m d ∧ ∃ p ∈ cells, Relation.ReflTransGen (Reads m) d p

namespace Sheet

variable {s : Sheet} {c : Cell}

def formulaValue (s : Sheet) (c : Cell) : Outcome :=
  match s.entries[c]? with
  | some (.formula _ reading) => Run.compute s reading
  | _ => s.value c

section

variable (visit : VisitOrder) (h : Sound s)

include h

theorem mem_cyclic_iff_meetsCycle : c ∈ (s.agenda visit).cyclic ↔ Entries.MeetsCycle s.entries s.pending c := by
  rw [mem_cyclic_iff visit h]
  constructor
  · rintro ⟨d, hd, hcycle, hcd⟩
    obtain ⟨p, hp, -, hdp⟩ := (mem_affected visit h).mp hd
    exact ⟨d, hcd, hcycle, p, hp, hdp⟩
  · rintro ⟨d, hcd, hcycle, p, hp, hdp⟩
    refine ⟨d, ?_, hcycle, hcd⟩
    -- the last step of the cycle, or of the way to `p`, reads a pending cell or comes to an affected one
    rcases Relation.ReflTransGen.cases_tail hdp with rfl | ⟨q, hdq, hqp⟩
    · obtain ⟨x, hpx, -⟩ := Relation.TransGen.head'_iff.mp hcycle
      obtain ⟨text, f, he, -⟩ := Entries.exists_formula_of_reads hpx
      exact affected_of_formula visit h (isFormula_iff.mpr ⟨text, _, he⟩) hp
    · exact affected_of_reaches visit h hdq (affected_of_reads_pending visit h hqp hp)

theorem affected_of_due (hf : s.isFormula c = true) (hdue : Due s (s.refresh visit).changed c) :
    c ∈ s.affected visit := by
  rcases hdue with hp | ⟨p, hcp, hp⟩
  · exact affected_of_formula visit h hf hp
  · by_cases horder : p ∈ (s.agenda visit).order
    · exact affected_of_reads visit h hcp ((mem_affected_iff visit h).mpr (.inl horder))
    · have hchanged := (refreshed_refresh h visit).changed p (.inl horder)
      exact affected_of_reads_pending visit h hcp (hchanged.mp hp).1

theorem value_refresh_iff (hf : s.isFormula c = true) (hmeets : ¬Entries.MeetsCycle s.entries s.pending c) :
    (s.refresh visit).sheet.value c = .error .cycle ↔
      (Due s (s.refresh visit).changed c ∧ (s.refresh visit).sheet.formulaValue c = .error .cycle) ∨
        (¬Due s (s.refresh visit).changed c ∧ s.value c = .error .cycle) := by
  have hr := refreshed_refresh h visit
  obtain ⟨text, reading, he⟩ := isFormula_iff.mp hf
  have hcyclic : c ∉ (s.agenda visit).cyclic := by
    rw [mem_cyclic_iff_meetsCycle visit h]
    exact hmeets
  have hvalue : (s.refresh visit).sheet.formulaValue c = Run.compute (s.refresh visit).sheet reading := by
    simp [formulaValue, hr.content.entries, he]
  by_cases hdue : Due s (s.refresh visit).changed c
  · have horder : c ∈ (s.agenda visit).order :=
      ((mem_affected_iff visit h).mp (affected_of_due visit h hf hdue)).resolve_right hcyclic
    obtain ⟨result, hresult, ha, -⟩ := (hr.done c horder text reading he).computed hdue
    rw [value_of_result ((hr.content.isFormula c).trans hf) hresult, hvalue]
    simp only [hdue, true_and, not_true_eq_false, false_and, or_false]
    constructor
    · rintro rfl
      exact Outcome.eq_error_of_alike (Outcome.alike_symm ha)
    · intro hcycle
      rw [hcycle] at ha
      exact Outcome.eq_error_of_alike ha
  · have hsame : (s.refresh visit).sheet.results[c]? = s.results[c]? := by
      by_cases horder : c ∈ (s.agenda visit).order
      · exact ((hr.done c horder text reading he).spared hdue).1
      · exact hr.untouched c (.inl ⟨horder, hcyclic⟩)
    rw [hr.content.value hsame]
    simp [hdue]

theorem value_refresh_of_meetsCycle (hmeets : Entries.MeetsCycle s.entries s.pending c) :
    (s.refresh visit).sheet.value c = .error .cycle := by
  have hr := refreshed_refresh h visit
  have hcyclic := (mem_cyclic_iff_meetsCycle visit h).mpr hmeets
  obtain ⟨p, hcp, -⟩ := (scheduled_agenda h visit).stuck c hcyclic
  obtain ⟨text, f, he, -⟩ := Entries.exists_formula_of_reads ((h.precedents c p).mp hcp)
  have hf : s.isFormula c = true := isFormula_iff.mpr ⟨text, _, he⟩
  exact value_of_result ((hr.content.isFormula c).trans hf) (hr.refused c hcyclic hf)

theorem value_refresh_of_onCycle (hcycle : Entries.OnCycle s.entries c) :
    (s.refresh visit).sheet.value c = .error .cycle := by
  have hr := refreshed_refresh h visit
  obtain ⟨p, hcp, -⟩ := Relation.TransGen.head'_iff.mp hcycle
  obtain ⟨text, f, he, -⟩ := Entries.exists_formula_of_reads hcp
  have hf : s.isFormula c = true := isFormula_iff.mpr ⟨text, _, he⟩
  exact value_of_result ((hr.content.isFormula c).trans hf) (circular_refresh visit h hcycle)

theorem value_recalculate : (s.recalculate visit).1.value c = (s.refresh visit).sheet.value c := by
  unfold recalculate
  split
  · next hempty =>
      have hr := refreshed_refresh h visit
      have hpending := Std.ExtTreeSet.isEmpty_iff.mp hempty
      have haffected : c ∉ s.affected visit := by
        rw [mem_affected visit h, hpending]
        simp
      rw [mem_affected_iff visit h] at haffected
      exact (hr.content.value (hr.untouched c (.inl (not_or.mp haffected)))).symm
  · rfl

end

/-- A formula shows the error of a cycle if it is on one, or leads to one that leads to a pending cell. Any other
does if it is due and comes to that error, or is not due and had it before. -/
theorem circular_iff (history : List Operation) (visit : VisitOrder) (row column : Nat)
    (hf : (after history).isFormula ⟨row, column⟩ = true) :
    let s := after history
    let t := after (history ++ [.recalculate visit])
    let m := (Ledger.ofHistory history).entries
    let due := Due s (s.refresh visit).changed ⟨row, column⟩
    t.valueAt row column = .error .cycle ↔
      Entries.OnCycle m ⟨row, column⟩ ∨ Entries.MeetsCycle m s.pending ⟨row, column⟩ ∨
        (due ∧ t.formulaValue ⟨row, column⟩ = .error .cycle) ∨
        (¬due ∧ s.value ⟨row, column⟩ = .error .cycle) := by
  intro s t m due
  have hkeeps := keeps_after history
  have h : Sound s := hkeeps.sound
  have hreads : Entries.Reads m = Entries.Reads s.entries := hkeeps.entries.reads_eq
  have ht : t = (s.recalculate visit).1 := by simp [t, s, after, perform]
  have hat : Cell.at? row column = some ⟨row, column⟩ := by
    apply (Ledger.valid_ofHistory history).within ⟨row, column⟩
    have hc := hkeeps.entries ⟨row, column⟩
    rw [Std.ExtTreeMap.mem_iff_isSome_getElem?]
    obtain ⟨text, reading, he⟩ := isFormula_iff.mp hf
    rw [he] at hc
    cases hm : (Ledger.ofHistory history).entries[(⟨row, column⟩ : Cell)]? with
    | none => simp [hm] at hc
    | some e => rfl
  have hvalue : t.valueAt row column = (s.refresh visit).sheet.value ⟨row, column⟩ := by
    simp only [valueAt, hat, ht, value_recalculate visit h]
  have hformula (hdue : due) : t.formulaValue ⟨row, column⟩ = (s.refresh visit).sheet.formulaValue ⟨row, column⟩ := by
    obtain ⟨p, hp, -⟩ := (mem_affected visit h).mp (affected_of_due visit h hf hdue)
    have hnonempty : ¬s.pending.isEmpty = true := by
      rw [Std.ExtTreeSet.isEmpty_iff]
      intro hempty
      simp [hempty] at hp
    rw [ht, recalculate, if_neg hnonempty]
  unfold Entries.OnCycle Entries.MeetsCycle Entries.OnCycle
  rw [hreads, hvalue]
  constructor
  · intro hcycle
    by_cases hmeets : Entries.MeetsCycle s.entries s.pending ⟨row, column⟩
    · exact .inr (.inl hmeets)
    · rcases (value_refresh_iff visit h hf hmeets).mp hcycle with ⟨hdue, hc⟩ | hkept
      · exact .inr (.inr (.inl ⟨hdue, (hformula hdue).trans hc⟩))
      · exact .inr (.inr (.inr hkept))
  · intro hcause
    by_cases hmeets : Entries.MeetsCycle s.entries s.pending ⟨row, column⟩
    · exact value_refresh_of_meetsCycle visit h hmeets
    · rcases hcause with hcycle | hmeets' | ⟨hdue, hc⟩ | hkept
      · exact value_refresh_of_onCycle visit h hcycle
      · exact absurd hmeets' hmeets
      · exact (value_refresh_iff visit h hf hmeets).mpr (.inl ⟨hdue, (hformula hdue).symm.trans hc⟩)
      · exact (value_refresh_iff visit h hf hmeets).mpr (.inr hkept)

theorem circular_iff_behind_old_cycle :
    let history : List Operation := [.enterText 0 0 "=A1", .recalculate .ascending, .enterText 0 1 "=COUNT(A1)"]
    let s := after history
    let t := after (history ++ [.recalculate .ascending])
    let m := (Ledger.ofHistory history).entries
    let due := Due s (s.refresh .ascending).changed ⟨0, 1⟩
    s.isFormula ⟨0, 1⟩ = true ∧ (t.valueAt 0 1 = .error .cycle ↔
      Entries.OnCycle m ⟨0, 1⟩ ∨ Entries.MeetsCycle m s.pending ⟨0, 1⟩ ∨
        (due ∧ t.formulaValue ⟨0, 1⟩ = .error .cycle) ∨ (¬due ∧ s.value ⟨0, 1⟩ = .error .cycle)) := by
  intro history
  have hf : (after history).isFormula ⟨0, 1⟩ = true := by decide +kernel
  exact ⟨hf, circular_iff history .ascending 0 1 hf⟩

/-- A formula that counts the numbers in a cell of an old cycle comes to none, and not to the error of the cycle. -/
theorem entangled_not_circular : ¬∀ (history : List Operation) (visit : VisitOrder) (row column : Nat),
    (after history).isFormula ⟨row, column⟩ = true →
    Entries.Entangled (Ledger.ofHistory history).entries ⟨row, column⟩ →
    (after (history ++ [.recalculate visit])).valueAt row column = .error .cycle := by
  intro h
  let history : List Operation := [.enterText 0 0 "=A1", .recalculate .ascending, .enterText 0 1 "=COUNT(A1)"]
  have hcycle : Entries.Reads (Ledger.ofHistory history).entries ⟨0, 0⟩ ⟨0, 0⟩ := by decide +kernel
  have hreads : Entries.Reads (Ledger.ofHistory history).entries ⟨0, 1⟩ ⟨0, 0⟩ := by decide +kernel
  have hvalue := h history .ascending 0 1 (by decide +kernel) ⟨⟨0, 0⟩, .single hreads, .single hcycle⟩
  have hzero : (after (history ++ [.recalculate .ascending])).valueAt 0 1 = .ok (.number 0) := by decide +kernel
  rw [hzero] at hvalue
  cases hvalue

end Sheet

end LiveSheet
