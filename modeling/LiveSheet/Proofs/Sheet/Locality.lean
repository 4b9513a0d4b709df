import LiveSheet.Proofs.Sheet.Cycle

namespace LiveSheet

def Operation.target? : Operation → Option Cell
  | .enterText row column _ => some ⟨row, column⟩
  | .enterValue row column _ => some ⟨row, column⟩
  | .clear row column => some ⟨row, column⟩
  | .setRowCount _ => none
  | .reset => none
  | .recalculate _ => none

namespace Sheet

structure EditedWithin (cells : List Cell) (s t : Sheet) : Prop where
  entries : ∀ c : Cell, c ∉ cells → t.entries[c]? = s.entries[c]?
  results : ∀ c : Cell, c ∉ cells → t.results[c]? = s.results[c]?
  pending : ∀ c ∈ t.pending, c ∈ s.pending ∨ c ∈ cells

variable {cells : List Cell} {s t u : Sheet} {d : Cell}

theorem EditedWithin.refl (cells : List Cell) (s : Sheet) : EditedWithin cells s s :=
  ⟨fun _ _ => rfl, fun _ _ => rfl, fun _ hc => .inl hc⟩

theorem EditedWithin.trans (h : EditedWithin cells s t) (k : EditedWithin cells t u) : EditedWithin cells s u :=
  ⟨fun c hc => (k.entries c hc).trans (h.entries c hc), fun c hc => (k.results c hc).trans (h.results c hc),
    fun c hc => (k.pending c hc).elim (h.pending c) .inr⟩

theorem EditedWithin.value (h : EditedWithin cells s t) {c : Cell} (hc : c ∉ cells) : t.value c = s.value c := by
  unfold Sheet.value
  rw [h.entries c hc, h.results c hc]

theorem Edited.within (h : Edited s t d) (hd : d ∈ cells) : EditedWithin cells s t := by
  have hne (c : Cell) (hc : c ∉ cells) : c ≠ d := fun hcd => hc (hcd ▸ hd)
  refine ⟨fun c hc => h.entries c (hne c hc), fun c hc => h.results c (hne c hc), fun c hc => ?_⟩
  rcases (h.pending c).mp hc with rfl | hc
  · exact .inr hd
  · exact .inl hc

section

variable (h : Sound s) (hd : d ∈ cells)

include h hd

theorem editedWithin_enterValue (v : Value) : EditedWithin cells s (s.enterValue d v) := by
  by_cases hv : s.holdsValue d v = true
  · rw [show s.enterValue d v = s by simp [enterValue, hv]]
    exact .refl cells s
  · exact (edited_enterValue h hv).within hd

theorem editedWithin_enterText (text : String) : EditedWithin cells s (s.enterText d text) := by
  unfold enterText
  split
  · by_cases hholds : s.formulaText? d = some text
    · rw [show s.enterFormula d text = s by simp [enterFormula, hholds]]
      exact .refl cells s
    · exact (edited_enterFormula hholds).within hd
  · exact editedWithin_enterValue h hd _

theorem editedWithin_clear : EditedWithin cells s (s.clear d) := by
  by_cases hmem : d ∈ s.entries
  · exact (edited_clear h hmem).within hd
  · rw [show s.clear d = s by simp [clear, hmem]]
    exact .refl cells s

end

theorem editedWithin_perform (h : Sound s) {operation : Operation} (htarget : operation.target? = some d)
    (hd : d ∈ cells) : EditedWithin cells s (s.perform operation) := by
  cases operation with
  | enterText row column text =>
      obtain rfl := Option.some.inj htarget
      simp only [perform, enterTextAt]
      split
      · next c hc => exact editedWithin_enterText h (Cell.eq_of_at? hc ▸ hd) text
      · exact .refl cells s
  | enterValue row column v =>
      obtain rfl := Option.some.inj htarget
      simp only [perform, enterValueAt]
      split
      · next c hc => exact editedWithin_enterValue h (Cell.eq_of_at? hc ▸ hd) v
      · exact .refl cells s
  | clear row column =>
      obtain rfl := Option.some.inj htarget
      simp only [perform, clearAt]
      split
      · next c hc => exact editedWithin_clear h (Cell.eq_of_at? hc ▸ hd)
      · exact .refl cells s
  | setRowCount rows => cases htarget
  | reset => cases htarget
  | recalculate visit => cases htarget

theorem editedWithin_foldl {l : Ledger} (h : Keeps s l) (edits : List Operation)
    (hedits : ∀ e ∈ edits, ∃ d ∈ cells, e.target? = some d) : EditedWithin cells s (edits.foldl perform s) := by
  induction edits generalizing s l with
  | nil => exact .refl cells s
  | cons edit edits ih =>
      obtain ⟨d, hd, htarget⟩ := hedits edit List.mem_cons_self
      have hfirst := editedWithin_perform h.sound htarget hd
      exact hfirst.trans (ih (h.perform edit) fun e he => hedits e (List.mem_cons_of_mem edit he))

theorem value_recalculate_of_unreached (h : Sound s) (visit : VisitOrder) {c : Cell}
    (hapart : ∀ p ∈ s.pending, ¬Relation.ReflTransGen (Entries.Reads s.entries) c p) :
    (s.recalculate visit).1.value c = s.value c := by
  have hunaffected : c ∉ s.affected visit := by
    rw [mem_affected visit h]
    rintro ⟨p, hp, -, hcp⟩
    exact hapart p hp hcp
  rw [mem_affected_iff visit h, not_or] at hunaffected
  have hr := refreshed_refresh h visit
  rw [value_recalculate visit h, hr.content.value (hr.untouched c (.inl hunaffected))]

/-- A batch of edits and a recalculation leave alone what leads to none of the edited cells afterwards. -/
theorem edits_local (history edits : List Operation) (visit visit' : VisitOrder)
    (hedits : ∀ e ∈ edits, e.target?.isSome = true) (row column : Nat)
    (hapart : ∀ c ∈ edits.filterMap Operation.target?, ¬Relation.ReflTransGen
      (Entries.Reads (Ledger.ofHistory (history ++ .recalculate visit :: edits)).entries) ⟨row, column⟩ c) :
    (after (history ++ .recalculate visit :: edits ++ [.recalculate visit'])).valueAt row column =
      (after (history ++ [.recalculate visit])).valueAt row column := by
  let s := after (history ++ [.recalculate visit])
  let t := after (history ++ .recalculate visit :: edits)
  have hs := keeps_after (history ++ [.recalculate visit])
  have ht := keeps_after (history ++ .recalculate visit :: edits)
  have hst : t = edits.foldl perform s := by simp [s, t, after]
  have hpending : s.pending = ∅ := by
    simp only [s, after, List.foldl_append]
    exact pending_recalculate visit (keeps_after history).sound
  have hwithin : EditedWithin (edits.filterMap Operation.target?) s t := by
    rw [hst]
    refine editedWithin_foldl hs edits fun e he => ?_
    obtain ⟨d, hd⟩ := Option.isSome_iff_exists.mp (hedits e he)
    exact ⟨d, List.mem_filterMap.mpr ⟨e, he, hd⟩, hd⟩
  have hlast : after (history ++ .recalculate visit :: edits ++ [.recalculate visit']) = (t.recalculate visit').1 := by
    simp [t, after, perform]
  rw [hlast]
  unfold valueAt
  cases hc : Cell.at? row column with
  | none => rfl
  | some c =>
      obtain rfl := Cell.eq_of_at? hc
      rw [ht.entries.reads_eq] at hapart
      have hunread (p : Cell) (hp : p ∈ t.pending) :
          ¬Relation.ReflTransGen (Entries.Reads t.entries) ⟨row, column⟩ p := by
        rcases hwithin.pending p hp with hp | hp
        · simp [hpending] at hp
        · exact hapart p hp
      have houtside : (⟨row, column⟩ : Cell) ∉ edits.filterMap Operation.target? := fun hmem => hapart _ hmem .refl
      calc (t.recalculate visit').1.value ⟨row, column⟩
        _ = t.value ⟨row, column⟩ := value_recalculate_of_unreached ht.sound visit' hunread
        _ = s.value ⟨row, column⟩ := hwithin.value houtside

theorem edits_local_beside_cycles :
    let history : List Operation := [.enterText 0 0 "=B1", .enterText 0 1 "=A1", .enterText 0 2 "=D1",
      .enterText 0 3 "=C1"]
    let edits : List Operation := [.enterText 0 3 "=)", .enterText 0 4 "=A1+E1", .clear 0 5]
    let m := (Ledger.ofHistory (history ++ .recalculate .ascending :: edits)).entries
    (∀ e ∈ edits, e.target?.isSome = true) ∧
      (∀ c ∈ edits.filterMap Operation.target?, ¬Relation.ReflTransGen (Entries.Reads m) ⟨0, 1⟩ c) ∧
      (after (history ++ .recalculate .ascending :: edits ++ [.recalculate .ascending])).valueAt 0 1 =
        (after (history ++ [.recalculate .ascending])).valueAt 0 1 := by
  intro history edits m
  have hedits : ∀ e ∈ edits, e.target?.isSome = true := by simp [edits, Operation.target?]
  have hclosed : ∀ p ∈ m.toList, p.1.column ≤ 1 → ∀ d ∈ p.2.precedents, d.column ≤ 1 := by decide +kernel
  have hapart : ∀ c ∈ edits.filterMap Operation.target?, ¬Relation.ReflTransGen (Entries.Reads m) ⟨0, 1⟩ c := by
    intro c hc hreaches
    have hleft : c.column ≤ 1 := Entries.closed_of_reaches (P := fun d => d.column ≤ 1) hclosed (Nat.le_refl 1) hreaches
    have hright : ∀ c ∈ edits.filterMap Operation.target?, 1 < c.column := by decide
    exact Nat.not_lt.mpr hleft (hright c hc)
  exact ⟨hedits, hapart, edits_local history edits .ascending .ascending hedits 0 1 hapart⟩

end Sheet

end LiveSheet
