import LiveSheet.Proofs.View.Answers
import LiveSheet.Proofs.View.Computed

namespace LiveSheet

namespace World

variable {start w w' x : World} {history taken copied : List Move} {m : Move} {asked : Bool} {s : Stage}
  {visit : VisitOrder} {snapshot : Snapshot} {sheet : Sheet} {rows rows' : Nat}

def Removes (start : World) (history : List Move) : Prop :=
  ∃ before m u w, history = before ++ [m] ∧ start.run before = some u ∧ start.run history = some w ∧
    w.view.source.data.size < u.view.source.data.size

/-- Behind each removal of rows, a structural pass was asked for by the end of `taken`. -/
def Announced (start : World) (taken history : List Move) : Prop :=
  ∀ removed, removed <+: history → Removes start removed → AsksWithin start removed taken true

/-- A structural request waits, or there is a removal behind which none was made. -/
def Pends (start : World) (history : List Move) (w : World) : Prop :=
  w.view.tracker.isStructural = true ∨ ¬Announced start history history

def Yielded (start : World) (history : List Move) (t : Table) : Prop :=
  ∃ made w asked f, made <+: history ∧ start.run made = some w ∧
    w.view.worker.phase = .pass asked (.computed f) ∧ f.update.table = t

/-- The sheet has no row from `rows` on, and no mark of a cycle that no table has shown. -/
structure Tidy (start : World) (history : List Move) (sheet : Sheet) (rows : Nat) : Prop where
  rows : ∀ d ∈ sheet.entries, d.row < rows
  marks : ∀ d : Cell, sheet.results[d]? = some (.error .cycle) →
    ∃ t, Yielded start history t ∧ t.cell? d.row d.column = some (.error .cycle)

def Orderly (start : World) (history : List Move) (w : World) : Prop :=
  Tidy start history w.view.worker.sheet w.view.source.data.size ∨ Pends start history w

structure Copying (start : World) (taken copied : List Move) (asked : Bool) (x : World) (snapshot : Snapshot) :
    Prop where
  serves : Serves start taken asked copied
  run : start.run copied = some x
  phase : x.view.worker.phase = .pass asked .copying
  copy : x.view.source.data.snapshot = snapshot

structure Holding (start : World) (taken copied history : List Move) (asked : Bool) (x w : World)
    (snapshot : Snapshot) : Prop extends Copying start taken copied asked x snapshot where
  older : copied <+: history
  size : snapshot.size ≤ w.view.source.data.size ∨ Pends start history w
  live : snapshot.schema.Precedes w.view.source.data.schema

def Minds (start : World) (taken history : List Move) (w : World) (asked : Bool) : Stage → Prop
  | .woken | .beginning | .copying => (asked = true ∨ Orderly start history w) ∧
      (asked = false → Tidy start history w.view.worker.sheet w.view.source.data.size ∨
        ¬Announced start taken history)
  | .copied s | .noted s | .preparing s => ∃ copied x, Holding start taken copied history asked x w s ∧
      x.view.worker.schema? = w.view.worker.schema? ∧
      (∀ columns, w.view.worker.schema? = some columns → columns.Precedes s.schema) ∧
      (asked = true ∨ Tidy start history w.view.worker.sheet s.size ∨ Pends start history w) ∧
      (asked = false → Tidy start history w.view.worker.sheet s.size ∨ ¬Announced start taken copied)
  | .rebuilding s => ∃ copied x, Holding start taken copied history asked x w s ∧
      (asked = true ∨ x.view.worker.isForeign s = true)
  | .computing s rebuilt => ∃ copied x, Holding start taken copied history asked x w s ∧
      w.view.worker.schema? = some s.schema ∧
      (rebuilt = true ↔ asked = true ∨ x.view.worker.isForeign s = true) ∧
      (Tidy start history w.view.worker.sheet s.size ∨ Pends start history w) ∧
      (rebuilt = false → Tidy start history w.view.worker.sheet s.size ∨ ¬Announced start taken copied)
  | .failing | .recovering | .resting | .retrying => asked = true ∨ Orderly start history w
  | _ => w.view.isClosed = true ∨ Orderly start history w

def Heeds (start : World) (history : List Move) (w : World) : Phase → Prop
  | .pass asked s => ∃ taken, Serves start taken asked history ∧ Minds start taken history w asked s
  | .turning | .waiting | .finishing => w.view.isClosed = true ∨ Orderly start history w
  | .stopping | .stopped => True

structure Sorts (start : World) (history : List Move) (w : World) : Prop where
  stamped : w.view.source.data.IsStamped
  columns : ∀ columns, w.view.worker.schema? = some columns →
    columns.Precedes w.view.source.data.schema ∧
      ∀ d ∈ w.view.worker.sheet.entries, d.column < columns.value.width ∧ Cell.at? d.row d.column = some d
  heeds : Heeds start history w w.view.worker.phase

theorem Announced.of_longer (h : Announced start taken (history ++ [m])) : Announced start taken history :=
  fun removed hremoved => h removed (hremoved.trans (List.prefix_append history [m]))

theorem Pends.step (hrun : start.run history = some w)
    (hstructural : w'.view.tracker.isStructural = (w.view.tracker.isStructural || (w.requests m).any id))
    (h : Pends start history w ∨ Removes start (history ++ [m])) : Pends start (history ++ [m]) w' := by
  by_cases hasks : true ∈ w.requests m
  · left
    rw [hstructural, List.any_eq_true.mpr ⟨true, hasks, rfl⟩, Bool.or_true]
  · rcases h with (hpending | hwanting) | hremoves
    · left
      rw [hstructural, hpending, Bool.true_or]
    · refine .inr fun h => hwanting fun removed hremoved hremoves => ?_
      have hasked := h removed (hremoved.trans (List.prefix_append history [m])) hremoves
      exact ((asksWithin_concat hrun hremoved).mp hasked).resolve_right hasks
    · refine .inr fun h => hasks ?_
      obtain ⟨made, hsince, hmade, hasked⟩ := h _ (List.prefix_refl _) hremoves
      obtain rfl := hmade.eq_of_length_le hsince.length_le
      exact (asks_concat hrun).mp hasked

theorem Removes.not_announced (h : Removes start (history ++ [m])) (htaken : taken <+: history) :
    ¬Announced start taken (history ++ [m]) := by
  intro hannounced
  obtain ⟨made, hsince, hmade, -⟩ := hannounced _ (List.prefix_refl _) h
  have hlength := (hsince.trans (hmade.trans htaken)).length_le
  simp at hlength

theorem announced_of_asks {n : Nat} (hcopied : copied <+: history) (htaken : taken <+: history)
    (hremoves : ∀ i < history.length, ∀ u ∈ start.run (history.take i), ∀ w ∈ start.run (history.take (i + 1)),
      w.view.source.data.size < u.view.source.data.size → i < n)
    (hasks : Asks start (history.take n) true) (hn : n ≤ taken.length) : Announced start taken copied := by
  rintro removed hremoved ⟨before, m, u, w, rfl, hu, hw, hless⟩
  have hlonger := hremoved.trans hcopied
  have hbefore := (List.prefix_append before [m]).trans hlonger
  have hremoval : before ++ [m] = history.take (before.length + 1) := by
    simpa using List.prefix_iff_eq_take.mp hlonger
  have hindex : before.length < n := by
    refine hremoves before.length (by simpa using hlonger.length_le) u ?_ w ?_ hless
    · rwa [← List.prefix_iff_eq_take.mp hbefore]
    · rwa [← hremoval]
  refine ⟨history.take n, ?_, ?_, hasks⟩
  · rw [hremoval]
    exact List.take_isPrefix_take.mpr (.inl hindex)
  · rw [List.prefix_iff_eq_take.mp htaken]
    exact List.take_isPrefix_take.mpr (.inl hn)

theorem structural_step (hm : w.step m = some w') (hwork : ∀ visit fault?, m ≠ .work visit fault?) :
    w'.view.tracker.isStructural = (w.view.tracker.isStructural || (w.requests m).any id) := by
  by_cases hmarking : Steps .marking w m
  · obtain ⟨i, rfl, hc⟩ := hmarking
    simp only [step, hc, Call.step, View.closeStep, Option.map_some] at hm
    cases hm
    simp [requests, hc, Tracker.close]
  · rw [tracker_step hm hwork hmarking, Tracker.markAll_eq]

theorem Yielded.longer {t : Table} (h : Yielded start history t) : Yielded start (history ++ [m]) t := by
  obtain ⟨made, w, asked, f, hmade, h⟩ := h
  exact ⟨made, w, asked, f, hmade.trans (List.prefix_append history [m]), h⟩

theorem tidy_empty (start : World) (history : List Move) (rows : Nat) : Tidy start history .empty rows :=
  ⟨by simp [Sheet.empty], by simp [Sheet.empty]⟩

theorem Tidy.longer (h : Tidy start history sheet rows) : Tidy start (history ++ [m]) sheet rows :=
  ⟨h.rows, fun d hd => (h.marks d hd).imp fun _ ht => ht.imp_left Yielded.longer⟩

theorem Tidy.mono (h : Tidy start history sheet rows) (hrows : rows ≤ rows') : Tidy start history sheet rows' :=
  ⟨fun d hd => Nat.lt_of_lt_of_le (h.rows d hd) hrows, h.marks⟩

theorem Tidy.holds (h : Tidy start history sheet snapshot.size)
    (hcolumns : ∀ d ∈ sheet.entries, d.column < snapshot.width ∧ Cell.at? d.row d.column = some d) :
    ∀ d ∈ sheet.entries, snapshot.Holds d :=
  fun d hd => Snapshot.holds_iff.mpr ⟨⟨h.rows d hd, (hcolumns d hd).1⟩, (hcolumns d hd).2⟩

theorem le_or_removes (hrun : start.run history = some w) (hm : w.step m = some w') :
    w.view.source.data.size ≤ w'.view.source.data.size ∨ Removes start (history ++ [m]) :=
  (Nat.lt_or_ge w'.view.source.data.size w.view.source.data.size).symm.imp_right fun hsize =>
    ⟨history, m, w, w', rfl, hrun, run_append hrun hm, hsize⟩

structure Goes (start : World) (history : List Move) (m : Move) (w w' : World) : Prop where
  run : start.run history = some w
  step : w.step m = some w'
  structural : w'.view.tracker.isStructural = (w.view.tracker.isStructural || (w.requests m).any id)
  ages : w.view.Ages w'.view

structure Along (start : World) (history : List Move) (m : Move) (w w' : World) : Prop
    extends Goes start history m w w' where
  sheet : w'.view.worker.sheet = w.view.worker.sheet
  adopted : w'.view.worker.schema? = w.view.worker.schema?

theorem along_of_same (hrun : start.run history = some w) (hm : w.step m = some w') (hrequests : w.requests m = [])
    (hconfig : w'.view.config = w.view.config) (htracker : w'.view.tracker = w.view.tracker)
    (hdata : w'.view.source.data = w.view.source.data) (hsheet : w'.view.worker.sheet = w.view.worker.sheet)
    (hadopted : w'.view.worker.schema? = w.view.worker.schema?) : Along start history m w w' :=
  ⟨⟨hrun, hm, by simp [hrequests, htracker], View.ages_of_same hconfig htracker hdata⟩, hsheet, hadopted⟩

theorem Pends.goes (hg : Goes start history m w w') (h : Pends start history w) : Pends start (history ++ [m]) w' :=
  Pends.step hg.run hg.structural (.inl h)

theorem Removes.pends (hg : Goes start history m w w') (h : Removes start (history ++ [m])) :
    Pends start (history ++ [m]) w' :=
  Pends.step hg.run hg.structural (.inr h)

theorem Holding.goes (hg : Goes start history m w w') (hstamped : w.view.source.data.IsStamped)
    (h : Holding start taken copied history asked x w snapshot) :
    Holding start taken copied (history ++ [m]) asked x w' snapshot where
  toCopying := h.toCopying
  older := h.older.trans (List.prefix_append history [m])
  size := by
    rcases h.size with hsize | hpends
    · exact (le_or_removes hg.run hg.step).imp hsize.trans (Removes.pends hg)
    · exact .inr (hpends.goes hg)
  live := h.live.trans (hg.ages.data.precedes hstamped)

section Along

variable (ha : Along start history m w w')

include ha

theorem Orderly.along (h : Orderly start history w) : Orderly start (history ++ [m]) w' := by
  rcases h with htidy | hpends
  · rw [Orderly, ha.sheet]
    exact (le_or_removes ha.run ha.step).imp htidy.longer.mono (Removes.pends ha.toGoes)
  · exact .inr (hpends.goes ha.toGoes)

theorem Minds.along (hstamped : w.view.source.data.IsStamped) (htaken : taken <+: history)
    (h : Minds start taken history w asked s) : Minds start taken (history ++ [m]) w' asked s := by
  cases s with
  | woken | beginning | copying =>
      refine ⟨h.1.imp_right (Orderly.along ha), fun hasked => ?_⟩
      rcases h.2 hasked with htidy | hwanting
      · rw [ha.sheet]
        exact (le_or_removes ha.run ha.step).imp htidy.longer.mono fun hremoves => hremoves.not_announced htaken
      · exact .inr fun hannounced => hwanting hannounced.of_longer
  | copied s | noted s | preparing s =>
      obtain ⟨copied, x, hholding, hadopted, hcolumns, hpends, hasked⟩ := h
      refine ⟨copied, x, hholding.goes ha.toGoes hstamped, hadopted.trans ha.adopted.symm, ?_, ?_, ?_⟩
      · rw [ha.adopted]
        exact hcolumns
      · rw [ha.sheet]
        exact hpends.imp_right (Or.imp Tidy.longer (Pends.goes ha.toGoes))
      · rw [ha.sheet]
        exact fun h => (hasked h).imp_left Tidy.longer
  | rebuilding s =>
      obtain ⟨copied, x, hholding, hforeign⟩ := h
      exact ⟨copied, x, hholding.goes ha.toGoes hstamped, hforeign⟩
  | computing s rebuilt =>
      obtain ⟨copied, x, hholding, hadopted, hrebuilt, hpends, hkept⟩ := h
      refine ⟨copied, x, hholding.goes ha.toGoes hstamped, ha.adopted.trans hadopted, hrebuilt, ?_, ?_⟩
      · rw [ha.sheet]
        exact hpends.imp Tidy.longer (Pends.goes ha.toGoes)
      · rw [ha.sheet]
        exact fun h => (hkept h).imp_left Tidy.longer
  | failing | recovering | resting | retrying => exact Or.imp_right (Orderly.along ha) h
  | _ => exact Or.imp ha.ages.closed (Orderly.along ha) h

theorem Heeds.along (hstamped : w.view.source.data.IsStamped) (h : Heeds start history w w'.view.worker.phase) :
    Heeds start (history ++ [m]) w' w'.view.worker.phase := by
  cases hphase : w'.view.worker.phase with
  | pass asked s =>
      rw [hphase] at h
      obtain ⟨taken, hserves, hminds⟩ := h
      exact ⟨taken, hserves.since (run_append ha.run ha.step) (by rw [hphase]; rfl),
        Minds.along ha hstamped hserves.isPrefix hminds⟩
  | turning | waiting | finishing =>
      rw [hphase] at h
      exact Or.imp ha.ages.closed (Orderly.along ha) h
  | stopping | stopped => trivial

theorem Sorts.along (h : Sorts start history w) (hheeds : Heeds start history w w'.view.worker.phase) :
    Sorts start (history ++ [m]) w' := by
  refine ⟨ha.ages.data.stamped h.stamped, fun columns hcolumns => ?_, Heeds.along ha h.stamped hheeds⟩
  rw [ha.adopted] at hcolumns
  rw [ha.sheet]
  exact (h.columns columns hcolumns).imp_left (·.trans (ha.ages.data.precedes h.stamped))

end Along

theorem kept_perform (v : View) (visit : VisitOrder) (asked : Bool) (hrebuild : ∀ c, s ≠ .rebuilding c)
    (hcompute : ∀ c rebuilt, s ≠ .computing c rebuilt) :
    (v.perform visit asked s).worker.sheet = v.worker.sheet ∧
      (v.perform visit asked s).worker.schema? = v.worker.schema? := by
  cases s with
  | noted s | computed f | publishing f =>
      simp only [View.perform, View.checkOpen]
      split <;> exact ⟨rfl, rfl⟩
  | preparing s =>
      simp only [View.perform]
      split <;> exact ⟨rfl, rfl⟩
  | rebuilding s => exact absurd rfl (hrebuild s)
  | computing s rebuilt => exact absurd rfl (hcompute s rebuilt)
  | telling f notice? =>
      have hcore := v.core_tellAny notice?
      simp only [View.core, Prod.mk.injEq] at hcore
      obtain ⟨-, hworker, -, -⟩ := hcore
      exact ⟨congrArg (·.sheet) hworker, congrArg (·.schema?) hworker⟩
  | handing f =>
      obtain ⟨i, hi⟩ := v.exists_setIndicator v.worker.pass .applying
      simp only [View.perform, hi]
      exact ⟨rfl, rfl⟩
  | scheduling f | refused f e | comparing f | recovering | resting =>
      simp only [View.perform]
      split <;> exact ⟨rfl, rfl⟩
  | failing =>
      obtain ⟨i, hi⟩ := View.exists_setIndicator
        { v with counts := { v.counts with failures := v.counts.failures + 1 } } v.worker.pass .idle
      simp only [View.perform, hi]
      exact ⟨rfl, rfl⟩
  | _ => exact ⟨rfl, rfl⟩

theorem Serves.takes (h : Serves start taken asked history) : Takes start taken asked := by
  induction h with
  | begun h => exact h
  | since _ _ _ ih => exact ih

theorem heeds_perform (hrun : start.run history = some w) (hphase : w.view.worker.phase = .pass asked s)
    (h : Sorts start history w) (hserves : Serves start taken asked history)
    (hminds : Minds start taken history w asked s) (hrebuild : ∀ c, s ≠ .rebuilding c)
    (hcompute : ∀ c rebuilt, s ≠ .computing c rebuilt) (hretry : s ≠ .retrying) :
    Heeds start history w (w.view.perform visit asked s).worker.phase := by
  cases s with
  | woken | beginning | copied s => exact ⟨taken, hserves, hminds⟩
  | copying =>
      refine ⟨taken, hserves, history, w, ?_, rfl, fun columns hcolumns => (h.columns columns hcolumns).1, hminds⟩
      exact ⟨⟨hserves, hrun, hphase, rfl⟩, List.prefix_refl _, .inl (Nat.le_refl _), .refl _⟩
  | noted s =>
      simp only [View.perform, View.checkOpen]
      split
      · next hclosed => exact ⟨taken, hserves, .inl hclosed⟩
      · exact ⟨taken, hserves, hminds⟩
  | preparing s =>
      obtain ⟨copied, x, hholding, hadopted, hcolumns, hpends, hasked⟩ := hminds
      have hforeign : x.view.worker.isForeign s = w.view.worker.isForeign s := by
        simp only [Worker.isForeign, hadopted]
      simp only [View.perform]
      split
      · next hrebuilds =>
          refine ⟨taken, hserves, copied, x, hholding, ?_⟩
          rw [hforeign]
          exact Bool.or_eq_true_iff.mp hrebuilds
      · next hkeeps =>
          simp only [Bool.or_eq_true, not_or, Bool.not_eq_true] at hkeeps
          obtain ⟨rfl, hkeeps⟩ := hkeeps
          have hsame : w.view.worker.schema? = some s.schema := by
            cases hadopted' : w.view.worker.schema? with
            | none => simp [Worker.isForeign, hadopted'] at hkeeps
            | some columns =>
                have hstamp : columns.stamp = s.schema.stamp := by
                  simpa [Worker.isForeign, hadopted'] using hkeeps
                rw [(hcolumns columns hadopted').eq_of_stamp hstamp]
          refine ⟨taken, hserves, copied, x, hholding, hsame, ?_, by simpa using hpends, fun _ => hasked rfl⟩
          simp [hforeign, hkeeps]
  | rebuilding s => exact absurd rfl (hrebuild s)
  | computing s rebuilt => exact absurd rfl (hcompute s rebuilt)
  | computed f =>
      simp only [View.perform, View.checkOpen]
      split
      · exact ⟨taken, hserves, hminds⟩
      · split <;> exact ⟨taken, hserves, hminds⟩
  | publishing f =>
      simp only [View.perform, View.checkOpen]
      split <;> exact ⟨taken, hserves, hminds⟩
  | handing f =>
      obtain ⟨i, hi⟩ := w.view.exists_setIndicator w.view.worker.pass .applying
      simp only [View.perform, hi]
      exact ⟨taken, hserves, hminds⟩
  | scheduling f | comparing f =>
      simp only [View.perform]
      split <;> exact ⟨taken, hserves, hminds⟩
  | refused f e =>
      simp only [View.perform]
      split
      · exact ⟨taken, hserves, hminds⟩
      · next hopen => exact ⟨taken, hserves, .inr (hminds.resolve_left hopen)⟩
  | succeeding => exact hminds
  | failing =>
      obtain ⟨i, hi⟩ := View.exists_setIndicator
        { w.view with counts := { w.view.counts with failures := w.view.counts.failures + 1 } } w.view.worker.pass .idle
      simp only [View.perform, hi]
      exact ⟨taken, hserves, hminds⟩
  | recovering | resting =>
      simp only [View.perform]
      split
      · next hclosed => exact .inl hclosed
      · exact ⟨taken, hserves, hminds⟩
  | retrying => exact absurd rfl hretry
  | _ => exact ⟨taken, hserves, hminds⟩

theorem goes_perform (hrun : start.run history = some w) (hphase : w.view.worker.phase = .pass asked s)
    (hm : w.step (.work visit none) = some { w with view := w.view.perform visit asked s }) :
    Goes start history (.work visit none) w { w with view := w.view.perform visit asked s } where
  run := hrun
  step := hm
  structural := by
    rw [View.tracker_perform, Tracker.markAll_eq]
    simp [requests, hphase]
  ages := w.view.ages_perform visit asked s

theorem along_perform (hrun : start.run history = some w) (hphase : w.view.worker.phase = .pass asked s)
    (hm : w.step (.work visit none) = some { w with view := w.view.perform visit asked s })
    (hrebuild : ∀ c, s ≠ .rebuilding c) (hcompute : ∀ c rebuilt, s ≠ .computing c rebuilt) :
    Along start history (.work visit none) w { w with view := w.view.perform visit asked s } := by
  obtain ⟨hsheet, hadopted⟩ := kept_perform w.view visit asked hrebuild hcompute
  exact ⟨goes_perform hrun hphase hm, hsheet, hadopted⟩

theorem sorts_retrying (hrun : start.run history = some w) (hphase : w.view.worker.phase = .pass asked .retrying)
    (hm : w.step (.work visit none) = some { w with view := w.view.perform visit asked .retrying })
    (h : Sorts start history w) (hminds : asked = true ∨ Orderly start history w) :
    Sorts start (history ++ [.work visit none]) { w with view := w.view.perform visit asked .retrying } := by
  have ha := along_perform hrun hphase hm (by simp) (by simp)
  refine ⟨h.stamped, h.columns, .inr ?_⟩
  rcases hminds with rfl | horderly
  · refine .inr (.inl ?_)
    simp [View.perform, View.stand, View.mark, Tracker.mark]
  · exact horderly.along ha

theorem sorts_rebuilding (hrun : start.run history = some w)
    (hphase : w.view.worker.phase = .pass asked (.rebuilding snapshot))
    (hm : w.step (.work visit none) = some { w with view := w.view.perform visit asked (.rebuilding snapshot) })
    (h : Sorts start history w) (hserves : Serves start taken asked history)
    (hminds : Minds start taken history w asked (.rebuilding snapshot)) :
    Sorts start (history ++ [.work visit none])
      { w with view := w.view.perform visit asked (.rebuilding snapshot) } := by
  have hg := goes_perform hrun hphase hm
  obtain ⟨copied, x, hholding, hrebuilds⟩ := hminds
  refine ⟨h.stamped, fun columns hcolumns => ?_, taken, hserves.since (run_append hrun hm) rfl, copied, x,
    hholding.goes hg h.stamped, rfl, iff_of_true rfl hrebuilds, .inl (tidy_empty _ _ _), by simp⟩
  obtain rfl := Option.some.inj hcolumns
  exact ⟨hholding.live, fun d hd => by simp [View.perform, View.onto, View.stand, View.leaveSilence, Sheet.empty] at hd⟩

theorem sorts_computing {rebuilt : Bool} (hrun : start.run history = some w)
    (hphase : w.view.worker.phase = .pass asked (.computing snapshot rebuilt))
    (hm : w.step (.work visit none) =
      some { w with view := w.view.perform visit asked (.computing snapshot rebuilt) })
    (h : Sorts start history w) (hsettled : w.view.worker.sheet.Settled) (hserves : Serves start taken asked history)
    (hminds : Minds start taken history w asked (.computing snapshot rebuilt)) :
    Sorts start (history ++ [.work visit none])
      { w with view := w.view.perform visit asked (.computing snapshot rebuilt) } := by
  have hg := goes_perform hrun hphase hm
  obtain ⟨copied, x, hholding, hadopted, -, hpends, -⟩ := hminds
  have hentries (d : Cell)
      (hd : d ∈ (w.view.worker.sheet.runPass visit snapshot w.view.config.formulaCeiling?).1.entries) :=
    Sheet.holds_or_mem_runPass snapshot hsettled.toSound hd
  obtain ⟨hcolumns, hplaces⟩ := h.columns _ hadopted
  refine ⟨h.stamped, fun columns hcolumns' => ?_, taken, hserves.since (run_append hrun hm) rfl, .inr ?_⟩
  · obtain rfl := Option.some.inj (hadopted.symm.trans hcolumns')
    refine ⟨hcolumns, fun d hd => ?_⟩
    rcases hentries d hd with hd | hd
    · obtain ⟨⟨-, hcolumn⟩, hat⟩ := Snapshot.holds_iff.mp hd
      exact ⟨hcolumn, hat⟩
    · exact hplaces d hd
  · rcases hpends with htidy | hpends
    · rcases hholding.size with hsize | hpends
      · refine .inl (Tidy.mono ⟨fun d hd => ?_, fun d hd => ?_⟩ hsize)
        · exact (hentries d hd).elim (fun hd => (Snapshot.holds_iff.mp hd).1.1) (htidy.rows d)
        · cases hceiling : w.view.config.formulaCeiling?.any (· < snapshot.size) with
          | true =>
              have hsame : (w.view.worker.sheet.runPass visit snapshot w.view.config.formulaCeiling?).1 =
                  w.view.worker.sheet := by simp [Sheet.runPass, hceiling]
              refine (htidy.longer.marks d ?_)
              rw [← hsame]
              exact hd
          | false =>
              refine ⟨_, ⟨_, _, asked, _, List.prefix_refl _, run_append hrun hm, rfl, rfl⟩, ?_⟩
              exact Sheet.cell?_of_results snapshot hsettled.toSound (htidy.holds hplaces) hceiling hd
      · exact .inr (hpends.goes hg)
    · exact .inr (hpends.goes hg)

theorem sorts_perform (hrun : start.run history = some w) (hphase : w.view.worker.phase = .pass asked s)
    (hm : w.step (.work visit none) = some { w with view := w.view.perform visit asked s })
    (h : Sorts start history w) (hsettled : w.view.worker.sheet.Settled) :
    Sorts start (history ++ [.work visit none]) { w with view := w.view.perform visit asked s } := by
  have hheeds := h.heeds
  rw [hphase] at hheeds
  obtain ⟨taken, hserves, hminds⟩ := hheeds
  cases s with
  | rebuilding s => exact sorts_rebuilding hrun hphase hm h hserves hminds
  | computing s rebuilt => exact sorts_computing hrun hphase hm h hsettled hserves hminds
  | retrying => exact sorts_retrying hrun hphase hm h hminds
  | _ =>
      exact h.along (along_perform hrun hphase hm (by simp) (by simp))
        (heeds_perform hrun hphase h hserves hminds (by simp) (by simp) (by simp))

theorem sorts_disturb {fault : PassError} {v : View} (hrun : start.run history = some w)
    (hphase : w.view.worker.phase = .pass asked s) (hv : w.view.disturb asked s fault = some v)
    (hm : w.step (.work visit (some fault)) = some { w with view := v }) (h : Sorts start history w) :
    Sorts start (history ++ [.work visit (some fault)]) { w with view := v } := by
  have hheeds := h.heeds
  rw [hphase] at hheeds
  obtain ⟨taken, hserves, hminds⟩ := hheeds
  unfold View.disturb at hv
  split at hv
  · cases hv
    exact h.along (along_of_same hrun hm rfl rfl rfl rfl rfl rfl)
      ⟨taken, hserves, hminds.1⟩
  · cases hv
    refine h.along (along_of_same hrun hm rfl rfl rfl rfl rfl rfl)
      ⟨taken, hserves, ?_⟩
    obtain ⟨copied, x, hholding, -, -, hpends, -⟩ := hminds
    refine hpends.imp_right fun hpends => ?_
    rcases hpends with htidy | hpends
    · exact hholding.size.imp htidy.mono id
    · exact .inr hpends
  · cases hv
    exact h.along (along_of_same hrun hm rfl rfl rfl rfl rfl rfl)
      ⟨taken, hserves, hminds⟩
  · -- a pass that breaks leaves an empty sheet
    split at hv
    · cases hv
      have hserves' := hserves.since (run_append hrun hm) rfl
      cases s.isSilent <;>
        exact ⟨h.stamped, fun _ hcolumns => (nomatch hcolumns), taken, hserves', .inr (.inl (tidy_empty _ _ _))⟩
    · cases hv
  · cases hv

theorem sorts_takes {tracker : Tracker} {v : View} (hrun : start.run history = some w)
    (hphase : w.view.worker.phase = .waiting) (htake : w.view.tracker.take = (tracker, some (.recompute asked)))
    (hv : v = ({ w.view with tracker := tracker } : View).onto asked .woken)
    (hm : w.step (.work visit none) = some { w with view := v }) (h : Sorts start history w) :
    Sorts start (history ++ [.work visit none]) { w with view := v } := by
  subst hv
  have hheeds := h.heeds
  rw [hphase] at hheeds
  obtain ⟨hopen, rfl⟩ : w.view.isClosed = false ∧ w.view.tracker.isStructural = asked := by
    unfold Tracker.take at htake
    split at htake
    · cases htake
    · next hopen =>
        split at htake <;> cases htake
        exact ⟨Bool.eq_false_of_not_eq_true hopen, rfl⟩
  have horderly : Orderly start history w := hheeds.resolve_left (by simp [hopen])
  have hrun' := run_append hrun hm
  have htakes : Takes start (history ++ [.work visit none]) w.view.tracker.isStructural :=
    ⟨history, _, w, _, rfl, hrun, hphase, hrun', rfl⟩
  have hwanting (hasked : w.view.tracker.isStructural = false) (hpends : Pends start history w) :
      ¬Announced start (history ++ [.work visit none]) (history ++ [.work visit none]) := by
    refine fun hannounced => (hpends.resolve_left (by simp [hasked])) fun removed hremoved hremoves => ?_
    have hwithin := hannounced removed (hremoved.trans (List.prefix_append history _)) hremoves
    refine ((asksWithin_concat hrun hremoved).mp hwithin).resolve_right ?_
    simp [requests, hphase]
  refine ⟨h.stamped, h.columns, _, .begun htakes, ?_, fun hasked => ?_⟩
  · cases hasked : w.view.tracker.isStructural with
    | true => exact .inl rfl
    | false => exact .inr (horderly.imp Tidy.longer fun hpends => .inr (hwanting hasked hpends))
  · exact horderly.imp Tidy.longer (hwanting hasked)

theorem sorts_work {fault? : Option PassError} (hrun : start.run history = some w) (h : Sorts start history w)
    (hsettled : w.view.worker.sheet.Settled) (hm : w.step (.work visit fault?) = some w') :
    Sorts start (history ++ [.work visit fault?]) w' := by
  obtain ⟨v, hv, rfl⟩ := Option.map_eq_some_iff.mp hm
  have hheeds (p : Phase) (hphase : w.view.worker.phase = p) : Heeds start history w p := hphase ▸ h.heeds
  unfold View.work at hv
  split at hv
  · next hphase =>
      cases hv
      exact h.along (along_of_same hrun hm (by simp [requests, hphase]) rfl rfl rfl rfl rfl)
        (hheeds .turning hphase)
  · next hphase =>
      split at hv
      · cases hv
      · next tracker htake =>
          cases hv
          obtain rfl : w.view.tracker = tracker := by
            unfold Tracker.take at htake
            split at htake
            · cases htake
              rfl
            · split at htake <;> cases htake
          exact h.along (along_of_same hrun hm (by simp [requests, hphase]) rfl rfl rfl rfl rfl)
            trivial
      · next tracker asked htake =>
          cases hv
          exact sorts_takes hrun hphase htake rfl hm h
  · next hphase =>
      cases hv
      exact sorts_perform hrun hphase hm h hsettled
  · next hphase => exact sorts_disturb hrun hphase hv hm h
  · next hphase =>
      cases hv
      refine h.along ⟨⟨hrun, hm, ?_, ⟨rfl, id, id, .refl _⟩⟩, rfl, rfl⟩ (hheeds .finishing hphase)
      simp [requests, hphase, View.stand, Tracker.finish]
  · next hphase =>
      cases hv
      exact h.along (along_of_same hrun hm (by simp [requests, hphase]) rfl rfl rfl rfl rfl) trivial
  · cases hv

theorem sorts_step (hrun : start.run history = some w) (h : Sorts start history w)
    (hsettled : w.view.worker.sheet.Settled) (hm : w.step m = some w') : Sorts start (history ++ [m]) w' := by
  rcases work_or_beside hm with ⟨visit, fault?, v, rfl, -, rfl⟩ | hother
  · exact sorts_work hrun h hsettled hm
  · have hworker := worker_step hm hother
    refine h.along ⟨⟨hrun, hm, structural_step hm hother, ages_step hm hother⟩, congrArg Worker.sheet hworker,
      congrArg Worker.schema? hworker⟩ ?_
    rw [hworker]
    exact h.heeds

theorem sorts_run {source : Source Unit} {config : Config} {v : View} (hsource : source.data.IsStamped)
    (hstart : View.start source config = .ok v) (hrun : World.run ⟨v, [], none, []⟩ history = some w) :
    Sorts ⟨v, [], none, []⟩ history w := by
  refine run_induction (motive := fun history w => Sorts ⟨v, [], none, []⟩ history w) hrun ?_
    fun before u m u' hu hm h => sorts_step hu h (accounts_run hstart hu).settled hm
  obtain rfl := View.opened_of_start hstart
  exact ⟨hsource, fun _ hcolumns => (nomatch hcolumns), .inr (.inr (.inl rfl))⟩

end World

end LiveSheet
