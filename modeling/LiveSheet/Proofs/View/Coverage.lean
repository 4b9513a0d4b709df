import LiveSheet.Proofs.View.Following

namespace LiveSheet

theorem Sheet.revisions_runPass (s : Sheet) (visit : VisitOrder) (snapshot : Snapshot) (ceiling? : Option Nat) :
    (s.runPass visit snapshot ceiling?).2.1.revisions = snapshot.revisions := by
  unfold Sheet.runPass
  split <;> rfl

theorem View.checkOpen_of_open {v : View} (h : v.isClosed = false) (asked : Bool) (s : Stage) :
    v.checkOpen asked s = v.onto asked s := by
  simp [View.checkOpen, h]

namespace World

variable {w : World} {asked : Bool} {visit : VisitOrder}

theorem getLast?_trail {queue : List Publication} {p : Publication} {r : Revisions}
    (h : w.view.consumer.queue = queue ++ [p]) (hp : p.revisions = r) : w.trail.getLast? = some r := by
  simp [trail, publications, h, hp, List.getLast?_append]

theorem depth_enter {errands depth : Nat} (h : depth = false.toNat + errands) : depth + 1 = true.toNat + errands :=
  (congrArg (· + 1) (h.trans (Nat.zero_add _))).trans (Nat.add_comm _ 1)

theorem depth_leave {errands depth : Nat} (h : depth = true.toNat + errands) : depth - 1 = false.toNat + errands := by
  subst h
  exact (Nat.add_sub_cancel_left 1 errands).trans (Nat.zero_add errands).symm

theorem follows_perform {s : Stage} (h : Follows w (.pass asked s)) (hserving : w.view.IsServing) :
    Follows { w with view := w.view.perform visit asked s } (w.view.perform visit asked s).worker.phase := by
  obtain ⟨hopen, hconsumer⟩ := hserving
  obtain ⟨hflight, hreaches⟩ := h.stands
  cases s with
  | woken => exact ⟨h.ordinary, h.listened, h.depth, h.seen, h.compared, hflight, trivial⟩
  | beginning => exact ⟨h.ordinary, h.listened, h.depth, h.seen, h.compared, hflight, trivial⟩
  | copying => exact ⟨h.ordinary, h.listened, h.depth, h.seen, h.compared, hflight, h.seen, le_refl _⟩
  | copied s =>
      refine ⟨h.ordinary, h.listened, h.depth, hreaches.2, fun r hr => ?_, hflight, rfl⟩
      exact le_trans (h.compared r hr) hreaches.1
  | noted s =>
      simp only [View.perform, View.checkOpen_of_open hopen]
      exact ⟨h.ordinary, h.listened, h.depth, h.seen, h.compared, hflight, hreaches⟩
  | preparing s =>
      simp only [View.perform]
      split
      · refine ⟨h.ordinary, h.listened, ?_, h.seen, h.compared, hflight, hreaches⟩
        exact depth_enter h.depth
      · exact ⟨h.ordinary, h.listened, h.depth, h.seen, h.compared, hflight, hreaches⟩
  | rebuilding s =>
      refine ⟨h.ordinary, h.listened, ?_, h.seen, h.compared, hflight, hreaches⟩
      exact depth_leave h.depth
  | computing s rebuilt =>
      refine ⟨h.ordinary, h.listened, h.depth, h.seen, h.compared, hflight, ?_⟩
      exact (w.view.worker.sheet.revisions_runPass visit s _).trans hreaches
  | computed f =>
      simp only [View.perform, View.checkOpen_of_open hopen]
      split
      · exact ⟨h.ordinary, h.listened, h.depth, h.seen, h.compared, hflight, hreaches⟩
      · exact ⟨h.ordinary, h.listened, h.depth, h.seen, h.compared, hflight, hreaches⟩
  | silencing f =>
      refine ⟨h.ordinary, h.listened, ?_, h.seen, h.compared, hflight, hreaches⟩
      exact depth_enter h.depth
  | storing f =>
      have hlive : (w.view.source.storeResults f.update.table).1.data.revisions = w.view.live :=
        w.view.source.data.revisions_storeResults f.update.table
      exact ⟨h.ordinary, h.listened, h.depth, le_of_le_of_eq h.seen hlive.symm, h.compared, hflight, hreaches⟩
  | telling f notice? =>
      have hdepth := h.depth
      have hkept : w.view.silence.isKept = true := by
        rw [Silence.isKept, hdepth, decide_eq_true_iff]
        exact Nat.add_pos_left Nat.one_pos _
      simp only [View.perform, View.tellAny_of_kept _ hkept]
      refine ⟨h.ordinary, h.listened, ?_, h.seen, h.compared, hflight, hreaches⟩
      exact depth_leave hdepth
  | showing f =>
      exact ⟨h.ordinary, h.listened, h.depth, h.seen, h.compared, hflight, hreaches, congrArg some hreaches⟩
  | publishing f =>
      simp only [View.perform, View.checkOpen_of_open hopen]
      exact ⟨h.ordinary, h.listened, h.depth, h.seen, h.compared, hflight, hreaches⟩
  | handing f =>
      obtain ⟨i, hi⟩ := w.view.exists_setIndicator w.view.worker.pass .applying
      simp only [View.perform, hi]
      exact ⟨h.ordinary, h.listened, h.depth, h.seen, h.compared, hflight, hreaches⟩
  | scheduling f =>
      simp only [View.perform, Consumer.schedule, hconsumer, Bool.false_eq_true, if_false]
      refine ⟨h.ordinary, h.listened, h.depth, h.seen, h.compared, hflight, hreaches.1, hreaches.2, ?_⟩
      exact getLast?_trail (p := ⟨w.view.worker.pass, f.update⟩) rfl hreaches.1
  | refused f e =>
      simp only [View.perform, hopen, Bool.false_eq_true, if_false]
      exact ⟨h.ordinary, h.listened, h.depth, h.seen, h.compared, hflight, trivial⟩
  | serving f => exact ⟨h.ordinary, h.listened, h.depth, h.seen, h.compared, hflight, hreaches⟩
  | comparing f =>
      simp only [View.perform]
      split
      · next hlive =>
          refine ⟨h.ordinary, h.listened, h.depth, h.seen, h.compared, hflight, .inr ⟨hreaches.2, .inl ?_⟩⟩
          exact hlive.trans hreaches.1
      · exact ⟨h.ordinary, h.listened, h.depth, h.seen, h.compared, hflight, trivial⟩
  | requesting structural => exact ⟨h.ordinary, h.listened, h.depth, h.seen, h.compared, hflight, .inl rfl⟩
  | succeeding => exact ⟨h.ordinary, h.listened, h.depth, h.seen, h.compared, hflight, hreaches⟩
  | failing =>
      obtain ⟨i, hi⟩ := View.exists_setIndicator
        { w.view with counts := { w.view.counts with failures := w.view.counts.failures + 1 } } w.view.worker.pass .idle
      simp only [View.perform, hi]
      exact ⟨h.ordinary, h.listened, h.depth, h.seen, h.compared, hflight, trivial⟩
  | recovering =>
      simp only [View.perform, hopen, Bool.false_eq_true, if_false]
      exact ⟨h.ordinary, h.listened, h.depth, h.seen, h.compared, hflight, trivial⟩
  | resting =>
      simp only [View.perform, hopen, Bool.false_eq_true, if_false]
      exact ⟨h.ordinary, h.listened, h.depth, h.seen, h.compared, hflight, trivial⟩
  | retrying => exact ⟨h.ordinary, h.listened, h.depth, h.seen, h.compared, hflight, .inl rfl⟩

theorem follows_disturb {s : Stage} {fault : PassError} {v : View} (h : Follows w (.pass asked s))
    (hv : w.view.disturb asked s fault = some v) : Follows { w with view := v } v.worker.phase := by
  obtain ⟨hflight, -⟩ := h.stands
  unfold View.disturb at hv
  split at hv
  · cases hv
    exact ⟨h.ordinary, h.listened, h.depth, h.seen, h.compared, hflight, trivial⟩
  · cases hv
    exact ⟨h.ordinary, h.listened, h.depth, h.seen, h.compared, hflight, trivial⟩
  · cases hv
    exact ⟨h.ordinary, h.listened, h.depth, h.seen, h.compared, hflight, trivial⟩
  · split at hv
    · cases hv
      have hdepth := h.depth
      cases hsilent : s.isSilent with
      | true =>
          rw [show (Phase.pass asked s).isSilent = true from hsilent] at hdepth
          exact ⟨h.ordinary, h.listened, depth_leave hdepth, h.seen, h.compared, hflight, trivial⟩
      | false =>
          rw [show (Phase.pass asked s).isSilent = false from hsilent] at hdepth
          exact ⟨h.ordinary, h.listened, hdepth, h.seen, h.compared, hflight, trivial⟩
    · cases hv
  · cases hv

theorem follows_work {fault? : Option PassError} {v : View} (h : Follows w w.view.worker.phase)
    (hserving : w.view.IsServing) (hv : w.view.work visit fault? = some v) :
    Follows { w with view := v } v.worker.phase := by
  unfold View.work at hv
  split at hv
  · next hphase =>
      rw [hphase] at h
      cases hv
      exact ⟨h.ordinary, h.listened, h.depth, h.seen, h.compared, h.stands⟩
  · next hphase =>
      rw [hphase] at h
      simp only [Tracker.take, show w.view.tracker.isClosed = false from hserving.1, Bool.false_eq_true, if_false] at hv
      split at hv
      · cases hv
      · next htake => split at htake <;> cases htake
      · next htake =>
          split at htake
          · cases htake
            cases hv
            exact ⟨h.ordinary, h.listened, h.depth, h.seen, h.compared, rfl, trivial⟩
          · cases htake
  · next hphase =>
      rw [hphase] at h
      cases hv
      exact follows_perform h hserving
  · next hphase =>
      rw [hphase] at h
      exact follows_disturb h hv
  · next hphase =>
      rw [hphase] at h
      cases hv
      exact ⟨h.ordinary, h.listened, h.depth, h.seen, h.compared, h.stands.2⟩
  · next hphase =>
      rw [hphase] at h
      exact h.stands.elim
  · cases hv

end World

def Move.isExtension : Move → Bool
  | .extend _ _ => true
  | _ => false

namespace World

theorem follows_step {w' : World} {m : Move} (hm : m.isExtension = false) (h : Follows w w.view.worker.phase)
    (hstep : w.step m = some w') (hserving : w'.view.IsServing) : Follows w' w'.view.worker.phase := by
  have hbefore := isServing_step hstep hserving
  cases m with
  | work visit fault? =>
      obtain ⟨v, hv, rfl⟩ := Option.map_eq_some_iff.mp hstep
      exact follows_work h hbefore hv
  | drain =>
      rw [worker_step hstep (by simp)]
      exact follows_drain h hstep
  | attend =>
      rw [worker_step hstep (by simp)]
      exact follows_attend h hbefore.1 hstep
  | change p =>
      have hfollows := follows_change h p hstep
      cases hstep
      exact hfollows
  | adjustFilter =>
      cases hstep
      exact h.call (by simp [Call.isOrdinary])
  | recompute structural =>
      simp only [step, callOpen] at hstep
      split at hstep <;> cases hstep
      exact h.call (by simp [Call.isOrdinary])
  | resetFilters =>
      simp only [step, callOpen] at hstep
      split at hstep <;> cases hstep
      exact h.call (by simp [Call.isOrdinary])
  | extend row column => cases hm
  | shutDown =>
      cases hstep
      cases hserving.2
  | close =>
      cases hstep
      exact h.call (by simp [Call.isOrdinary])
  | proceed i =>
      rw [worker_step hstep (by simp)]
      exact follows_proceed h hstep hserving

theorem follows_start {source : Source Unit} {config : Config} {v : View} (h : View.start source config = .ok v) :
    Follows ⟨v, [], none, []⟩ v.worker.phase := by
  unfold View.start at h
  split at h
  · cases h
  · cases h
    refine ⟨by simp, ?_, rfl, ⟨Nat.zero_le _, Nat.zero_le _⟩, by simp, .inl rfl⟩
    simp [Source.listen]

structure AtRest (w : World) : Prop where
  settled : w.view.isSettled = true
  noticed : ∀ c ∈ w.calls, c.isNotice = false
  queue : w.view.consumer.queue = []
  batch : w.batch = []
  errand : w.errand? = none

theorem Follows.shows_live {p : Phase} (h : Follows w p) (hrest : w.AtRest) : w.Shows w.view.live := by
  have hidle : w.view.tracker.isDirty = false ∧ w.view.tracker.inFlight = false := by
    simpa [View.isSettled, Tracker.isSettled] using hrest.settled
  have hcovered : w.IsCovered := by
    cases p with
    | pass asked s =>
        have hflight := h.stands.1
        simp [hidle.2] at hflight
    | finishing => exact h.stands.2
    | turning | waiting => exact h.stands
    | stopping | stopped => exact h.stands.elim
  rcases hcovered with hdirty | ⟨hshows, hlive | ⟨c, hc, hn⟩ | herrand⟩
  · simp [hidle.1] at hdirty
  · rw [hlive]
    exact hshows
  · simp [hrest.noticed c hc] at hn
  · simp [hrest.errand] at herrand

/-- Whatever happened, a view that serves and is at rest has the revisions of its source, in the last table it
computed and in the one that its consumer shows. -/
theorem shows_live_of_atRest {source : Source Unit} {config : Config} {v : View} {history : List Move}
    (hstart : View.start source config = .ok v) (hextends : ∀ m ∈ history, m.isExtension = false)
    (hrun : World.run ⟨v, [], none, []⟩ history = some w) (hserving : w.view.IsServing) (hrest : w.AtRest) :
    (∃ t, w.view.latest? = some t ∧ t.revisions = w.view.live) ∧
      ∃ u, w.view.consumer.latest? = some u ∧ u.table.revisions = w.view.live := by
  have hfollows : (∀ m ∈ history, m.isExtension = false) → w.view.IsServing → Follows w w.view.worker.phase := by
    refine run_induction (motive := fun history w => (∀ m ∈ history, m.isExtension = false) → w.view.IsServing →
      Follows w w.view.worker.phase) hrun (fun _ _ => follows_start hstart) ?_
    intro before u m u' _ hstep hu hextends hserving
    have hbefore := hu (fun m hm => hextends m (List.mem_append_left _ hm)) (isServing_step hstep hserving)
    exact follows_step (hextends m (by simp)) hbefore hstep hserving
  obtain ⟨hlatest, htrail⟩ := (hfollows hextends hserving).shows_live hrest
  refine ⟨Option.map_eq_some_iff.mp hlatest, ?_⟩
  rw [trail, publications, hrest.queue, hrest.batch, hrest.errand] at htrail
  cases hshown : w.view.consumer.latest? with
  | none => simp [hshown] at htrail
  | some u => exact ⟨u, rfl, by simpa [hshown] using htrail⟩

/-- A row comes while the owner applies an empty table, and its notice is dropped. -/
theorem shows_live_behind_dropped_notice :
    let source : Source Unit := .ofSchema { columns := [⟨"x", .native, some 0⟩] }
    let passing : List Move := List.replicate 22 (.work .ascending none)
    let history : List Move := passing ++ [.work .ascending none, .drain, .attend, .attend, .attend, .attend,
      .change (.edit (.pushRow [.number 1])), .proceed 0, .proceed 0, .attend, .attend, .attend, .attend, .attend] ++
      passing ++ .drain :: List.replicate 8 .attend
    ∃ v w, View.start source {} = .ok v ∧ (∀ m ∈ history, m.isExtension = false) ∧
      World.run ⟨v, [], none, []⟩ history = some w ∧ w.view.IsServing ∧ w.AtRest ∧
      (∃ t, w.view.latest? = some t ∧ t.revisions = w.view.live) ∧
        ∃ u, w.view.consumer.latest? = some u ∧ u.table.revisions = w.view.live := by
  intro source passing history
  let v := View.opened source {}
  have hstart : View.start source {} = .ok v := View.start_of_valid (by decide +kernel)
  have hextends : ∀ m ∈ history, m.isExtension = false := by decide +kernel
  let w := (World.run ⟨v, [], none, []⟩ history).get (by decide +kernel)
  have hrun : World.run ⟨v, [], none, []⟩ history = some w := (Option.some_get _).symm
  have hserving : w.view.IsServing := ⟨by decide +kernel, by decide +kernel⟩
  have hrest : w.AtRest :=
    { settled := by decide +kernel
      noticed := by decide +kernel
      queue := List.isEmpty_iff.mp (by decide +kernel)
      batch := List.isEmpty_iff.mp (by decide +kernel)
      errand := Option.isNone_iff_eq_none.mp (by decide +kernel) }
  exact ⟨v, w, hstart, hextends, hrun, hserving, hrest, shows_live_of_atRest hstart hextends hrun hserving hrest⟩

end World

end LiveSheet
