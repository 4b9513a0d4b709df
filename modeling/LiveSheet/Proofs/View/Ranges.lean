import LiveSheet.Proofs.View.Columns
import LiveSheet.Proofs.View.Resets

namespace LiveSheet

def Phase.answers (served : Nat) : Phase → Nat
  | .pass _ (.serving f) => f.resets
  | _ => served

def Move.isReset : Move → Bool
  | .resetFilters => true
  | _ => false

namespace World

variable {start w w' : World} {history : List Move} {m : Move} {resets : Nat} {visit : VisitOrder} {asked : Bool}

def answered (w : World) : Nat := w.view.worker.phase.answers w.view.worker.served

def Ranged (start : World) (history : List Move) (resets : Nat) : Option (List FilterRange) → Prop
  | none => resets = 0
  | some rs => ∃ before y t, before <+: history ∧ start.run before = some y ∧ resets ≤ y.view.resets ∧ y.Computes t ∧
      rs = start.view.config.rangesOf t

def Renews (start : World) (history : List Move) (w : World) (f : Finding) : Prop :=
  match f.update.ranges? with
  | none => f.resets = w.answered
  | some rs => Ranged start history f.resets (some rs)

structure Honours (start : World) (history : List Move) (w : World) : Prop where
  config : w.view.config = start.view.config
  served : w.view.worker.served ≤ w.view.resets
  told : Ranged start history w.answered (w.told.bind (·.ranges?))
  bounds : ∀ f, w.view.worker.phase.finding? = some f → w.view.worker.served ≤ f.resets ∧ f.resets ≤ w.view.resets
  renews : ∀ f, w.view.worker.phase.finding? = some f → Renews start history w f

variable {f : Finding} {ranges? : Option (List FilterRange)}

theorem Ranged.longer (h : Ranged start history resets ranges?) : Ranged start (history ++ [m]) resets ranges? := by
  cases ranges? with
  | none => exact h
  | some rs =>
      obtain ⟨before, y, t, hbefore, h⟩ := h
      exact ⟨before, y, t, hbefore.trans (List.prefix_append history [m]), h⟩

theorem Ranged.fewer {fewer : Nat} (h : Ranged start history resets ranges?) (hle : fewer ≤ resets) :
    Ranged start history fewer ranges? := by
  cases ranges? with
  | none => exact Nat.le_zero.mp (le_of_le_of_eq hle h)
  | some rs =>
      obtain ⟨before, y, t, hbefore, hy, hresets, h⟩ := h
      exact ⟨before, y, t, hbefore, hy, Nat.le_trans hle hresets, h⟩

theorem Renews.longer (h : Renews start history w f) (hanswered : w'.answered = w.answered) :
    Renews start (history ++ [m]) w' f := by
  unfold Renews at h ⊢
  split at h
  · exact h.trans hanswered.symm
  · exact Ranged.longer h

structure Alters (v v' : View) : Prop where
  consumer : v'.consumer = v.consumer
  served : v'.worker.served = v.worker.served ∨
    ∃ f, v.worker.phase.finding? = some f ∧ v'.worker.served = f.resets
  answered : v'.worker.phase.answers v'.worker.served = v.worker.phase.answers v.worker.served ∨
    v'.worker.phase.finding? = none ∧ v'.worker.phase.answers v'.worker.served = v.worker.served

theorem alters_perform {v : View} {s : Stage} (hopen : v.isClosed = false) (hphase : v.worker.phase = .pass asked s)
    (hschedule : ∀ f, s ≠ .scheduling f) : Alters v (v.perform visit asked s) := by
  have hanswers : (Phase.pass asked s).answers v.worker.served = v.worker.phase.answers v.worker.served := by
    rw [hphase]
  cases s with
  | noted s | publishing f =>
      simp only [View.perform, View.checkOpen_of_open hopen]
      exact ⟨rfl, .inl rfl, .inl hanswers⟩
  | preparing s | comparing f =>
      simp only [View.perform]
      split <;> exact ⟨rfl, .inl rfl, .inl hanswers⟩
  | computed f =>
      simp only [View.perform, View.checkOpen_of_open hopen]
      split <;> exact ⟨rfl, .inl rfl, .inl hanswers⟩
  | telling f notice? =>
      obtain ⟨t, ht⟩ := v.exists_tellAny notice?
      simp only [View.perform, ht]
      exact ⟨rfl, .inl rfl, .inl hanswers⟩
  | handing f =>
      obtain ⟨i, hi⟩ := v.exists_setIndicator v.worker.pass .applying
      simp only [View.perform, hi]
      exact ⟨rfl, .inl rfl, .inl hanswers⟩
  | scheduling f => exact absurd rfl (hschedule f)
  | refused f e | recovering | resting =>
      simp only [View.perform, hopen, Bool.false_eq_true, if_false]
      exact ⟨rfl, .inl rfl, .inl hanswers⟩
  | serving f => exact ⟨rfl, .inr ⟨f, by rw [hphase]; rfl, rfl⟩, .inl hanswers⟩
  | failing =>
      obtain ⟨i, hi⟩ := View.exists_setIndicator
        { v with counts := { v.counts with failures := v.counts.failures + 1 } } v.worker.pass .idle
      simp only [View.perform, hi]
      exact ⟨rfl, .inl rfl, .inl hanswers⟩
  | _ => exact ⟨rfl, .inl rfl, .inl hanswers⟩

theorem alters_disturb {v v' : View} {s : Stage} {fault : PassError} (hphase : v.worker.phase = .pass asked s)
    (hv : v.disturb asked s fault = some v') : Alters v v' := by
  unfold View.disturb at hv
  split at hv
  · cases hv
    exact ⟨rfl, .inl rfl, .inr ⟨rfl, rfl⟩⟩
  · cases hv
    exact ⟨rfl, .inl rfl, .inr ⟨rfl, rfl⟩⟩
  · cases hv
    exact ⟨rfl, .inl rfl, .inl (by rw [hphase]; rfl)⟩
  · split at hv <;> cases hv
    split <;> exact ⟨rfl, .inl rfl, .inr ⟨rfl, rfl⟩⟩
  · cases hv

theorem alters_work {v v' : View} {fault? : Option PassError} (hserving : v.IsServing)
    (hv : v.work visit fault? = some v') : Alters v v' ∨
      ∃ asked f p, v.worker.phase = .pass asked (.scheduling f) ∧ v'.worker.phase = .pass asked (.serving f) ∧
        v'.worker.served = v.worker.served ∧ p.update = f.update ∧
        v'.consumer = { v.consumer with queue := v.consumer.queue ++ [p] } := by
  obtain ⟨hopen, hconsumer⟩ := hserving
  unfold View.work at hv
  split at hv
  · next hphase =>
      cases hv
      exact .inl ⟨rfl, .inl rfl, .inl (by rw [hphase]; rfl)⟩
  · next hphase =>
      split at hv <;> cases hv <;> exact .inl ⟨rfl, .inl rfl, .inl (by rw [hphase]; rfl)⟩
  · next asked s hphase =>
      cases hv
      by_cases hschedule : ∃ f, s = .scheduling f
      · obtain ⟨f, rfl⟩ := hschedule
        refine .inr ⟨asked, f, ⟨v.worker.pass, f.update⟩, hphase, ?_⟩
        simp [View.perform, Consumer.schedule, hconsumer, View.onto, View.stand]
      · exact .inl (alters_perform hopen hphase fun f hf => hschedule ⟨f, hf⟩)
  · next hphase => exact .inl (alters_disturb hphase hv)
  · next hphase =>
      cases hv
      exact .inl ⟨rfl, .inl rfl, .inl (by rw [hphase]; rfl)⟩
  · next hphase =>
      cases hv
      exact .inl ⟨rfl, .inl rfl, .inl (by rw [hphase]; rfl)⟩
  · cases hv

theorem Honours.served_le (h : Honours start history w) : w.view.worker.served ≤ w.answered := by
  unfold answered
  cases hphase : w.view.worker.phase with
  | pass asked s =>
      cases s with
      | serving f => exact (h.bounds f (by rw [hphase]; rfl)).1
      | _ => exact Nat.le_refl _
  | _ => exact Nat.le_refl _

theorem honours_alters {v : View} (h : Honours start history w) (ha : Alters w.view v)
    (hopen : w.view.isClosed = false) (hopen' : v.isClosed = false) (hconfig : v.config = w.view.config)
    (hresets : v.resets = w.view.resets)
    (hfinding : ∀ f, v.worker.phase.finding? = some f → w.view.worker.phase.finding? = some f ∨
      v.worker.served ≤ f.resets ∧ f.resets ≤ v.resets ∧ Renews start (history ++ [m]) { w with view := v } f) :
    Honours start (history ++ [m]) { w with view := v } := by
  have htold : told { w with view := v } = w.told := by
    refine told_eq hopen hopen' (congrArg Consumer.latest? ha.consumer) ?_
    rw [publications, publications, ha.consumer]
  have hserved : v.worker.served ≤ w.view.resets := by
    rcases ha.served with hsame | ⟨f, hf, hsame⟩
    · exact hsame ▸ h.served
    · exact hsame ▸ (h.bounds f hf).2
  refine ⟨hconfig.trans h.config, hresets ▸ hserved, ?_, fun f hf => ?_, fun f hf => ?_⟩
  · rw [htold]
    refine h.told.longer.fewer ?_
    rcases ha.answered with hsame | ⟨-, hsame⟩
    · exact le_of_eq hsame
    · exact le_of_eq_of_le hsame h.served_le
  · rcases hfinding f hf with hfound | ⟨hserves, hcounted, -⟩
    · refine ⟨?_, hresets ▸ (h.bounds f hfound).2⟩
      rcases ha.served with hsame | ⟨f', hf', hsame⟩
      · exact hsame ▸ (h.bounds f hfound).1
      · obtain rfl := Option.some.inj (hf'.symm.trans hfound)
        exact le_of_eq hsame
    · exact ⟨hserves, hcounted⟩
  · rcases hfinding f hf with hfound | ⟨-, -, hrenews⟩
    · rcases ha.answered with hsame | ⟨hnone, -⟩
      · exact (h.renews f hfound).longer hsame
      · rw [hnone] at hf
        cases hf
    · exact hrenews

theorem honours_handed {v : View} {p : Publication} (h : Honours start history w) (hserving : w.view.IsServing)
    (hserving' : v.IsServing) (hphase : w.view.worker.phase = .pass asked (.scheduling f))
    (hphase' : v.worker.phase = .pass asked (.serving f)) (hserved : v.worker.served = w.view.worker.served)
    (hp : p.update = f.update) (hconsumer : v.consumer = { w.view.consumer with queue := w.view.consumer.queue ++ [p] })
    (hconfig : v.config = w.view.config) (hresets : v.resets = w.view.resets) :
    Honours start (history ++ [m]) { w with view := v } := by
  have hf : w.view.worker.phase.finding? = some f := by
    rw [hphase]
    rfl
  have hfound (f' : Finding) (hf' : v.worker.phase.finding? = some f') : f' = f := by
    rw [hphase'] at hf'
    exact (Option.some.inj hf').symm
  have htold : told { w with view := v } = some (f.update.over w.told) := by
    rw [told, due_queued_of_open (congrArg Consumer.queue hconsumer) hserving.1 hserving'.1, showing,
      List.foldl_append, hconsumer, ← hp]
    rfl
  have hanswered : answered { w with view := v } = f.resets := by
    simp only [answered, hphase']
    rfl
  have hrenews := h.renews f hf
  refine ⟨hconfig.trans h.config, ?_, ?_, fun f' hf' => ?_, fun f' hf' => ?_⟩
  · simp only [hserved, hresets]
    exact h.served
  · rw [htold, hanswered, Option.bind_some, Update.over]
    unfold Renews at hrenews
    split at hrenews
    · next hnone =>
        rw [hnone, hrenews]
        exact h.told.longer
    · next rs hrs =>
        rw [hrs]
        exact hrenews.longer
  · obtain rfl := hfound f' hf'
    simp only [hserved, hresets]
    exact h.bounds f' hf
  · obtain rfl := hfound f' hf'
    unfold Renews at hrenews ⊢
    split at hrenews
    · exact hanswered.symm
    · exact hrenews.longer

theorem renews_compute {s : Snapshot} {rebuilt : Bool} (hrun : start.run history = some w)
    (hphase : w.view.worker.phase = .pass asked (.computing s rebuilt)) (hconfig : w.view.config = start.view.config) :
    Renews start (history ++ [m])
      { w with view := (w.view.compute visit s rebuilt).1.onto asked (.computed (w.view.compute visit s rebuilt).2) }
      (w.view.compute visit s rebuilt).2 := by
  by_cases hdue : (rebuilt || w.view.resets != w.view.worker.served) = true
  · have hranges : (w.view.compute visit s rebuilt).2.update.ranges? = some (w.view.config.rangesOf
        (w.view.worker.sheet.runPass visit s w.view.config.formulaCeiling?).2.1) := if_pos hdue
    rw [Renews, hranges]
    exact ⟨history, w, _, List.prefix_append history [m], hrun, Nat.le_refl _, ⟨asked, s, rebuilt, visit, hphase, rfl⟩,
      by rw [hconfig]⟩
  · have hranges : (w.view.compute visit s rebuilt).2.update.ranges? = none := if_neg hdue
    rw [Renews, hranges]
    simp only [Bool.or_eq_true, bne_iff_ne, ne_eq, not_or, not_not] at hdue
    exact hdue.2

theorem honours_work {fault? : Option PassError} {v : View} (hrun : start.run history = some w)
    (h : Honours start history w) (hserving' : v.IsServing) (hv : w.view.work visit fault? = some v) :
    Honours start (history ++ [.work visit fault?]) { w with view := v } := by
  have hserving := (w.view.isServing_work hv).mp hserving'
  have hresets := (View.steady_work hv).2
  have halters := alters_work hserving hv
  rcases View.onward_work hv with honward | ⟨asked, s, rebuilt, hphase, rfl⟩
  · rcases halters with halters | ⟨asked, f, p, hphase, hphase', hserved, hp, hconsumer⟩
    · exact honours_alters h halters hserving.1 hserving'.1 honward.config hresets fun f hf =>
        .inl (honward.finding f hf)
    · exact honours_handed h hserving hserving' hphase hphase' hserved hp hconsumer honward.config hresets
  · rcases halters with halters | ⟨_, _, _, hphase', _⟩
    · refine honours_alters h halters hserving.1 hserving'.1 rfl hresets fun f hf => .inr ?_
      obtain rfl := Option.some.inj hf
      exact ⟨h.served, Nat.le_refl _, renews_compute hrun hphase h.config⟩
    · rw [hphase] at hphase'
      cases hphase'

theorem told_step (hm : w.step m = some w') (hwork : ∀ visit fault?, m ≠ .work visit fault?)
    (hserving : w'.view.IsServing) : w'.told = w.told := by
  have hopen := (isServing_step hm hserving).1
  cases m with
  | work visit fault? => exact absurd rfl (hwork visit fault?)
  | drain =>
      obtain ⟨hdue, hlatest⟩ := due_drain hm
      rw [told, told, hdue, hlatest]
  | attend =>
      rcases due_attend hm with ⟨hdue, hlatest⟩ | ⟨p, hdue, hlatest⟩
      · rw [told, told, hdue, hlatest]
      · rw [told, told, hdue, hlatest]
        rfl
  | shutDown =>
      cases hm
      cases hserving.2
  | _ =>
      obtain ⟨hcore, hbatch, herrand⟩ := core_step hm (by simp) (by simp) (by simp) (by simp)
      have hconsumer : w'.view.consumer = w.view.consumer := congrArg (·.2.2.2) hcore
      refine told_eq hopen hserving.1 (congrArg Consumer.latest? hconsumer) ?_
      rw [publications, publications, herrand, hbatch, hconsumer]

theorem honours_step (hrun : start.run history = some w) (h : Honours start history w)
    (hm : w.step m = some w') (hserving : w'.view.IsServing) : Honours start (history ++ [m]) w' := by
  rcases work_or_beside hm with ⟨visit, fault?, v, rfl, hv, rfl⟩ | hother
  · exact honours_work hrun h hserving hv
  · have hworker := worker_step hm hother
    have hresets := resets_le_step hm
    have hanswered : w'.answered = w.answered := by rw [answered, answered, hworker]
    refine ⟨(ages_step hm hother).config.trans h.config, ?_, ?_, fun f hf => ?_, fun f hf => ?_⟩
    · rw [hworker]
      exact Nat.le_trans h.served hresets
    · rw [told_step hm hother hserving, hanswered]
      exact h.told.longer
    · rw [hworker] at hf ⊢
      exact ⟨(h.bounds f hf).1, Nat.le_trans (h.bounds f hf).2 hresets⟩
    · rw [hworker] at hf
      exact (h.renews f hf).longer hanswered

theorem honours_run {source : Source Unit} {config : Config} {v : View} (hstart : View.start source config = .ok v)
    (hrun : run ⟨v, [], none, []⟩ history = some w) (hserving : w.view.IsServing) :
    Honours ⟨v, [], none, []⟩ history w := by
  refine run_induction (motive := fun history w => w.view.IsServing → Honours ⟨v, [], none, []⟩ history w) hrun
    (fun _ => ?_) (fun before u m u' hu hm ih hserving => ?_) hserving
  · obtain rfl := View.opened_of_start hstart
    exact ⟨rfl, Nat.le_refl _, rfl, by simp [View.opened, Phase.finding?], by simp [View.opened, Phase.finding?]⟩
  · exact honours_step hu (ih (isServing_step hm hserving)) hm hserving

/-- A pass computes a copy of the data from before the call, and counts all resets that are noted as answered. -/
def ComputesStale (start : World) (called history : List Move) : Prop :=
  ∃ mid u w t, called <+: mid ∧ mid <+: history ∧ start.run mid = some u ∧ start.run history = some w ∧
    u.Computes t ∧ w.view.worker.served ≤ u.view.resets ∧ ∀ between, called <+: between → between <+: mid →
      (start.run between).any (·.view.worker.phase.copy?.isSome) = true

def RangesBehind (start : World) (called history : List Move) (rs : List FilterRange) : Prop :=
  ∃ copied x asked before y t, called <+: copied ∧ copied <+: before ∧ before <+: history ∧
    start.run copied = some x ∧ x.view.worker.phase = .pass asked .copying ∧ start.run before = some y ∧
    y.Computes t ∧ t.snapshot = x.view.source.data.snapshot ∧ rs = t.filterRanges start.view.config.bins ∧
    ∀ z, start.run called = some z → z.view.live ≤ t.revisions

theorem lt_served_of_settled {source : Source Unit} {config : Config} {v : View} {bound : Nat}
    (hstart : View.start source config = .ok v) (hrun : run ⟨v, [], none, []⟩ history = some w)
    (hopen : w.view.isClosed = false) (hsettled : w.view.isSettled = true)
    (hcounts : w.CountsIn bound w.view.worker.phase) : bound < w.view.worker.served := by
  have hidle : w.view.tracker.isDirty = false ∧ w.view.tracker.inFlight = false := by
    simpa [View.isSettled, Tracker.isSettled] using hsettled
  have hserved (h : w.Counts bound w.view.worker.served) : bound < w.view.worker.served := by
    refine h.resolve_right fun hdirty => ?_
    rw [hidle.1] at hdirty
    cases hdirty
  have hover := not_isOver_run hstart hrun hopen
  cases hphase : w.view.worker.phase with
  | pass asked s =>
      have hasked : w.view.worker.phase.asked? = some asked := by
        rw [hphase]
        rfl
      have hinFlight := inFlight_run hstart hrun hopen hasked
      rw [hidle.2] at hinFlight
      cases hinFlight
  | turning | waiting | finishing =>
      rw [hphase] at hcounts
      exact hserved hcounts
  | stopping | stopped =>
      rw [hphase] at hover
      cases hover

theorem rangesBehind_of_computes {source : Source Unit} {config : Config} {v : View} {called before : List Move}
    {y : World} {t : Table} (hstart : View.start source config = .ok v)
    (hrun : run ⟨v, [], none, []⟩ history = some w) (hcalled : called <+: history) (hbefore : before <+: history)
    (hy : run ⟨v, [], none, []⟩ before = some y) (hcomputes : y.Computes t)
    (hresets : w.view.worker.served ≤ y.view.resets)
    (hcounted : ∀ z, run ⟨v, [], none, []⟩ called = some z → z.view.resets < w.view.worker.served)
    (hopen : w.view.isClosed = false) (hfresh : ¬ComputesStale ⟨v, [], none, []⟩ called history) :
    RangesBehind ⟨v, [], none, []⟩ called history (t.filterRanges v.config.bins) := by
  obtain ⟨asked, s, rebuilt, visit, hphase, htable⟩ := hcomputes
  have hsnapshot : t.snapshot = s := by
    rw [htable]
    exact Sheet.snapshot_runPass s _ _ _
  obtain ⟨copied, hcopied, ⟨x, asked', hx, hcopying, hcopy⟩, hheld⟩ := holdsSince_run hstart hy (s := s) (by
    rw [hphase]
    rfl)
  obtain ⟨z, hz, -⟩ := isClosed_run hrun hopen hcalled
  by_cases hfirst : called <+: copied
  · refine ⟨copied, x, asked', before, y, t, hfirst, hcopied, hbefore, hx, hcopying, hy,
      ⟨asked, s, rebuilt, visit, hphase, htable⟩, hsnapshot.trans hcopy, rfl, fun z' hz' => ?_⟩
    have hlive : z'.view.live ≤ x.view.live := le_of_steps (fun hm => live_step hm) hfirst hz' hx
    exact le_of_le_of_eq hlive (congrArg Snapshot.revisions (hsnapshot.trans hcopy)).symm
  · have hlate : copied <+: called :=
      (List.prefix_or_prefix_of_prefix hcalled (hcopied.trans hbefore)).resolve_left hfirst
    refine absurd ⟨before, y, w, t, ?_, hbefore, hy, hrun, ⟨asked, s, rebuilt, visit, hphase, htable⟩, hresets,
      fun between hsince hbetween => ?_⟩ hfresh
    · -- the reset that the call counts is there where the table is computed
      refine (List.prefix_or_prefix_of_prefix hcalled hbefore).resolve_right fun hearly => ?_
      exact absurd (hcounted z hz) (Nat.not_lt.mpr (Nat.le_trans hresets (le_of_steps resets_le_step hearly hy hz)))
    · refine hheld between (hlate.trans hsince) (fun heq => hfirst ?_) hbetween
      rw [← heq]
      exact hsince

/-- In a settled view with nothing on its way to the consumer, the ranges that are shown answer every call for a reset
that has returned with data from behind it, unless a pass computed data from before the call and counted its reset. -/
theorem reset_answered {source : Source Unit} {config : Config} {v : View} {called : List Move}
    (hstart : View.start source config = .ok v) (hrun : run ⟨v, [], none, []⟩ history = some w)
    (hserving : w.view.IsServing) (hsettled : w.view.isSettled = true) (hqueue : w.view.consumer.queue = [])
    (hbatch : w.batch = []) (herrand : w.errand? = none) (hceiling : config.filterCeiling? = none)
    (hreturned : Tracks ⟨v, [], none, []⟩ (called ++ [.resetFilters]) history none)
    (hfresh : ¬ComputesStale ⟨v, [], none, []⟩ called history) :
    ∃ u rs, w.view.consumer.latest? = some u ∧ u.ranges? = some rs ∧
      RangesBehind ⟨v, [], none, []⟩ called history rs := by
  have hprefix : called <+: history := (List.prefix_append called _).trans hreturned.isPrefix
  have hcounted (z : World) (hz : run ⟨v, [], none, []⟩ called = some z) : z.view.resets < w.view.worker.served := by
    cases resetAt_run hreturned hrun hserving.1 hz with
    | returned _ hcounts => exact lt_served_of_settled hstart hrun hserving.1 hsettled hcounts
  obtain ⟨z, hz, -⟩ := isClosed_run hrun hserving.1 hprefix
  have hhonours := honours_run hstart hrun hserving
  have htold : w.told = w.view.consumer.latest? := by
    rw [told, due_of_open hserving.1, publications, hqueue, hbatch, herrand]
    rfl
  have hranged := hhonours.told.fewer hhonours.served_le
  rw [htold] at hranged
  cases hranges : w.view.consumer.latest?.bind (·.ranges?) with
  | none =>
      rw [hranges] at hranged
      exact absurd (hcounted z hz) (Nat.not_lt.mpr (le_of_eq_of_le hranged (Nat.zero_le _)))
  | some rs =>
      rw [hranges] at hranged
      obtain ⟨before, y, t, hbefore, hy, hresets, hcomputes, rfl⟩ := hranged
      obtain ⟨u, hu, hrs⟩ := Option.bind_eq_some_iff.mp hranges
      refine ⟨u, _, hu, hrs, ?_⟩
      have hunlimited : v.config.rangesOf t = t.filterRanges v.config.bins := by
        rw [Config.rangesOf, config_start hstart, hceiling]
        rfl
      rw [hunlimited]
      exact rangesBehind_of_computes hstart hrun hprefix hbefore hy hcomputes hresets hcounted hserving.1 hfresh

theorem reset_answered_behind_edit :
    let source : Source Unit :=
      (Source.produce (.ofSchema ⟨[⟨"x", .native, some 0⟩]⟩) (.edit (.pushRow [.number 1]))).1
    let called : List Move := List.flatten
      [List.replicate 23 (.work .ascending none),
        .change (.edit (.setValue 0 (.index 0) (.number 5))) :: List.replicate 3 (.proceed 0)]
    let history : List Move := called ++ List.flatten
      [.resetFilters :: List.replicate 2 (.proceed 0),
        List.replicate 21 (.work .ascending none),
        .drain :: List.replicate 16 .attend]
    ∃ v w, View.start source {} = .ok v ∧ run ⟨v, [], none, []⟩ history = some w ∧ w.view.IsServing ∧
      w.view.isSettled = true ∧ w.view.consumer.queue = [] ∧ w.batch = [] ∧ w.errand? = none ∧
      Tracks ⟨v, [], none, []⟩ (called ++ [.resetFilters]) history none ∧
      ¬ComputesStale ⟨v, [], none, []⟩ called history ∧
      ∃ u rs, w.view.consumer.latest? = some u ∧ u.ranges? = some rs ∧
        RangesBehind ⟨v, [], none, []⟩ called history rs := by
  intro source called history
  let v := View.opened source {}
  have hstart : View.start source {} = .ok v := View.start_of_valid (by decide +kernel)
  let w := (run ⟨v, [], none, []⟩ history).get (by decide +kernel)
  have hrun : run ⟨v, [], none, []⟩ history = some w := (Option.some_get _).symm
  have hserving : w.view.IsServing := ⟨by decide +kernel, by decide +kernel⟩
  have hsettled : w.view.isSettled = true := by decide +kernel
  have hqueue : w.view.consumer.queue = [] := List.isEmpty_iff.mp (by decide +kernel)
  have hbatch : w.batch = [] := List.isEmpty_iff.mp (by decide +kernel)
  have herrand : w.errand? = none := Option.isNone_iff_eq_none.mp (by decide +kernel)
  have hcalls : w.calls = [] := List.isEmpty_iff.mp (by decide +kernel)
  have hreturned : Tracks ⟨v, [], none, []⟩ (called ++ [.resetFilters]) history none :=
    tracks_none_of_calls ((List.prefix_append_right_inj called).mpr ⟨_, rfl⟩) hrun hserving.1 hcalls
  have hidle : (run ⟨v, [], none, []⟩ called).any (·.view.worker.phase.copy?.isSome) = false := by decide +kernel
  have hfresh : ¬ComputesStale ⟨v, [], none, []⟩ called history := by
    rintro ⟨mid, _, _, _, hmid, -, -, -, -, -, hheld⟩
    have hholds := hheld called (List.prefix_refl _) hmid
    rw [hidle] at hholds
    cases hholds
  exact ⟨v, w, hstart, hrun, hserving, hsettled, hqueue, hbatch, herrand, hreturned, hfresh,
    reset_answered hstart hrun hserving hsettled hqueue hbatch herrand rfl hreturned hfresh⟩

/-- The data are copied, edited, and only then the call comes. The pass counts its reset and answers it with the copy;
the next pass, which computes the edit, has no reset to answer. -/
theorem reset_answered_stale : ¬∀ (source : Source Unit) (config : Config) (v : View) (called rest : List Move)
    (w : World), View.start source config = .ok v →
    run ⟨v, [], none, []⟩ (called ++ .resetFilters :: rest) = some w → w.view.IsServing → w.AtRest → w.calls = [] →
    config.filterCeiling? = none → (∀ m ∈ rest, m.isReset = false) →
    ∃ u rs, w.view.consumer.latest? = some u ∧ u.ranges? = some rs ∧
      RangesBehind ⟨v, [], none, []⟩ called (called ++ .resetFilters :: rest) rs := by
  intro h
  let source : Source Unit :=
    (Source.produce (.ofSchema ⟨[⟨"x", .native, some 0⟩]⟩) (.edit (.pushRow [.number 1]))).1
  let config : Config := { formulaCeiling? := some 0 }
  let start : World := ⟨View.opened source config, [], none, []⟩
  let called : List Move := List.flatten
    [List.replicate 20 (.work .ascending none),
      .drain :: List.replicate 8 .attend,
      .change (.edit (.setValue 0 (.index 0) (.number 5))) :: List.replicate 3 (.proceed 0),
      List.replicate 4 (.work .ascending none),
      .change (.edit (.setValue 0 (.index 0) (.number 7))) :: List.replicate 3 (.proceed 0)]
  let rest : List Move := List.flatten
    [List.replicate 2 (.proceed 0),
      List.replicate 33 (.work .ascending none),
      .drain :: List.replicate 16 .attend]
  let history : List Move := called ++ .resetFilters :: rest
  have hstart : View.start source config = .ok (View.opened source config) := View.start_of_valid (by decide +kernel)
  let w := (start.run history).get (by decide +kernel)
  have hrun : start.run history = some w := (Option.some_get _).symm
  have hserving : w.view.IsServing := ⟨by decide +kernel, by decide +kernel⟩
  have hrest : w.AtRest :=
    { settled := by decide +kernel
      noticed := by decide +kernel
      queue := List.isEmpty_iff.mp (by decide +kernel)
      batch := List.isEmpty_iff.mp (by decide +kernel)
      errand := Option.isNone_iff_eq_none.mp (by decide +kernel) }
  have hcalls : w.calls = [] := List.isEmpty_iff.mp (by decide +kernel)
  have hlast : ∀ m ∈ rest, m.isReset = false := by decide +kernel
  have hshown : (w.view.consumer.latest?.any fun u => u.ranges?.any fun rs => rs.map (·.least) = [5]) = true := by
    decide +kernel
  have hedited : ((start.run called).any fun z => z.view.live.values = 2) = true := by decide +kernel
  -- whatever is computed with the second edit has other ranges
  have hother : ∀ n ≤ history.length, ∀ y ∈ start.run (history.take n), ∀ s ∈ y.view.worker.phase.copy?,
      0 < s.size ∧ y.view.config.formulaCeiling? = some 0 ∧
        (2 ≤ s.revisions.values → ((y.view.worker.sheet.table s false).filterRanges 15).map (·.least) ≠ [5]) := by
    decide +kernel
  obtain ⟨u, rs, hu, hrs, _, _, _, before, y, t, -, -, hbefore, -, -, hy, hcomputes, -, hranges, hlive⟩ :=
    h source config _ called rest w hstart hrun hserving hrest hcalls rfl hlast
  obtain ⟨asked, s, rebuilt, visit, hphase, rfl⟩ := hcomputes
  obtain ⟨hsize, hconfig, hleast⟩ := hother before.length hbefore.length_le y
    (by rwa [← List.prefix_iff_eq_take.mp hbefore]) s (by rw [hphase]; rfl)
  have htable : (y.view.worker.sheet.runPass visit s y.view.config.formulaCeiling?).2.1 =
      y.view.worker.sheet.table s false := by
    rw [Sheet.runPass, hconfig, if_pos (by simpa using hsize)]
  obtain ⟨z, hz, hvalues⟩ := (Option.any_eq_true _ _).mp hedited
  have hrevisions := (hlive z hz).1
  rw [htable] at hranges hrevisions
  rw [hu, Option.any_some, hrs, Option.any_some, hranges] at hshown
  exact hleast (le_of_eq_of_le (of_decide_eq_true hvalues).symm hrevisions) (of_decide_eq_true hshown)

end World

end LiveSheet
