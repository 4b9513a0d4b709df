import LiveSheet.View.World
import Mathlib.Data.List.Induction

namespace LiveSheet

namespace View

def opened (source : Source Unit) (config : Config) : View :=
  { config
    source := (source.subscribe ()).1
    subscription := (source.subscribe ()).2
    tracker := Tracker.mark {} true
    indicator := Indicator.join {} }

theorem start_of_valid {source : Source Unit} {config : Config} (h : config.validate = .ok ()) :
    View.start source config = .ok (opened source config) := by
  unfold View.start
  rw [h]
  rfl

theorem opened_of_start {source : Source Unit} {config : Config} {v : View} (h : View.start source config = .ok v) :
    v = opened source config := by
  unfold View.start at h
  split at h <;> cases h
  rfl

def IsServing (v : View) : Prop := v.isClosed = false ∧ v.consumer.isShutDown = false

variable (v : View)

theorem hear_of_kept (h : v.silence.isKept = true) (structural : Bool) : (v.hear structural).1 = v := by
  simp [hear, Tracker.hear, h]

theorem tellAny_of_kept (h : v.silence.isKept = true) (notice? : Option Notice) : v.tellAny notice? = v := by
  have htell (n : Notice) : v.tell n = v := by
    unfold tell
    induction v.source.observers with
    | nil => rfl
    | cons o os ih => rw [List.foldl_cons, hear_of_kept v h, ih]
  cases notice? with
  | none => rfl
  | some n => exact htell n

theorem isServing_hear (structural : Bool) : (v.hear structural).1.IsServing ↔ v.IsServing := by
  simp only [hear, Tracker.hear]
  split <;> rfl

theorem isServing_tellAny (notice? : Option Notice) : (v.tellAny notice?).IsServing ↔ v.IsServing := by
  have htell (n : Notice) : (v.tell n).IsServing ↔ v.IsServing := by
    unfold tell
    induction v.source.observers generalizing v with
    | nil => rfl
    | cons o os ih => rw [List.foldl_cons, ih, isServing_hear]
  cases notice? with
  | none => rfl
  | some n => exact htell n

theorem exists_setIndicator (pass : Nat) (b : Busy) : ∃ i, v.setIndicator pass b = { v with indicator := i } := by
  unfold setIndicator
  split
  · exact ⟨_, rfl⟩
  · exact ⟨v.indicator, rfl⟩

theorem isServing_setIndicator (pass : Nat) (b : Busy) : (v.setIndicator pass b).IsServing ↔ v.IsServing := by
  obtain ⟨i, hi⟩ := v.exists_setIndicator pass b
  rw [hi]
  rfl

theorem isServing_checkOpen (asked : Bool) (s : Stage) : (v.checkOpen asked s).IsServing ↔ v.IsServing := by
  unfold checkOpen
  split <;> rfl

theorem isServing_perform (visit : VisitOrder) (asked : Bool) (s : Stage) :
    (v.perform visit asked s).IsServing ↔ v.IsServing := by
  cases s with
  | noted s => exact isServing_checkOpen v asked _
  | preparing s =>
      simp only [perform]
      split <;> rfl
  | computed f => exact isServing_checkOpen v asked _
  | telling f notice? => exact isServing_tellAny v notice?
  | publishing f => exact isServing_checkOpen v asked _
  | handing f => exact isServing_setIndicator v _ _
  | scheduling f =>
      simp only [perform, Consumer.schedule]
      split
      · next consumer hconsumer =>
          split at hconsumer
          · cases hconsumer
          · cases hconsumer
            rfl
      · rfl
  | refused f e =>
      simp only [perform]
      split <;> rfl
  | comparing f =>
      simp only [perform]
      split <;> rfl
  | failing => exact isServing_setIndicator { v with counts := { v.counts with failures := v.counts.failures + 1 } } _ _
  | recovering =>
      simp only [perform]
      split <;> rfl
  | resting =>
      simp only [perform]
      split <;> rfl
  | _ => rfl

theorem isServing_disturb {v' : View} {asked : Bool} {s : Stage} {fault : PassError}
    (h : v.disturb asked s fault = some v') : v'.IsServing ↔ v.IsServing := by
  unfold disturb at h
  split at h
  · cases h
    rfl
  · cases h
    rfl
  · cases h
    rfl
  · split at h
    · cases h
      split <;> rfl
    · cases h
  · cases h

theorem isServing_work {v' : View} {visit : VisitOrder} {fault? : Option PassError}
    (h : v.work visit fault? = some v') : v'.IsServing ↔ v.IsServing := by
  have htake : (v.tracker.take).1.isClosed = v.tracker.isClosed := by
    unfold Tracker.take
    split
    · rfl
    · split <;> rfl
  unfold work at h
  split at h
  · cases h
    rfl
  · split at h
    · cases h
    · next tracker hclosed =>
        cases h
        rw [hclosed] at htake
        have hsame : tracker.isClosed = v.tracker.isClosed := htake
        simp only [IsServing, isClosed, stand, hsame]
    · next tracker asked hasked =>
        cases h
        rw [hasked] at htake
        have hsame : tracker.isClosed = v.tracker.isClosed := htake
        simp only [IsServing, isClosed, onto, stand, hsame]
  · cases h
    exact isServing_perform v _ _ _
  · exact isServing_disturb v h
  · cases h
    rfl
  · cases h
    rfl
  · cases h

theorem isServing_attend (e : Errand) : (v.attend e).1.IsServing ↔ v.IsServing := by
  cases e with
  | counting p =>
      exact isServing_setIndicator { v with counts := { v.counts with publications := v.counts.publications + 1 } } _ _
  | _ => rfl

theorem isServing_of_closeStep {v' : View} {c c' : Closing} (h : v.closeStep false c = some (v', c'))
    (hv : v'.IsServing) : v.IsServing ∧ c ≠ .marking := by
  cases c with
  | marking =>
      cases h
      cases hv.1
  | awaiting =>
      simp only [closeStep] at h
      split at h
      · cases h
        exact ⟨hv, by simp⟩
      · cases h
  | done => cases h
  | _ =>
      cases h
      exact ⟨hv, by simp⟩

def core (v : View) : Config × Worker × Option Table × Consumer Publication :=
  (v.config, v.worker, v.latest?, v.consumer)

theorem core_hear (structural : Bool) : (v.hear structural).1.core = v.core := rfl

theorem core_tellAny (notice? : Option Notice) : (v.tellAny notice?).core = v.core := by
  have htell (n : Notice) : (v.tell n).core = v.core := by
    unfold tell
    induction v.source.observers generalizing v with
    | nil => rfl
    | cons o os ih => rw [List.foldl_cons, ih, core_hear]
  cases notice? with
  | none => rfl
  | some n => exact htell n

theorem core_closeStep {v' : View} {byWorker : Bool} {c c' : Closing} (h : v.closeStep byWorker c = some (v', c')) :
    v'.core = v.core := by
  cases c with
  | awaiting =>
      simp only [closeStep] at h
      split at h <;> cases h
      rfl
  | done => cases h
  | _ =>
      cases h
      rfl

theorem worker_attend (e : Errand) : (v.attend e).1.worker = v.worker := by
  cases e with
  | counting p =>
      obtain ⟨i, hi⟩ := exists_setIndicator
        { v with counts := { v.counts with publications := v.counts.publications + 1 } } p.pass .idle
      simp only [attend, hi]
  | _ => rfl

end View

theorem Call.core_step {v v' : View} {c : Call} {c? : Option Call} (h : c.step v = some (v', c?)) :
    v'.core = v.core := by
  cases c with
  | writing x =>
      simp only [step] at h
      split at h
      · cases h
        rfl
      · next row rows _ =>
          have hchange : (v.change (.edit (.setFormula row (.index x.column) (x.textFor row)))).1.core = v.core := rfl
          split at h
          · next heq =>
              cases h
              rw [heq] at hchange
              exact hchange
          · next heq =>
              cases h
              rw [heq] at hchange
              exact hchange
  | noticing x notice? =>
      cases h
      exact v.core_tellAny notice?
  | closing c =>
      simp only [step, Option.map_eq_some_iff] at h
      obtain ⟨⟨u, c'⟩, hstep, heq⟩ := h
      cases heq
      exact v.core_closeStep hstep
  | _ =>
      cases h
      rfl

theorem Call.isServing_step {v v' : View} {c : Call} {c? : Option Call} (h : c.step v = some (v', c?))
    (hv : v'.IsServing) : v.IsServing := by
  cases c with
  | writing x =>
      simp only [step] at h
      split at h
      · cases h
        exact hv
      · next row rows _ =>
          have hchange : (v.change (.edit (.setFormula row (.index x.column) (x.textFor row)))).1.IsServing →
            v.IsServing := id
          split at h
          · next heq =>
              cases h
              rw [heq] at hchange
              exact hchange hv
          · next heq =>
              cases h
              rw [heq] at hchange
              exact hchange hv
  | noticing x notice? =>
      cases h
      exact (v.isServing_tellAny notice?).mp hv
  | closing c =>
      simp only [step, Option.map_eq_some_iff] at h
      obtain ⟨⟨u, c'⟩, hstep, heq⟩ := h
      cases heq
      exact (v.isServing_of_closeStep hstep hv).1
  | _ =>
      cases h
      exact hv

namespace World

theorem isServing_step {w w' : World} {m : Move} (h : w.step m = some w') (hw : w'.view.IsServing) :
    w.view.IsServing := by
  cases m with
  | work visit fault? =>
      obtain ⟨v, hv, rfl⟩ := Option.map_eq_some_iff.mp h
      exact (w.view.isServing_work hv).mp hw
  | drain =>
      simp only [step] at h
      split at h
      · cases h
        exact hw
      · cases h
  | attend =>
      simp only [step] at h
      split at h
      · next e _ =>
          cases h
          exact (w.view.isServing_attend e).mp hw
      · cases h
        exact hw
      · cases h
  | change p =>
      cases h
      exact hw
  | recompute structural =>
      simp only [step, callOpen] at h
      split at h
      · cases h
      · cases h
        exact hw
  | resetFilters =>
      simp only [step, callOpen] at h
      split at h
      · cases h
      · cases h
        exact hw
  | extend row column =>
      simp only [step, callOpen] at h
      split at h
      · cases h
      · cases h
        exact hw
  | shutDown =>
      cases h
      cases hw.2
  | proceed i =>
      simp only [step] at h
      split at h
      · cases h
      · obtain ⟨⟨v, c?⟩, hv, rfl⟩ := Option.map_eq_some_iff.mp h
        exact Call.isServing_step hv hw
  | _ =>
      cases h
      exact hw

theorem core_step {w w' : World} {m : Move} (h : w.step m = some w') (hwork : ∀ visit fault?, m ≠ .work visit fault?)
    (hdrain : m ≠ .drain) (hattend : m ≠ .attend) (hshut : m ≠ .shutDown) :
    w'.view.core = w.view.core ∧ w'.batch = w.batch ∧ w'.errand? = w.errand? := by
  cases m with
  | work visit fault? => exact absurd rfl (hwork visit fault?)
  | drain => exact absurd rfl hdrain
  | attend => exact absurd rfl hattend
  | shutDown => exact absurd rfl hshut
  | recompute structural | resetFilters | extend row column =>
      simp only [step, callOpen] at h
      split at h
      · cases h
      · cases h
        exact ⟨rfl, rfl, rfl⟩
  | proceed i =>
      simp only [step] at h
      split at h
      · cases h
      · obtain ⟨⟨v, c?⟩, hv, rfl⟩ := Option.map_eq_some_iff.mp h
        exact ⟨Call.core_step hv, rfl, rfl⟩
  | _ =>
      cases h
      exact ⟨rfl, rfl, rfl⟩

theorem worker_step {w w' : World} {m : Move} (h : w.step m = some w')
    (hwork : ∀ visit fault?, m ≠ .work visit fault?) : w'.view.worker = w.view.worker := by
  cases m with
  | work visit fault? => exact absurd rfl (hwork visit fault?)
  | drain =>
      simp only [step] at h
      split at h
      · cases h
        rfl
      · cases h
  | attend =>
      simp only [step] at h
      split at h
      · next e _ =>
          cases h
          exact w.view.worker_attend e
      · cases h
        rfl
      · cases h
  | shutDown =>
      cases h
      rfl
  | _ =>
      have hcore := (core_step h hwork (by simp) (by simp) (by simp)).1
      exact congrArg (·.2.1) hcore

theorem work_or_beside {w w' : World} {m : Move} (h : w.step m = some w') :
    (∃ visit fault? v, m = .work visit fault? ∧ w.view.work visit fault? = some v ∧ w' = { w with view := v }) ∨
      ∀ visit fault?, m ≠ .work visit fault? := by
  cases m with
  | work visit fault? =>
      obtain ⟨v, hv, rfl⟩ := Option.map_eq_some_iff.mp h
      exact .inl ⟨visit, fault?, v, rfl, hv, rfl⟩
  | _ => exact .inr (by simp)

theorem run_induction {motive : List Move → World → Prop} {w w' : World} {history : List Move}
    (hrun : w.run history = some w') (hstart : motive [] w)
    (hstep : ∀ before u m u', w.run before = some u → u.step m = some u' → motive before u →
      motive (before ++ [m]) u') : motive history w' := by
  induction history using List.reverseRecOn generalizing w' with
  | nil =>
      cases hrun
      exact hstart
  | append_singleton before m ih =>
      unfold run at hrun
      rw [List.foldlM_append] at hrun
      obtain ⟨u, hu, hm⟩ := Option.bind_eq_some_iff.mp hrun
      obtain ⟨u', hu', heq⟩ := Option.bind_eq_some_iff.mp hm
      cases heq
      exact hstep before u m w' hu hu' (ih hu)

end World

end LiveSheet
