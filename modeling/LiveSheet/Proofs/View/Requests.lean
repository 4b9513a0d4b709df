import LiveSheet.Proofs.View.Refusals

namespace LiveSheet

namespace Tracker

def markAll (t : Tracker) (requests : List Bool) : Tracker := requests.foldl mark t

theorem markAll_eq (t : Tracker) (requests : List Bool) : t.markAll requests =
    { t with
      isDirty := t.isDirty || !requests.isEmpty
      isStructural := t.isStructural || requests.any id } := by
  induction requests generalizing t with
  | nil => simp [markAll]
  | cons structural requests ih =>
      rw [markAll, List.foldl_cons, ← markAll, ih]
      simp [mark, Bool.or_assoc]

end Tracker

namespace View

def heard (v : View) (notice? : Option Notice) : List Bool :=
  if v.silence.isKept then []
  else notice?.toList.flatMap fun n => v.source.observers.map fun _ => n.isStructural

theorem tracker_tellAny (v : View) (notice? : Option Notice) :
    (v.tellAny notice?).tracker = v.tracker.markAll (v.heard notice?) := by
  cases hkept : v.silence.isKept with
  | true => simp [v.tellAny_of_kept hkept, heard, hkept, Tracker.markAll]
  | false =>
      have htell (n : Notice) (os : List Unit) (v : View) (hkept : v.silence.isKept = false) :
          (os.foldl (fun v _ => (v.hear n.isStructural).1) v).tracker =
            v.tracker.markAll (os.map fun _ => n.isStructural) := by
        induction os generalizing v with
        | nil => rfl
        | cons o os ih =>
            refine (ih (v.hear n.isStructural).1 hkept).trans ?_
            simp [hear, Tracker.hear, hkept, Tracker.markAll]
      cases notice? with
      | none => simp [heard, tellAny, Tracker.markAll]
      | some n =>
          have hheard : v.heard (some n) = v.source.observers.map fun _ => n.isStructural := by simp [heard, hkept]
          rw [hheard]
          exact htell n v.source.observers v hkept

end View

def Stage.requests (v : View) (asked : Bool) : Stage → List Bool
  | .telling _ notice? => v.heard notice?
  | .requesting structural => [structural]
  | .retrying => [asked]
  | _ => []

def World.requests (w : World) : Move → List Bool
  | .work _ none =>
      match w.view.worker.phase with
      | .pass asked s => s.requests w.view asked
      | _ => []
  | .attend =>
      match w.errand? with
      | some (.requesting structural) => [structural]
      | _ => []
  | .proceed i =>
      match w.calls[i]? with
      | some (.marking structural) => [structural]
      | some (.noticing _ notice?) => w.view.heard notice?
      | _ => []
  | _ => []

def Phase.asked? : Phase → Option Bool
  | .pass asked _ => some asked
  | _ => none

namespace View

variable (v : View) {visit : VisitOrder} {asked : Bool} {s : Stage}

theorem tracker_perform :
    (v.perform visit asked s).tracker = v.tracker.markAll (s.requests v asked) := by
  cases s with
  | noted s | computed f | publishing f =>
      simp only [perform, checkOpen]
      split <;> rfl
  | preparing s =>
      simp only [perform]
      split <;> rfl
  | telling f notice? => exact v.tracker_tellAny notice?
  | handing f =>
      obtain ⟨i, hi⟩ := v.exists_setIndicator v.worker.pass .applying
      simp only [perform, hi]
      rfl
  | scheduling f | refused f e | comparing f | recovering | resting =>
      simp only [perform]
      split <;> rfl
  | failing =>
      obtain ⟨i, hi⟩ := exists_setIndicator
        { v with counts := { v.counts with failures := v.counts.failures + 1 } } v.worker.pass .idle
      simp only [perform, hi]
      rfl
  | _ => rfl

theorem asked?_perform (hopen : v.isClosed = false) :
    (v.perform visit asked s).worker.phase.asked? = some asked ∨
      (v.perform visit asked s).worker.phase = .finishing ∧ (s = .succeeding ∨ s = .retrying) := by
  cases s with
  | noted s | computed f | publishing f =>
      simp only [perform, checkOpen_of_open hopen]
      exact .inl rfl
  | preparing s =>
      simp only [perform]
      split <;> exact .inl rfl
  | handing f =>
      obtain ⟨i, hi⟩ := v.exists_setIndicator v.worker.pass .applying
      simp only [perform, hi]
      exact .inl rfl
  | scheduling f | comparing f =>
      simp only [perform]
      split <;> exact .inl rfl
  | refused f e | recovering | resting =>
      simp only [perform, hopen]
      exact .inl rfl
  | failing =>
      obtain ⟨i, hi⟩ := exists_setIndicator
        { v with counts := { v.counts with failures := v.counts.failures + 1 } } v.worker.pass .idle
      simp only [perform, hi]
      exact .inl rfl
  | succeeding => exact .inr ⟨rfl, .inl rfl⟩
  | retrying => exact .inr ⟨rfl, .inr rfl⟩
  | _ => exact .inl rfl

theorem asked?_disturb {v' : View} {fault : PassError} (h : v.disturb asked s fault = some v') :
    v'.worker.phase.asked? = some asked ∧ v'.tracker = v.tracker := by
  unfold disturb at h
  split at h
  · cases h
    exact ⟨rfl, rfl⟩
  · cases h
    exact ⟨rfl, rfl⟩
  · cases h
    exact ⟨rfl, rfl⟩
  · split at h
    · cases h
      refine ⟨rfl, ?_⟩
      split <;> rfl
    · cases h
  · cases h

theorem isClosed_work {v v' : View} {fault? : Option PassError} (h : v.work visit fault? = some v') :
    v'.isClosed = v.isClosed := by
  unfold work at h
  split at h
  · cases h
    rfl
  · have htake : (v.tracker.take).1.isClosed = v.tracker.isClosed := by
      unfold Tracker.take
      split
      · rfl
      · split <;> rfl
    split at h
    · cases h
    · next heq =>
        cases h
        rw [heq] at htake
        exact htake
    · next heq =>
        cases h
        rw [heq] at htake
        exact htake
  · cases h
    rw [isClosed, tracker_perform, Tracker.markAll_eq]
    rfl
  · rw [isClosed, (v.asked?_disturb h).2]
    rfl
  · cases h
    rfl
  · cases h
    rfl
  · cases h

end View

namespace World

variable {start w w' : World} {history : List Move} {m : Move}

def Steps (c : Closing) (w : World) (m : Move) : Prop := ∃ i, m = .proceed i ∧ w.calls[i]? = some (.closing c)

theorem tracker_proceed {i : Nat} (hm : w.step (.proceed i) = some w')
    (hmarking : w.calls[i]? ≠ some (.closing .marking)) : w'.view.tracker = w.view.tracker.markAll (w.requests (.proceed i)) := by
  simp only [step] at hm
  split at hm
  · cases hm
  · next c hc =>
      obtain ⟨⟨v, c?⟩, hstep, rfl⟩ := Option.map_eq_some_iff.mp hm
      simp only [requests, hc]
      cases c with
      | noticing x notice? =>
          cases hstep
          exact w.view.tracker_tellAny notice?
      | writing x =>
          simp only [Call.step] at hstep
          split at hstep
          · cases hstep
            rfl
          · next row rows _ =>
              have hchange : (w.view.change (.edit (.setFormula row (.index x.column) (x.textFor row)))).1.tracker =
                w.view.tracker := rfl
              split at hstep
              · next heq =>
                  cases hstep
                  rw [heq] at hchange
                  exact hchange
              · next heq =>
                  cases hstep
                  rw [heq] at hchange
                  exact hchange
      | closing c =>
          simp only [Call.step, Option.map_eq_some_iff] at hstep
          obtain ⟨⟨u, c'⟩, hstep, heq⟩ := hstep
          cases heq
          cases c with
          | marking => exact absurd hc hmarking
          | awaiting =>
              simp only [View.closeStep] at hstep
              split at hstep <;> cases hstep
              rfl
          | done => cases hstep
          | _ =>
              cases hstep
              rfl
      | _ =>
          cases hstep
          rfl

theorem tracker_step (hm : w.step m = some w') (hwork : ∀ visit fault?, m ≠ .work visit fault?)
    (hmarking : ¬Steps .marking w m) : w'.view.tracker = w.view.tracker.markAll (w.requests m) := by
  cases m with
  | work visit fault? => exact absurd rfl (hwork visit fault?)
  | drain =>
      simp only [step] at hm
      split at hm
      · cases hm
        rfl
      · cases hm
  | attend =>
      simp only [step] at hm
      split at hm
      · next e herrand =>
          cases hm
          simp only [requests, herrand]
          cases e with
          | counting p =>
              obtain ⟨i, hi⟩ := View.exists_setIndicator
                { w.view with counts := { w.view.counts with publications := w.view.counts.publications + 1 } }
                p.pass .idle
              simp only [View.attend, hi]
              rfl
          | _ => rfl
      · next herrand _ =>
          cases hm
          simp only [requests, herrand]
          rfl
      · cases hm
  | recompute structural | resetFilters | extend row column =>
      simp only [step, callOpen] at hm
      split at hm
      · cases hm
      · cases hm
        rfl
  | proceed i => exact tracker_proceed hm fun hc => hmarking ⟨i, rfl, hc⟩
  | _ =>
      cases hm
      rfl

theorem isClosed_of_marking (hm : w.step m = some w') (hmarking : Steps .marking w m) : w'.view.isClosed = true := by
  obtain ⟨i, rfl, hc⟩ := hmarking
  simp only [step, hc, Call.step, View.closeStep, Option.map_some] at hm
  cases hm
  rfl

theorem isClosed_of_not_marking (hm : w.step m = some w') (hmarking : ¬Steps .marking w m) :
    w'.view.isClosed = w.view.isClosed := by
  rcases work_or_beside hm with ⟨visit, fault?, v, rfl, hv, rfl⟩ | hother
  · exact View.isClosed_work hv
  · rw [View.isClosed, tracker_step hm hother hmarking, Tracker.markAll_eq]
    rfl

theorem not_marking_of_open (hm : w.step m = some w') (hopen : w'.view.isClosed = false) : ¬Steps .marking w m := by
  intro hmarking
  rw [isClosed_of_marking hm hmarking] at hopen
  cases hopen

theorem isClosed_step (hm : w.step m = some w') (hopen : w'.view.isClosed = false) : w.view.isClosed = false := by
  rw [← isClosed_of_not_marking hm (not_marking_of_open hm hopen)]
  exact hopen

theorem isClosed_run (hrun : start.run history = some w) (hopen : w.view.isClosed = false) {before : List Move}
    (hbefore : before <+: history) : ∃ u, start.run before = some u ∧ u.view.isClosed = false := by
  obtain ⟨rest, rfl⟩ := hbefore
  induction rest using List.reverseRecOn generalizing w with
  | nil =>
      rw [List.append_nil] at hrun
      exact ⟨w, hrun, hopen⟩
  | append_singleton rest m ih =>
      rw [← List.append_assoc, run_concat] at hrun
      obtain ⟨u, hu, hm⟩ := Option.bind_eq_some_iff.mp hrun
      exact ih (isClosed_step hm hopen) hu

structure Adds (w w' : World) (m : Move) : Prop where
  dirty : w'.view.tracker.isDirty = (w.view.tracker.isDirty || !(w.requests m).isEmpty)
  structural : w'.view.tracker.isStructural = (w.view.tracker.isStructural || (w.requests m).any id)
  asked : w'.view.worker.phase.asked? = w.view.worker.phase.asked? ∧
      w'.view.tracker.inFlight = w.view.tracker.inFlight ∨
    w'.view.worker.phase.asked? = none ∧
      (w.view.worker.phase.asked? = none ∨ ∃ asked visit s, w.view.worker.phase = .pass asked s ∧
        m = .work visit none ∧ (s = .succeeding ∨ s = .retrying))

structure TakesAll (w w' : World) (m : Move) : Prop where
  work : ∃ visit, m = .work visit none
  waits : w.view.worker.phase = .waiting
  dirty : w.view.tracker.isDirty = true
  begins : w'.view.worker.phase = .pass w.view.tracker.isStructural .woken
  clear : w'.view.tracker.isDirty = false ∧ w'.view.tracker.isStructural = false
  inFlight : w'.view.tracker.inFlight = true

theorem adds_of_tracker (htracker : w'.view.tracker = w.view.tracker.markAll (w.requests m))
    (hphase : w'.view.worker.phase.asked? = w.view.worker.phase.asked? ∨
      w'.view.worker.phase.asked? = none ∧ ∃ asked visit s, w.view.worker.phase = .pass asked s ∧
        m = .work visit none ∧ (s = .succeeding ∨ s = .retrying)) : Adds w w' m := by
  rw [Tracker.markAll_eq] at htracker
  refine ⟨by rw [htracker], by rw [htracker], hphase.imp (fun hsame => ⟨hsame, by rw [htracker]⟩) ?_⟩
  exact And.imp_right .inr

theorem adds_or_takes_work {v : View} {visit : VisitOrder} {fault? : Option PassError}
    (hv : w.view.work visit fault? = some v) (hopen : w.view.isClosed = false) :
    Adds w { w with view := v } (.work visit fault?) ∨ TakesAll w { w with view := v } (.work visit fault?) := by
  have hstill (hrequests : w.requests (.work visit fault?) = []) (htracker : v.tracker = w.view.tracker) :
      v.tracker = w.view.tracker.markAll (w.requests (.work visit fault?)) := by
    rw [hrequests]
    exact htracker
  unfold View.work at hv
  split at hv
  · next hphase =>
      cases hv
      exact .inl (adds_of_tracker (hstill (by simp [requests, hphase]) rfl) (.inl (by rw [hphase]; rfl)))
  · next hphase =>
      rw [View.isClosed] at hopen
      simp only [Tracker.take, hopen, Bool.false_eq_true, if_false] at hv
      cases hdirty : w.view.tracker.isDirty with
      | false =>
          rw [hdirty] at hv
          cases hv
      | true =>
          rw [hdirty] at hv
          cases hv
          exact .inr ⟨⟨visit, rfl⟩, hphase, hdirty, rfl, ⟨rfl, rfl⟩, rfl⟩
  · next asked s hphase =>
      cases hv
      have hrequests : w.requests (.work visit none) = s.requests w.view asked := by simp [requests, hphase]
      refine .inl (adds_of_tracker ?_ ?_)
      · rw [hrequests]
        exact w.view.tracker_perform
      · rcases w.view.asked?_perform hopen with hgoes | ⟨hends, hs⟩
        · refine .inl (hgoes.trans ?_)
          rw [hphase]
          rfl
        · refine .inr ⟨?_, asked, visit, s, hphase, rfl, hs⟩
          rw [hends]
          rfl
  · next asked s fault hphase =>
      obtain ⟨hasked, htracker⟩ := w.view.asked?_disturb hv
      refine .inl (adds_of_tracker (hstill rfl htracker) (.inl (hasked.trans ?_)))
      rw [hphase]
      rfl
  · next hphase =>
      cases hv
      have hrequests : w.requests (.work visit none) = [] := by simp [requests, hphase]
      refine .inl ⟨?_, ?_, .inr ⟨rfl, .inl (by rw [hphase]; rfl)⟩⟩
      · simp [hrequests, View.stand, Tracker.finish]
      · simp [hrequests, View.stand, Tracker.finish]
  · next hphase =>
      cases hv
      exact .inl (adds_of_tracker (hstill (by simp [requests, hphase]) rfl) (.inl (by rw [hphase]; rfl)))
  · cases hv

theorem adds_or_takes (hm : w.step m = some w') (hopen : w'.view.isClosed = false) : Adds w w' m ∨ TakesAll w w' m := by
  rcases work_or_beside hm with ⟨visit, fault?, v, rfl, hv, rfl⟩ | hother
  · exact adds_or_takes_work hv (isClosed_step hm hopen)
  · refine .inl (adds_of_tracker (tracker_step hm hother (not_marking_of_open hm hopen)) (.inl ?_))
    rw [worker_step hm hother]

end World

end LiveSheet
