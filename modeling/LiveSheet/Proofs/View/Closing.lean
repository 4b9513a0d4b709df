import LiveSheet.Proofs.View.Requests
import LiveSheet.Proofs.View.Silence

namespace LiveSheet

/-- The worker has looked at the view for the last time before it writes these results back. -/
def Phase.committed? : Phase → Option Finding
  | .pass _ (.silencing f) => some f
  | .pass _ (.storing f) => some f
  | _ => none

def Phase.stores : Phase → Bool
  | .pass _ (.storing _) => true
  | _ => false

theorem Phase.exists_of_stores {p : Phase} (h : p.stores = true) : ∃ asked f, p = .pass asked (.storing f) := by
  rcases p with _ | _ | ⟨asked, s⟩ | _ | _ | _
  case pass =>
    cases s with
    | storing f => exact ⟨asked, f, rfl⟩
    | _ => cases h
  all_goals cases h

def Errand.applies : Errand → Bool
  | .applying _ => true
  | _ => false

theorem Errand.exists_of_applies {e : Errand} (h : e.applies = true) : ∃ p, e = .applying p := by
  cases e with
  | applying p => exact ⟨p, rfl⟩
  | _ => cases h

def Call.closes (c : Closing) : Call → Bool
  | .closing c' => c' == c
  | _ => false

def World.begun (w : World) : List Publication := w.errand?.toList.flatMap Errand.begun

namespace View

variable {v v' : View} {visit : VisitOrder}

theorem committed_work {fault? : Option PassError} (hclosed : v.isClosed = true) (h : v.work visit fault? = some v')
    {f : Finding} (hf : v'.worker.phase.committed? = some f) : v.worker.phase.committed? = some f := by
  unfold work at h
  split at h
  · cases h
    cases hf
  · rw [show v.tracker.take = (v.tracker, some .closed) from if_pos hclosed] at h
    cases h
    cases hf
  · next asked s hphase =>
      cases h
      cases s with
      | noted s | computed g | publishing g =>
          simp only [perform, checkOpen, hclosed, if_true] at hf
          cases hf
      | silencing g =>
          cases hf
          rw [hphase]
          rfl
      | preparing s =>
          simp only [perform] at hf
          split at hf <;> cases hf
      | handing g =>
          obtain ⟨i, hi⟩ := v.exists_setIndicator v.worker.pass .applying
          simp only [perform, hi] at hf
          cases hf
      | scheduling g | comparing g =>
          simp only [perform] at hf
          split at hf <;> cases hf
      | refused g e | recovering | resting =>
          simp only [perform, hclosed, if_true] at hf
          cases hf
      | failing =>
          obtain ⟨i, hi⟩ := exists_setIndicator
            { v with counts := { v.counts with failures := v.counts.failures + 1 } } v.worker.pass .idle
          simp only [perform, hi] at hf
          cases hf
      | _ => cases hf
  · unfold disturb at h
    split at h
    · cases h
      cases hf
    · cases h
      cases hf
    · cases h
      cases hf
    · split at h <;> cases h
      cases hf
    · cases h
  · cases h
    cases hf
  · cases h
    cases hf
  · cases h

theorem not_work_of_stopped {fault? : Option PassError} (hstopped : v.worker.isStopped = true) :
    v.work visit fault? = none := by
  unfold Worker.isStopped at hstopped
  split at hstopped
  · next hphase =>
      unfold work
      rw [hphase]
  · cases hstopped

end View

namespace World

variable {start w w' : World} {history : List Move} {m : Move}

theorem committed_step (hclosed : w.view.isClosed = true) (hm : w.step m = some w') {f : Finding}
    (hf : w'.view.worker.phase.committed? = some f) : w.view.worker.phase.committed? = some f := by
  rcases work_or_beside hm with ⟨visit, fault?, v, rfl, hv, rfl⟩ | hother
  · exact View.committed_work hclosed hv hf
  · rwa [worker_step hm hother] at hf

theorem isStopped_step (hm : w.step m = some w') (hstopped : w.view.worker.isStopped = true) :
    w'.view.worker.isStopped = true := by
  rcases work_or_beside hm with ⟨visit, fault?, v, rfl, hv, rfl⟩ | hother
  · rw [View.not_work_of_stopped hstopped] at hv
    cases hv
  · rwa [worker_step hm hother]

theorem begun_step (hclosed : w.view.isClosed = true) (hm : w.step m = some w') {p : Publication}
    (hp : p ∈ w'.begun) : p ∈ w.begun := by
  cases m with
  | work visit fault? =>
      obtain ⟨v, -, rfl⟩ := Option.map_eq_some_iff.mp hm
      exact hp
  | drain =>
      simp only [step] at hm
      split at hm <;> cases hm
      exact hp
  | attend =>
      simp only [step] at hm
      split at hm
      · next e herrand =>
          cases hm
          unfold begun at hp ⊢
          rw [herrand]
          cases e with
          | called q => simp [View.attend, hclosed] at hp
          | silencing q => exact hp
          | comparing seen =>
              simp only [View.attend] at hp
              split at hp <;> simp [Errand.begun] at hp
          | _ => simp [View.attend, Errand.begun] at hp
      · cases hm
        simp [begun, Errand.begun] at hp
      · cases hm
  | shutDown =>
      cases hm
      exact hp
  | _ =>
      have herrand := (core_step hm (by simp) (by simp) (by simp) (by simp)).2.2
      unfold begun at hp ⊢
      rwa [herrand] at hp

def Happened (start : World) (kind : World → Move → Prop) (history : List Move) : Prop :=
  ∃ before m u, before ++ [m] <+: history ∧ start.run before = some u ∧ kind u m

variable {kind : World → Move → Prop}

theorem not_happened_nil : ¬Happened start kind [] := by
  rintro ⟨before, m, u, hprefix, -⟩
  simp at hprefix

theorem happened_concat (hrun : start.run history = some w) :
    Happened start kind (history ++ [m]) ↔ Happened start kind history ∨ kind w m := by
  constructor
  · rintro ⟨before, m', u, hprefix, hu, hkind⟩
    rcases List.prefix_concat_iff.mp hprefix with heq | hprefix
    · obtain ⟨rfl, rfl⟩ := List.append_singleton_inj.mp heq
      obtain rfl := Option.some.inj (hrun.symm.trans hu)
      exact .inr hkind
    · exact .inl ⟨before, m', u, hprefix, hu, hkind⟩
  · rintro (⟨before, m', u, hprefix, hu, hkind⟩ | hkind)
    · exact ⟨before, m', u, hprefix.trans (List.prefix_append history [m]), hu, hkind⟩
    · exact ⟨history, m, w, List.prefix_refl _, hrun, hkind⟩

theorem exists_closing_of_step {v v' : View} {d : Call} {c : Closing} (h : d.step v = some (v', some (.closing c))) :
    ∃ c', d = .closing c' := by
  cases d with
  | closing c' => exact ⟨c', rfl⟩
  | writing x =>
      simp only [Call.step] at h
      split at h
      · cases h
      · split at h <;> cases h
  | telling n | hearing structural | leaving complete =>
      simp only [Call.step] at h
      split at h <;> cases h
  | _ => cases h

theorem steps_of_closes {c : Closing} {i : Nat} (h : w.calls[i]?.any (Call.closes c) = true) : Steps c w (.proceed i) := by
  obtain ⟨d, hd, hcloses⟩ := (Option.any_eq_true _ _).mp h
  cases d with
  | closing c' =>
      obtain rfl := eq_of_beq hcloses
      exact ⟨i, rfl, hd⟩
  | _ => cases hcloses

theorem closing_step (hm : w.step m = some w') {c : Closing} (hc : .closing c ∈ w'.calls) :
    .closing c ∈ w.calls ∨ c = .marking ∨ ∃ c', Steps c' w m := by
  by_cases hproceed : ∀ i, m ≠ .proceed i
  · obtain ⟨new, hcalls, -, hnew⟩ := calls_step hm hproceed
    rw [hcalls, List.mem_append] at hc
    exact hc.imp_right fun hc => .inl (hnew c hc)
  · push Not at hproceed
    obtain ⟨i, rfl⟩ := hproceed
    obtain ⟨d, d?, hd, hstep, hcalls⟩ := calls_proceed hm
    rw [hcalls] at hc
    cases d? with
    | none => exact .inl (List.mem_of_mem_eraseIdx hc)
    | some d' =>
        rcases List.mem_or_eq_of_mem_set hc with hc | rfl
        · exact .inl hc
        · obtain ⟨c', rfl⟩ := exists_closing_of_step hstep
          exact .inr (.inr ⟨c', i, rfl, hd⟩)

theorem isClosed_of_closing (hstart : start.calls = []) (hrun : start.run history = some w) {c : Closing}
    (hc : .closing c ∈ w.calls) (hpast : c ≠ .marking) : w.view.isClosed = true := by
  refine run_induction (motive := fun _ w => ∀ c, .closing c ∈ w.calls → c ≠ .marking → w.view.isClosed = true) hrun
    (fun c hc _ => ?_) (fun before u m u' hu hm ih c hc hpast => ?_) c hc hpast
  · simp [hstart] at hc
  · by_contra hopen
    rw [Bool.not_eq_true] at hopen
    have hmarking := not_marking_of_open hm hopen
    have hbefore : ∀ c, .closing c ∈ u.calls → c = .marking := by
      intro c hc
      by_contra hne
      rw [isClosed_of_not_marking hm hmarking, ih c hc hne] at hopen
      cases hopen
    rcases closing_step hm hc with hc | hc | ⟨c', hsteps⟩
    · exact hpast (hbefore c hc)
    · exact hpast hc
    · obtain ⟨i, hproceed, hi⟩ := hsteps
      obtain rfl := hbefore c' (List.mem_of_getElem? hi)
      exact hmarking ⟨i, hproceed, hi⟩

theorem not_steps_of_open (hstart : start.calls = []) (hrun : start.run history = some w)
    (hopen : w.view.isClosed = false) {c : Closing} (hpast : c ≠ .marking) : ¬Steps c w m := by
  rintro ⟨i, -, hi⟩
  have hclosed := isClosed_of_closing hstart hrun (List.mem_of_getElem? hi) hpast
  rw [hopen] at hclosed
  cases hclosed

/-- The view was closed by this move, and what goes on now went on then. -/
structure ClosedBy (u : World) (m : Move) (w : World) : Prop where
  isOpen : u.view.isClosed = false
  marking : Steps .marking u m
  begun : ∀ p ∈ w.begun, p ∈ u.begun
  committed : ∀ f, w.view.worker.phase.committed? = some f → u.view.worker.phase.committed? = some f

theorem exists_closedBy (hstart : start.view.isClosed = false) (hrun : start.run history = some w)
    (hclosed : w.view.isClosed = true) :
    ∃ before m u, before ++ [m] <+: history ∧ start.run before = some u ∧ ClosedBy u m w := by
  refine run_induction (motive := fun history w => w.view.isClosed = true →
    ∃ before m u, before ++ [m] <+: history ∧ start.run before = some u ∧ ClosedBy u m w) hrun
    (fun hclosed => ?_) (fun before u m u' hu hm ih hclosed => ?_) hclosed
  · rw [hstart] at hclosed
    cases hclosed
  · cases hbefore : u.view.isClosed with
    | true =>
        obtain ⟨made, m', x, hprefix, hx, h⟩ := ih hbefore
        refine ⟨made, m', x, hprefix.trans (List.prefix_append before [m]), hx, h.isOpen, h.marking, ?_, ?_⟩
        · exact fun p hp => h.begun p (begun_step hbefore hm hp)
        · exact fun f hf => h.committed f (committed_step hbefore hm hf)
    | false =>
        have hmarking : Steps .marking u m := by
          by_contra hmarking
          rw [isClosed_of_not_marking hm hmarking, hbefore] at hclosed
          cases hclosed
        refine ⟨before, m, u, List.prefix_refl _, hu, hbefore, hmarking, fun p hp => ?_, fun f hf => ?_⟩
        · obtain ⟨i, rfl, -⟩ := hmarking
          have herrand := (core_step hm (by simp) (by simp) (by simp) (by simp)).2.2
          unfold begun at hp ⊢
          rwa [herrand] at hp
        · obtain ⟨i, rfl, -⟩ := hmarking
          rwa [worker_step hm (by simp)] at hf

theorem isStopped_of_awaited (hrun : start.run history = some w) (hawaited : Happened start (Steps .awaiting) history) :
    w.view.worker.isStopped = true := by
  refine run_induction (motive := fun history w => Happened start (Steps .awaiting) history →
    w.view.worker.isStopped = true) hrun (fun h => absurd h not_happened_nil)
    (fun before u m u' hu hm ih h => ?_) hawaited
  rcases (happened_concat hu).mp h with h | ⟨i, rfl, hi⟩
  · exact isStopped_step hm (ih h)
  · simp only [step, hi, Call.step, View.closeStep] at hm
    split at hm
    · next hstopped =>
        cases hm
        exact hstopped
    · cases hm

/-- Once a call that closes the view has returned, the owner applies only what he had begun when the view was closed. The
worker writes back only what it was about to write then, and only if no caller that waited for it has got past that. -/
theorem goes_on_behind_close {source : Source Unit} {config : Config} {v : View}
    (hstart : View.start source config = .ok v) (hrun : run ⟨v, [], none, []⟩ history = some w)
    (hreturned : Happened ⟨v, [], none, []⟩ (Steps .freezing) history) :
    let start : World := ⟨v, [], none, []⟩
    ∃ before m u, before ++ [m] <+: history ∧ start.run before = some u ∧ u.view.isClosed = false ∧ Steps .marking u m ∧
      (∀ p, w.errand? = some (.applying p) → u.errand? = some (.silencing p) ∨ u.errand? = some (.applying p)) ∧
      ∀ asked f, w.view.worker.phase = .pass asked (.storing f) →
        u.view.worker.phase.committed? = some f ∧ ¬Happened start (Steps .awaiting) history := by
  intro start
  have hopen : start.view.isClosed = false := by
    obtain rfl := View.opened_of_start hstart
    rfl
  have hclosed : w.view.isClosed = true := by
    obtain ⟨before, m, u, ⟨rest, hrest⟩, hu, hsteps⟩ := hreturned
    by_contra hstill
    rw [Bool.not_eq_true] at hstill
    have hprefix : before <+: history := ⟨_, by rw [← hrest, List.append_assoc]⟩
    obtain ⟨u', hu', hopen'⟩ := isClosed_run hrun hstill hprefix
    obtain rfl := Option.some.inj (hu.symm.trans hu')
    exact not_steps_of_open rfl hu hopen' (by simp) hsteps
  obtain ⟨before, m, u, hprefix, hu, h⟩ := exists_closedBy hopen hrun hclosed
  refine ⟨before, m, u, hprefix, hu, h.isOpen, h.marking, fun p hp => ?_, fun asked f hf => ⟨?_, fun hawaited => ?_⟩⟩
  · have hbegun : p ∈ u.begun := h.begun p (by simp [begun, hp, Errand.begun])
    unfold begun at hbegun
    cases herrand : u.errand? with
    | none => simp [herrand] at hbegun
    | some e =>
        rw [herrand] at hbegun
        cases e <;> simp_all [Errand.begun]
  · exact h.committed f (by rw [hf]; rfl)
  · have hstopped := isStopped_of_awaited hrun hawaited
    rw [Worker.isStopped, hf] at hstopped
    cases hstopped

theorem goes_on_behind_close_of_second_caller :
    let source : Source Unit := .ofSchema { columns := [⟨"x", .native, some 0⟩] }
    let returning : List Move := List.replicate 11 (.work .ascending none) ++ [.close, .close] ++
      List.replicate 3 (.proceed 0) ++ List.replicate 3 (.proceed 1)
    let history : List Move := returning ++ [.proceed 1] ++ [.work .ascending none]
    ∃ v w asked f, View.start source {} = .ok v ∧ run ⟨v, [], none, []⟩ history = some w ∧
      Happened ⟨v, [], none, []⟩ (Steps .freezing) history ∧ w.view.worker.phase = .pass asked (.storing f) ∧
      ∃ before m u, before ++ [m] <+: history ∧ run ⟨v, [], none, []⟩ before = some u ∧ Steps .marking u m ∧
        u.view.worker.phase.committed? = some f := by
  intro source returning history
  let v := View.opened source {}
  have hstart : View.start source {} = .ok v := View.start_of_valid (by decide +kernel)
  let w := (run ⟨v, [], none, []⟩ history).get (by decide +kernel)
  have hrun : run ⟨v, [], none, []⟩ history = some w := (Option.some_get _).symm
  let u := (run ⟨v, [], none, []⟩ returning).get (by decide +kernel)
  have hu : run ⟨v, [], none, []⟩ returning = some u := (Option.some_get _).symm
  have hreturned : Happened ⟨v, [], none, []⟩ (Steps .freezing) history :=
    ⟨returning, .proceed 1, u, List.prefix_append _ _, hu, steps_of_closes (by decide +kernel)⟩
  obtain ⟨asked, f, hf⟩ := Phase.exists_of_stores (p := w.view.worker.phase) (by decide +kernel)
  obtain ⟨before, m, x, hprefix, hx, -, hmarking, -, hstores⟩ := goes_on_behind_close hstart hrun hreturned
  exact ⟨v, w, asked, f, hstart, hrun, hreturned, hf, before, m, x, hprefix, hx, hmarking, (hstores asked f hf).1⟩

/-- The owner has looked at the view and applies the publication when the call that closed the view has returned. -/
theorem not_quiet_behind_close : ¬∀ (source : Source Unit) (config : Config) (v : View) (history : List Move) (w : World),
    View.start source config = .ok v → run ⟨v, [], none, []⟩ history = some w →
    Happened ⟨v, [], none, []⟩ (Steps .freezing) history →
    (∀ p, w.errand? ≠ some (.applying p)) ∧ ∀ asked f, w.view.worker.phase ≠ .pass asked (.storing f) := by
  intro h
  let source : Source Unit := .ofSchema { columns := [⟨"x", .native, some 0⟩] }
  let returning : List Move := List.replicate 23 (.work .ascending none) ++ [.drain, .attend, .attend, .close] ++
    List.replicate 3 (.proceed 0) ++ List.replicate 2 (.work .ascending none) ++ [.proceed 0]
  let history : List Move := returning ++ [.proceed 0] ++ [.attend]
  let v := View.opened source {}
  have hstart : View.start source {} = .ok v := View.start_of_valid (by decide +kernel)
  let w := (run ⟨v, [], none, []⟩ history).get (by decide +kernel)
  have hrun : run ⟨v, [], none, []⟩ history = some w := (Option.some_get _).symm
  let u := (run ⟨v, [], none, []⟩ returning).get (by decide +kernel)
  have hu : run ⟨v, [], none, []⟩ returning = some u := (Option.some_get _).symm
  have hreturned : Happened ⟨v, [], none, []⟩ (Steps .freezing) history :=
    ⟨returning, .proceed 0, u, List.prefix_append _ _, hu, steps_of_closes (by decide +kernel)⟩
  have happlies : w.errand?.any Errand.applies = true := by decide +kernel
  obtain ⟨e, he, happlies⟩ := (Option.any_eq_true _ _).mp happlies
  obtain ⟨p, rfl⟩ := Errand.exists_of_applies happlies
  exact (h source {} v history w hstart hrun hreturned).1 p he

end World

end LiveSheet
