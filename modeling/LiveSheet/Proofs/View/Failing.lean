import LiveSheet.Proofs.View.Answers
import LiveSheet.Proofs.View.Extending

namespace LiveSheet

namespace View

variable {v v' : View} {visit : VisitOrder} {asked : Bool} {sections rest : Nat}

def unhush (v : View) (sections : Nat) : View := { v with silence := ⟨v.silence.depth - sections⟩ }

theorem unhush_ite (p : Prop) [Decidable p] (v v' : View) (sections : Nat) :
    (if p then v else v').unhush sections = if p then v.unhush sections else v'.unhush sections :=
  apply_ite (unhush · sections) ..

theorem enterSilence_unhush (h : sections ≤ v.silence.depth) :
    (v.unhush sections).enterSilence = v.enterSilence.unhush sections :=
  congrArg (fun depth => { v with silence := ⟨depth⟩ }) (Nat.sub_add_comm h).symm

theorem leaveSilence_unhush (v : View) (sections : Nat) :
    (v.unhush sections).leaveSilence = v.leaveSilence.unhush sections :=
  congrArg (fun depth => { v with silence := ⟨depth⟩ }) (Nat.sub_right_comm ..)

theorem setIndicator_unhush (v : View) (sections pass : Nat) (b : Busy) :
    (v.unhush sections).setIndicator pass b = (v.setIndicator pass b).unhush sections := by
  rw [setIndicator, setIndicator, unhush_ite]
  rfl

theorem perform_unhush {s : Stage} (h : v.silence.depth = s.isSilent.toNat + (sections + rest)) :
    (v.unhush sections).perform visit asked s = (v.perform visit asked s).unhush sections := by
  cases s with
  | noted s | computed f | publishing f =>
      simp only [perform, checkOpen, unhush_ite]
      rfl
  | preparing s =>
      have hle : sections ≤ v.silence.depth := by omega
      have henter := congrArg (onto · asked (.rebuilding s))
        (enterSilence_unhush (v := { v with activity := .computing }) hle)
      simp only [perform, unhush_ite]
      exact congrArg (ite _ · _) henter
  | rebuilding s =>
      exact congrArg (onto · asked (.computing s true)) (leaveSilence_unhush
        { v with worker := { v.worker with sheet := .empty, schema? := some s.schema } } sections)
  | silencing f =>
      have hle : sections ≤ v.silence.depth := by omega
      exact congrArg (onto · asked (.storing f)) (enterSilence_unhush hle)
  | telling f notice? =>
      have hdepth : v.silence.depth = 1 + (sections + rest) := h
      have hkept : v.silence.isKept = true := Silence.isKept_of_pos (by omega)
      have hkept' : (v.unhush sections).silence.isKept = true :=
        Silence.isKept_of_pos (Nat.sub_pos_of_lt (by omega))
      simp only [perform, tellAny_of_kept _ hkept, tellAny_of_kept _ hkept', leaveSilence_unhush]
      rfl
  | handing f =>
      exact congrArg (onto · asked (.scheduling f)) (v.setIndicator_unhush sections v.worker.pass .applying)
  | scheduling f =>
      have hsame : (v.unhush sections).consumer.schedule ⟨(v.unhush sections).worker.pass, f.update⟩ =
        v.consumer.schedule ⟨v.worker.pass, f.update⟩ := rfl
      simp only [perform, hsame]
      split <;> rfl
  | refused f e | comparing f | recovering | resting =>
      simp only [perform, unhush_ite]
      rfl
  | failing =>
      exact congrArg (onto · asked .recovering) (setIndicator_unhush
        { v with counts := { v.counts with failures := v.counts.failures + 1 } } sections v.worker.pass .idle)
  | _ => rfl

theorem disturb_unhush {s : Stage} {fault : PassError} (hv : v.disturb asked s fault = some v') :
    (v.unhush sections).disturb asked s fault = some (v'.unhush sections) := by
  unfold disturb at hv ⊢
  split at hv
  · cases hv
    rfl
  · cases hv
    rfl
  · cases hv
    rfl
  · split at hv
    · next hunder =>
        cases hv
        rw [if_pos hunder]
        cases hsilent : Stage.isSilent _ with
        | true =>
          simp only [if_true, leaveSilence_unhush]
          rfl
        | false => rfl
    · cases hv
  · cases hv

theorem work_unhush {fault? : Option PassError}
    (h : v.silence.depth = v.worker.phase.isSilent.toNat + (sections + rest)) (hv : v.work visit fault? = some v') :
    (v.unhush sections).work visit fault? = some (v'.unhush sections) := by
  have hworker : (v.unhush sections).worker = v.worker := rfl
  have htracker : (v.unhush sections).tracker = v.tracker := rfl
  unfold work at hv ⊢
  rw [hworker, htracker]
  split at hv
  · cases hv
    rfl
  · split at hv
    · cases hv
    · cases hv
      rfl
    · cases hv
      rfl
  · next hphase =>
      rw [hphase] at h
      cases hv
      exact congrArg some (perform_unhush h)
  · exact disturb_unhush hv
  · cases hv
    rfl
  · cases hv
    rfl
  · cases hv

theorem attend_unhush (h : sections ≤ v.silence.depth) (e : Errand) :
    (v.unhush sections).attend e = ((v.attend e).1.unhush sections, (v.attend e).2) := by
  cases e with
  | silencing p => exact congrArg (·, _) (enterSilence_unhush h)
  | applied p => exact congrArg (·, _) (v.leaveSilence_unhush sections)
  | counting p => exact congrArg (·, _) (setIndicator_unhush
      { v with counts := { v.counts with publications := v.counts.publications + 1 } } sections p.pass .idle)
  | _ => rfl

end View

namespace Call

/-- The request that the call makes at its end, unless it fails; any other call stands for itself. -/
def standIn : Call → Call
  | .resetting | .hushing _ | .writing _ | .noticing _ _ | .leaving _ => .marking false
  | c => c

def hasFailed : Call → Bool
  | .leaving false => true
  | _ => false

variable {v v' : View} {c : Call} {c? : Option Call}

theorem isNotice_of_isSilent (h : c.isSilent = true) : c.standIn.isNotice = true := by
  cases c <;> first | rfl | cases h

theorem standIn_step (hstep : c.step v = some (v', c?)) (hlistened : v.source.listeners ≠ [])
    (hopen : v'.isClosed = false) (hordinary : c.standIn.isOrdinary = true) :
    (∀ d ∈ c?, d.standIn.isOrdinary = true) ∧ v'.source.listeners = v.source.listeners ∧
      ((∃ d ∈ c?, d.standIn.isNotice = true) ∨ v'.tracker.isDirty = true ∨
        c.isSilent = false ∧ c? = none ∧ v.silence.isKept = true ∨ c.hasFailed = true) := by
  have hsome {d : Call} (hd : d.standIn.isOrdinary = true) : ∀ d' ∈ some d, d'.standIn.isOrdinary = true :=
    fun d' hd' => Option.mem_some.mp hd' ▸ hd
  cases c with
  | telling n =>
      have hlisteners : v.source.listeners.isEmpty = false := by simpa using hlistened
      simp only [step, hlisteners, Bool.false_eq_true, if_false] at hstep
      cases hstep
      exact ⟨hsome rfl, rfl, .inl ⟨_, rfl, rfl⟩⟩
  | hearing structural =>
      simp only [step] at hstep
      split at hstep
      · next hkept =>
          cases hstep
          exact ⟨by simp, rfl, .inr (.inr (.inl ⟨rfl, rfl, hkept⟩))⟩
      · cases hstep
        exact ⟨hsome rfl, rfl, .inl ⟨_, rfl, rfl⟩⟩
  | marking structural =>
      cases hstep
      exact ⟨by simp, rfl, .inr (.inl rfl)⟩
  | writing x =>
      simp only [step] at hstep
      split at hstep
      · cases hstep
        exact ⟨hsome rfl, rfl, .inl ⟨_, rfl, rfl⟩⟩
      · next row rows _ =>
          have hchange := v.source.listeners_produce (.edit (.setFormula row (.index x.column) (x.textFor row)))
          split at hstep
          · next heq =>
              cases hstep
              refine ⟨hsome rfl, ?_, .inl ⟨_, rfl, rfl⟩⟩
              rw [← hchange]
              exact congrArg (·.1.source.listeners) heq.symm
          · next heq =>
              cases hstep
              refine ⟨hsome rfl, ?_, .inl ⟨_, rfl, rfl⟩⟩
              rw [← hchange]
              exact congrArg (·.1.source.listeners) heq.symm
  | noticing x notice? =>
      obtain ⟨t, ht⟩ := v.exists_tellAny notice?
      simp only [step, ht] at hstep
      cases hstep
      exact ⟨hsome rfl, rfl, .inl ⟨_, rfl, rfl⟩⟩
  | leaving complete =>
      cases complete with
      | true =>
          cases hstep
          exact ⟨hsome rfl, rfl, .inl ⟨_, rfl, rfl⟩⟩
      | false =>
          cases hstep
          exact ⟨by simp, rfl, .inr (.inr (.inr rfl))⟩
  | closing k =>
      cases k with
      | marking =>
          cases hstep
          cases hopen
      | _ => cases hordinary
  | _ =>
      cases hstep
      exact ⟨hsome rfl, rfl, .inl ⟨_, rfl, rfl⟩⟩

end Call

namespace World

variable {w w' : World} {m : Move} {lost : Bool}

/-- The world with a request in place of each call that is going to make one, and without the silence of extensions. One
more request stands for those that failed, if anything is lost. -/
def standIn (w : World) (lost : Bool) : World :=
  { w with
    view := w.view.unhush (w.calls.countP Call.isSilent)
    calls := (if lost then [.marking false] else []) ++ w.calls.map Call.standIn }

def failsBy (w : World) : Move → Bool
  | .proceed i => w.calls[i]?.any Call.hasFailed
  | _ => false

theorem standIn_call {c? : Option Call} (hc : ∀ c ∈ c?, c.isSilent = false) :
    (w.call c?).standIn lost = (w.standIn lost).call (c?.map Call.standIn) := by
  cases c? with
  | none => simp [World.call, standIn]
  | some c => simp [World.call, standIn, List.countP_append, hc c rfl]

theorem mem_standIn {c : Call} (hc : c ∈ w.calls) : c.standIn ∈ (w.standIn lost).calls :=
  List.mem_append_right _ (List.mem_map_of_mem hc)

theorem depth_standIn (h : w.IsHushed) : (w.standIn lost).view.silence.depth =
    w.view.worker.phase.isSilent.toNat + (w.errand?.any Errand.isSilent).toNat := by
  change w.view.silence.depth - w.calls.countP Call.isSilent = _
  rw [IsHushed] at h
  omega

theorem follows_standIn_proceed {i : Nat} (hhushed : w.IsHushed)
    (h : (w.standIn lost).Follows w.view.worker.phase) (hm : w.step (.proceed i) = some w')
    (hserving : w'.view.IsServing) :
    (w'.standIn (lost || w.failsBy (.proceed i))).Follows w.view.worker.phase := by
  obtain ⟨c, c?, hc, hstep, hcalls⟩ := calls_proceed hm
  obtain ⟨hcore, hbatch, herrand⟩ := core_step hm (by simp) (by simp) (by simp) (by simp)
  obtain ⟨hseen, hlive⟩ := seen_step hm (by simp)
  have htracker := tracker_step hm (by simp) (not_marking_of_open hm hserving.1)
  rw [Tracker.markAll_eq] at htracker
  have hmem := List.mem_of_getElem? hc
  obtain ⟨hnext, hlisteners, hnotice⟩ :=
    Call.standIn_step hstep h.listened hserving.1 (h.ordinary _ (mem_standIn hmem))
  have hmem' {d : Call} (hd : d ∈ c?) : d ∈ w'.calls := by
    obtain rfl := Option.mem_def.mp hd
    rw [hcalls]
    exact List.mem_set (List.getElem?_eq_some_iff.mp hc).1 _
  have hconsumer : w'.view.consumer = w.view.consumer := congrArg (·.2.2.2) hcore
  have htrail : w'.trail = w.trail := by simp only [trail, publications, herrand, hbatch, hconsumer]
  refine h.beside ⟨hseen, hlive, congrArg (·.2.2.1) hcore, congrArg List.getLast? htrail, ?_, fun hdirty => ?_,
    fun hphase _ => ?_⟩ (fun d hd => ?_) hlisteners ?_ (fun r hr => h.compared r (herrand ▸ hr))
  · change w'.view.tracker.inFlight = w.view.tracker.inFlight
    rw [htracker]
  · have hdirty : w.view.tracker.isDirty = true := hdirty
    change w'.view.tracker.isDirty = true
    rw [htracker, hdirty, Bool.true_or]
  · rcases hnotice with ⟨d, hd, hdn⟩ | hdirty | ⟨hsilent, hnone, hkept⟩ | hfailed
    · exact .inr (.inr (.inl ⟨_, mem_standIn (hmem' hd), hdn⟩))
    · exact .inl hdirty
    · -- the silence that drops the step is kept by an errand or by a call that is still there
      have hdepth : 0 < w.view.silence.depth := of_decide_eq_true hkept
      have hcount := countP_proceed hc c? Call.isSilent
      rw [← hcalls, hnone, hsilent] at hcount
      rw [hhushed, hphase] at hdepth
      cases hsilence : w.errand?.any Errand.isSilent with
      | true =>
          obtain ⟨e, he, -⟩ := (Option.any_eq_true _ _).mp hsilence
          exact .inr (.inr (.inr (by simp [standIn, herrand, he])))
      | false =>
          have hpos : 0 < w'.calls.countP Call.isSilent := by
            rw [hsilence] at hdepth
            simp only [Bool.toNat_false, Option.any_none] at hdepth hcount
            omega
          obtain ⟨d, hd, hds⟩ := List.countP_pos_iff.mp hpos
          exact .inr (.inr (.inl ⟨_, mem_standIn hd, Call.isNotice_of_isSilent hds⟩))
    · refine .inr (.inr (.inl ⟨.marking false, List.mem_append_left _ ?_, rfl⟩))
      simp [failsBy, hc, hfailed]
  · rcases List.mem_append.mp hd with hd | hd
    · split at hd
      · rw [List.mem_singleton.mp hd]
        rfl
      · cases hd
    · obtain ⟨b, hb, rfl⟩ := List.mem_map.mp hd
      rw [hcalls] at hb
      cases c? with
      | none => exact h.ordinary _ (mem_standIn (List.mem_of_mem_eraseIdx hb))
      | some c' =>
          rcases List.mem_or_eq_of_mem_set hb with hb | rfl
          · exact h.ordinary _ (mem_standIn hb)
          · exact hnext _ rfl
  · rw [depth_standIn (isHushed_step hhushed hm), worker_step hm (by simp)]
    rfl

theorem follows_standIn_other (hhushed : w.IsHushed) (h : (w.standIn lost).Follows w.view.worker.phase)
    (hm : w.step m = some w') (hproceed : ∀ i, m ≠ .proceed i) (hserving : w'.view.IsServing) :
    (w'.standIn lost).Follows w'.view.worker.phase := by
  have hbefore := isServing_step hm hserving
  have hdepth : w.view.silence.depth = w.view.worker.phase.isSilent.toNat +
      (w.calls.countP Call.isSilent + (w.errand?.any Errand.isSilent).toNat) := by
    rw [IsHushed] at hhushed
    omega
  cases m with
  | work visit fault? =>
      obtain ⟨v, hv, rfl⟩ := Option.map_eq_some_iff.mp hm
      exact follows_work h hbefore (View.work_unhush hdepth hv)
  | drain =>
      rw [worker_step hm (by simp)]
      refine follows_drain h ?_
      simp only [step] at hm ⊢
      split at hm <;> cases hm
      next hbatch herrand =>
        simp only [standIn, hbatch, herrand]
        rfl
  | attend =>
      rw [worker_step hm (by simp)]
      refine follows_attend h hbefore.1 ?_
      simp only [step] at hm ⊢
      split at hm
      · next e herrand =>
          cases hm
          simp only [standIn, herrand]
          rw [View.attend_unhush (by omega)]
      · next herrand hbatch =>
          cases hm
          simp only [standIn, herrand, hbatch]
      · cases hm
  | change p =>
      rw [worker_step hm (by simp)]
      refine follows_change h p ?_
      cases hm
      rw [standIn_call fun c hc => ?_, Option.map_map]
      · rfl
      · obtain ⟨n, -, rfl⟩ := Option.map_eq_some_iff.mp hc
        rfl
  | adjustFilter | close =>
      cases hm
      rw [standIn_call (by simp [Call.isSilent])]
      exact h.call (by simp [Call.isOrdinary, Call.standIn])
  | recompute structural | resetFilters =>
      simp only [step, callOpen] at hm
      split at hm <;> cases hm
      rw [standIn_call (by simp [Call.isSilent])]
      exact h.call (by simp [Call.isOrdinary, Call.standIn])
  | extend row column =>
      simp only [step, callOpen] at hm
      split at hm <;> cases hm
      rw [standIn_call fun c hc => ?_]
      · refine h.call fun c hc => ?_
        obtain ⟨_, hx, rfl⟩ := Option.map_eq_some_iff.mp hc
        obtain ⟨x, -, rfl⟩ := Option.map_eq_some_iff.mp hx
        rfl
      · obtain ⟨x, -, rfl⟩ := Option.map_eq_some_iff.mp hc
        rfl
  | shutDown =>
      cases hm
      cases hserving.2
  | proceed i => exact absurd rfl (hproceed i)

theorem follows_standIn_step (hhushed : w.IsHushed) (h : (w.standIn lost).Follows w.view.worker.phase)
    (hm : w.step m = some w') (hserving : w'.view.IsServing) :
    (w'.standIn (lost || w.failsBy m)).Follows w'.view.worker.phase := by
  cases m with
  | proceed i =>
      rw [worker_step hm (by simp)]
      exact follows_standIn_proceed hhushed h hm hserving
  | _ =>
      rw [show w.failsBy _ = false from rfl, Bool.or_false]
      exact follows_standIn_other hhushed h hm (by simp) hserving

theorem Follows.found (h : (w'.standIn lost).Follows w'.view.worker.phase) (htakes : TakesAll w w' m) :
    (w'.standIn false).Follows w'.view.worker.phase := by
  refine ⟨fun c hc => h.ordinary c ?_, h.listened, h.depth, h.seen, h.compared, ?_⟩
  · exact List.mem_append_right _ (by simpa [standIn] using hc)
  · rw [htakes.begins]
    exact ⟨htakes.inFlight, trivial⟩

variable {start : World} {history : List Move}

def FailsAt (start : World) (history : List Move) : Prop :=
  ∃ before m u, history = before ++ [m] ∧ start.run before = some u ∧ u.failsBy m = true

theorem FailsAt.isPrefix {start : World} {left early late : List Move} (h : FailsAt start left)
    (hleft : left <+: early ++ late) (hlate : ∀ m ∈ late, ∀ i, m ≠ .proceed i) : left <+: early := by
  obtain ⟨before, m, u, rfl, -, hfails⟩ := h
  rcases List.prefix_or_prefix_of_prefix hleft (List.prefix_append early late) with hearly | ⟨rest, hrest⟩
  · exact hearly
  · rcases List.eq_nil_or_concat rest with rfl | ⟨rest, m', rfl⟩
    · rw [← hrest, List.append_nil]
    · rw [List.concat_eq_append, ← List.append_assoc] at hrest
      obtain ⟨rfl, rfl⟩ := List.append_singleton_inj.mp hrest
      have hmem : m' ∈ late :=
        ((List.prefix_append_right_inj early).mp (List.append_assoc early rest [m'] ▸ hleft)).subset (by simp)
      cases m' with
      | proceed i => exact absurd rfl (hlate _ hmem i)
      | _ => cases hfails

section Started

variable {source : Source Unit} {config : Config} {v : View} (hstart : View.start source config = .ok v)
  (hrun : run ⟨v, [], none, []⟩ history = some w)

include hstart hrun

theorem follows_standIn_run (hserving : w.view.IsServing) : ∃ lost, (w.standIn lost).Follows w.view.worker.phase ∧
    (lost = true → ∃ left, left <+: history ∧ FailsAt ⟨v, [], none, []⟩ left ∧ Quiet ⟨v, [], none, []⟩ left history) := by
  revert hserving
  refine run_induction (motive := fun history w => w.view.IsServing → ∃ lost,
    (w.standIn lost).Follows w.view.worker.phase ∧ (lost = true → ∃ left, left <+: history ∧
      FailsAt ⟨v, [], none, []⟩ left ∧ Quiet ⟨v, [], none, []⟩ left history)) hrun ?_ ?_
  · exact fun _ => ⟨false, follows_start hstart, by simp⟩
  · intro before u m u' hbefore hm hu hserving
    obtain ⟨lost, hfollows, hlost⟩ := hu (isServing_step hm hserving)
    have hnext := follows_standIn_step (isHushed_run hstart hbefore) hfollows hm hserving
    rcases adds_or_takes hm hserving.1 with hadds | htakes
    · refine ⟨_, hnext, fun h => ?_⟩
      have hquiet := fun asked => hadds.not_takes hbefore hm asked
      rcases Bool.or_eq_true_iff.mp h with h | h
      · obtain ⟨left, hleft, hfails, hsince⟩ := hlost h
        exact ⟨left, hleft.trans (List.prefix_append before [m]), hfails, hsince.concat hquiet⟩
      · exact ⟨_, List.prefix_refl _, ⟨before, m, u, rfl, hbefore, h⟩, .refl _ _⟩
    · exact ⟨false, hnext.found htakes, by simp⟩

theorem requests_of_extending {i : Nat} {c : Call} (hc : w.calls[i]? = some c)
    (hextends : c.isSilent = true ∨ ∃ x, c = .hushing x) : w.requests (.proceed i) = [] := by
  cases c with
  | noticing x notice? =>
      have hpos : 0 < w.calls.countP Call.isSilent :=
        List.countP_pos_iff.mpr ⟨_, List.mem_of_getElem? hc, rfl⟩
      have hkept : w.view.silence.isKept = true := by
        rw [Silence.isKept_of_pos]
        rw [isHushed_run hstart hrun]
        omega
      simp [requests, hc, View.heard, hkept]
  | marking structural => simp [Call.isSilent] at hextends
  | _ => simp [requests, hc]

/-- An extension asks for nothing before it has left its silence. A view that serves and is at rest with no call under
way has the revisions of its source all the same, in the last table it computed and in the one that its consumer shows,
unless an extension failed and no pass was woken since. -/
theorem shows_live_unless_failed :
    (∀ i c, w.calls[i]? = some c → (c.isSilent = true ∨ ∃ x, c = .hushing x) → w.requests (.proceed i) = []) ∧
    (w.view.IsServing → w.AtRest → w.calls = [] →
      (∀ left, left <+: history → FailsAt ⟨v, [], none, []⟩ left → ¬Quiet ⟨v, [], none, []⟩ left history) →
      (∃ t, w.view.latest? = some t ∧ t.revisions = w.view.live) ∧
        ∃ u, w.view.consumer.latest? = some u ∧ u.table.revisions = w.view.live) := by
  refine ⟨fun i c hc hextends => requests_of_extending hstart hrun hc hextends,
    fun hserving hrest hcalls hwoken => ?_⟩
  obtain ⟨lost, hfollows, hlost⟩ := follows_standIn_run hstart hrun hserving
  obtain rfl : lost = false := by
    refine Bool.eq_false_of_not_eq_true fun h => ?_
    obtain ⟨left, hleft, hfails, hquiet⟩ := hlost h
    exact hwoken left hleft hfails hquiet
  have hrest' : (w.standIn false).AtRest :=
    ⟨hrest.settled, by simp [standIn, hcalls], hrest.queue, hrest.batch, hrest.errand⟩
  obtain ⟨hlatest, htrail⟩ : w.Shows w.view.live := hfollows.shows_live hrest'
  refine ⟨Option.map_eq_some_iff.mp hlatest, ?_⟩
  rw [trail, publications, hrest.queue, hrest.batch, hrest.errand] at htrail
  cases hshown : w.view.consumer.latest? with
  | none => simp [hshown] at htrail
  | some u => exact ⟨u, rfl, by simpa [hshown] using htrail⟩

end Started

/-- A row is removed while an extension has written another one, and the notice of it is dropped. The extension fails,
and a pass that somebody asks for later shows what it wrote. -/
theorem shows_live_behind_failed_extension :
    let source : Source Unit := (Source.produce (.ofSchema ⟨[⟨"x", .native, some 0⟩, ⟨"f", .formula, none⟩]⟩)
      (.batch [.pushRow [.number 1], .pushRow [.number 2], .pushRow [.number 3],
        .setFormula 0 (.index 1) "=1"])).1
    let shown : List Move := .drain :: List.replicate 8 .attend
    let writing : List Move := List.replicate 23 (.work .ascending none) ++ shown ++
      [.extend 0 1, .proceed 0, .proceed 0, .proceed 0, .change (.edit (.removeRow 2)), .proceed 1, .proceed 1, .proceed 0]
    let asking : List Move := writing ++ [.proceed 0, .recompute false, .proceed 0]
    let history : List Move := asking ++ .work .ascending none :: (List.replicate 20 (.work .ascending none) ++ shown)
    ∃ v w, View.start source {} = .ok v ∧ run ⟨v, [], none, []⟩ history = some w ∧
      FailsAt ⟨v, [], none, []⟩ (writing ++ [.proceed 0]) ∧
      ∃ u, w.view.consumer.latest? = some u ∧ u.table.revisions = w.view.live := by
  intro source shown writing asking history
  let v := View.opened source {}
  have hstart : View.start source {} = .ok v := View.start_of_valid (by decide +kernel)
  let x := (run ⟨v, [], none, []⟩ writing).get (by decide +kernel)
  have hx : run ⟨v, [], none, []⟩ writing = some x := (Option.some_get _).symm
  let u := (run ⟨v, [], none, []⟩ asking).get (by decide +kernel)
  have hu : run ⟨v, [], none, []⟩ asking = some u := (Option.some_get _).symm
  let u' := (u.step (.work .ascending none)).get (by decide +kernel)
  have hu' : u.step (.work .ascending none) = some u' := (Option.some_get _).symm
  let w := (run ⟨v, [], none, []⟩ history).get (by decide +kernel)
  have hrun : run ⟨v, [], none, []⟩ history = some w := (Option.some_get _).symm
  have hserving : w.view.IsServing := ⟨by decide +kernel, by decide +kernel⟩
  have hrest : w.AtRest :=
    { settled := by decide +kernel
      noticed := by decide +kernel
      queue := List.isEmpty_iff.mp (by decide +kernel)
      batch := List.isEmpty_iff.mp (by decide +kernel)
      errand := Option.isNone_iff_eq_none.mp (by decide +kernel) }
  have hcalls : w.calls = [] := List.isEmpty_iff.mp (by decide +kernel)
  have htakes : TakesAll u u' (.work .ascending none) := by
    have hasked : u.view.tracker.isDirty = true := by decide +kernel
    have htaken : u'.view.tracker.isDirty = false := by decide +kernel
    refine (adds_or_takes hu' (by decide +kernel)).resolve_left fun hadds => ?_
    have hdirty := hadds.dirty
    rw [hasked, htaken, Bool.true_or] at hdirty
    cases hdirty
  have hwoken (left : List Move) (hleft : left <+: history) (hfails : FailsAt ⟨v, [], none, []⟩ left) :
      ¬Quiet ⟨v, [], none, []⟩ left history := by
    have hearly : left <+: asking := hfails.isPrefix hleft (by simp [shown])
    intro hquiet
    refine hquiet _ _ (hearly.trans (List.prefix_append asking _)) ?_ ?_ (htakes.takes hu hu')
    · rintro rfl
      simpa using hearly.length_le
    · exact (List.prefix_append_right_inj asking).mpr (by simp)
  exact ⟨v, w, hstart, hrun, ⟨writing, .proceed 0, x, rfl, hx, by decide +kernel⟩,
    ((shows_live_unless_failed hstart hrun).2 hserving hrest hcalls hwoken).2⟩

/-- An extension writes a row, a row is removed and its notice dropped, and the extension fails. As long as the worker
does not move, a request made since would still be in the tracker; there is none, and the view is at rest with a table
that is older than what was written. -/
theorem failed_extension_not_marked : ¬∀ (source : Source Unit) (config : Config) (v : View) (wrote since : List Move)
    (u w : World), View.start source config = .ok v → (wrote ++ since).countP Move.isExtension = 1 →
    run ⟨v, [], none, []⟩ wrote = some u → (∃ x notice?, .noticing x notice? ∈ u.calls) →
    run ⟨v, [], none, []⟩ (wrote ++ since) = some w → FailsAt ⟨v, [], none, []⟩ (wrote ++ since) →
    (∀ m ∈ since, ∀ visit fault?, m ≠ .work visit fault?) →
    w.view.tracker.isDirty = true ∨ ¬w.AtRest ∨ w.view.latest?.map (·.revisions) = some w.view.live := by
  intro h
  let source : Source Unit := (Source.produce (.ofSchema ⟨[⟨"x", .native, some 0⟩, ⟨"f", .formula, none⟩]⟩)
    (.batch [.pushRow [.number 1], .pushRow [.number 2], .pushRow [.number 3], .setFormula 0 (.index 1) "=1"])).1
  let wrote : List Move := List.replicate 23 (.work .ascending none) ++ .drain :: List.replicate 8 .attend ++
    [.extend 0 1, .proceed 0, .proceed 0]
  let failing : List Move := [.proceed 0, .change (.edit (.removeRow 2)), .proceed 1, .proceed 1, .proceed 0]
  let v := View.opened source {}
  have hstart : View.start source {} = .ok v := View.start_of_valid (by decide +kernel)
  let u := (run ⟨v, [], none, []⟩ wrote).get (by decide +kernel)
  have hu : run ⟨v, [], none, []⟩ wrote = some u := (Option.some_get _).symm
  have hwrites : (u.calls.any fun c => match c with
      | .noticing _ _ => true
      | _ => false) = true := by decide +kernel
  obtain ⟨c, hc, hnoticing⟩ := List.any_eq_true.mp hwrites
  have hwrote : ∃ x notice?, .noticing x notice? ∈ u.calls := by
    cases c with
    | noticing x notice? => exact ⟨x, notice?, hc⟩
    | _ => cases hnoticing
  let x := (run ⟨v, [], none, []⟩ (wrote ++ failing)).get (by decide +kernel)
  have hx : run ⟨v, [], none, []⟩ (wrote ++ failing) = some x := (Option.some_get _).symm
  let w := (run ⟨v, [], none, []⟩ (wrote ++ (failing ++ [.proceed 0]))).get (by decide +kernel)
  have hw : run ⟨v, [], none, []⟩ (wrote ++ (failing ++ [.proceed 0])) = some w := (Option.some_get _).symm
  have hfails : FailsAt ⟨v, [], none, []⟩ (wrote ++ (failing ++ [.proceed 0])) :=
    ⟨wrote ++ failing, .proceed 0, x, (List.append_assoc ..).symm, hx, by decide +kernel⟩
  have hrest : w.AtRest :=
    { settled := by decide +kernel
      noticed := by decide +kernel
      queue := List.isEmpty_iff.mp (by decide +kernel)
      batch := List.isEmpty_iff.mp (by decide +kernel)
      errand := Option.isNone_iff_eq_none.mp (by decide +kernel) }
  rcases h source {} v wrote _ u w hstart (by decide +kernel) hu hwrote hw hfails (by simp [failing]) with
    hdirty | hrest' | hlatest
  · revert hdirty
    decide +kernel
  · exact hrest' hrest
  · revert hlatest
    decide +kernel

end World

end LiveSheet
