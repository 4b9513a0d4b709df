import LiveSheet.Proofs.View.Coverage

namespace LiveSheet

def Call.isSilent : Call → Bool
  | .writing _ | .noticing _ _ | .leaving _ => true
  | _ => false

/-- A notice on its way, which silence would still drop. -/
def Call.isTold : Call → Bool
  | .telling _ | .hearing _ => true
  | _ => false

def Errand.task? : Errand → Option Publication
  | .called p | .silencing p | .applying p | .applied p | .counting p => some p
  | _ => none

namespace World

variable {w w' : World} {m : Move}

theorem calls_step (hm : w.step m = some w') (hproceed : ∀ i, m ≠ .proceed i) : ∃ new, w'.calls = w.calls ++ new ∧
    ((∃ n, m = .change (.fire n)) ∨ m = .adjustFilter → ∀ c ∈ new, c.isTold = true) ∧
    ∀ c, .closing c ∈ new → c = .marking := by
  cases m with
  | work visit fault? =>
      obtain ⟨v, -, rfl⟩ := Option.map_eq_some_iff.mp hm
      exact ⟨[], (List.append_nil _).symm, by simp, by simp⟩
  | drain | attend =>
      simp only [step] at hm
      split at hm <;> cases hm <;> exact ⟨[], (List.append_nil _).symm, by simp, by simp⟩
  | change p =>
      cases hm
      refine ⟨_, rfl, fun hm c hc => ?_, by simp⟩
      obtain ⟨n, -, rfl⟩ := Option.map_eq_some_iff.mp (Option.mem_toList.mp hc)
      rfl
  | adjustFilter =>
      cases hm
      exact ⟨_, rfl, by simp [Call.isTold], by simp⟩
  | recompute structural | resetFilters =>
      simp only [step, callOpen] at hm
      split at hm <;> cases hm
      exact ⟨_, rfl, by simp, by simp⟩
  | extend row column =>
      simp only [step, callOpen] at hm
      split at hm <;> cases hm
      refine ⟨_, rfl, by simp, fun c hc => ?_⟩
      obtain ⟨x, -, heq⟩ := Option.map_eq_some_iff.mp (Option.mem_toList.mp hc)
      cases heq
  | shutDown =>
      cases hm
      exact ⟨[], (List.append_nil _).symm, by simp, by simp⟩
  | close =>
      cases hm
      exact ⟨_, rfl, by simp, by simp⟩
  | proceed i => exact absurd rfl (hproceed i)

theorem calls_proceed {i : Nat} (hm : w.step (.proceed i) = some w') : ∃ c c?, w.calls[i]? = some c ∧
    c.step w.view = some (w'.view, c?) ∧ w'.calls = c?.elim (w.calls.eraseIdx i) (w.calls.set i) := by
  simp only [step] at hm
  split at hm
  · cases hm
  · next c hc =>
      obtain ⟨⟨v, c?⟩, hstep, rfl⟩ := Option.map_eq_some_iff.mp hm
      refine ⟨c, c?, hc, hstep, ?_⟩
      cases c? with
      | none => simp [List.eraseIdx_eq_take_drop_succ]
      | some c' =>
          have hi := (List.getElem?_eq_some_iff.mp hc).1
          simp [List.set_eq_take_append_cons_drop, hi]

theorem countP_proceed {calls : List Call} {i : Nat} {c : Call} (hc : calls[i]? = some c) (c? : Option Call)
    (p : Call → Bool) : (c?.elim (calls.eraseIdx i) (calls.set i)).countP p + (p c).toNat =
      calls.countP p + (c?.any p).toNat := by
  obtain ⟨hi, rfl⟩ := List.getElem?_eq_some_iff.mp hc
  have hbefore : calls.countP p = (calls.take i).countP p + ((p calls[i]).toNat + (calls.drop (i + 1)).countP p) := by
    conv_lhs => rw [← List.take_append_drop i calls, List.drop_eq_getElem_cons hi]
    rw [List.countP_append, List.countP_cons]
    cases p calls[i] <;> simp [Nat.add_comm]
  cases c? with
  | none =>
      simp only [Option.elim_none, List.eraseIdx_eq_take_drop_succ, List.countP_append, Option.any_none,
        Bool.toNat_false]
      omega
  | some d =>
      simp only [Option.elim_some, List.set_eq_take_append_cons_drop, hi, if_true, List.countP_append, List.countP_cons,
        Option.any_some]
      cases p d <;> simp <;> omega

end World

theorem Silence.isKept_of_pos {s : Silence} (h : 0 < s.depth) : s.isKept = true := decide_eq_true h

namespace View

variable {v v' : View} {visit : VisitOrder} {asked : Bool} {rest : Nat}

theorem depth_perform {s : Stage} (h : v.silence.depth = s.isSilent.toNat + rest) :
    (v.perform visit asked s).silence.depth = (v.perform visit asked s).worker.phase.isSilent.toNat + rest := by
  cases s with
  | noted s | publishing f =>
      simp only [perform, checkOpen]
      split <;> exact h
  | preparing s =>
      simp only [perform]
      split
      · exact World.depth_enter h
      · exact h
  | rebuilding s => exact World.depth_leave h
  | computed f =>
      simp only [perform, checkOpen]
      split
      · exact h
      · split <;> exact h
  | silencing f => exact World.depth_enter h
  | telling f notice? =>
      have hkept : v.silence.isKept = true := by
        rw [Silence.isKept_of_pos]
        rw [h]
        exact Nat.add_pos_left Nat.one_pos _
      simp only [perform, v.tellAny_of_kept hkept]
      exact World.depth_leave h
  | handing f =>
      obtain ⟨i, hi⟩ := v.exists_setIndicator v.worker.pass .applying
      simp only [perform, hi]
      exact h
  | scheduling f | refused f e | comparing f | recovering | resting =>
      simp only [perform]
      split <;> exact h
  | failing =>
      obtain ⟨i, hi⟩ := exists_setIndicator
        { v with counts := { v.counts with failures := v.counts.failures + 1 } } v.worker.pass .idle
      simp only [perform, hi]
      exact h
  | _ => exact h

theorem depth_disturb {s : Stage} {fault : PassError} (h : v.silence.depth = s.isSilent.toNat + rest)
    (hv : v.disturb asked s fault = some v') :
    v'.silence.depth = v'.worker.phase.isSilent.toNat + rest := by
  unfold disturb at hv
  split at hv
  · cases hv
    exact h
  · cases hv
    exact h
  · cases hv
    exact h
  · split at hv
    · cases hv
      cases hsilent : s.isSilent with
      | true =>
          rw [hsilent] at h
          exact World.depth_leave h
      | false =>
          rw [hsilent] at h
          exact h
    · cases hv
  · cases hv

theorem depth_work {fault? : Option PassError} (h : v.silence.depth = v.worker.phase.isSilent.toNat + rest)
    (hv : v.work visit fault? = some v') : v'.silence.depth = v'.worker.phase.isSilent.toNat + rest := by
  unfold work at hv
  split at hv
  · next hphase =>
      cases hv
      rw [hphase] at h
      exact h
  · next hphase =>
      rw [hphase] at h
      split at hv
      · cases hv
      · cases hv
        exact h
      · cases hv
        exact h
  · next hphase =>
      cases hv
      rw [hphase] at h
      exact depth_perform h
  · next hphase =>
      rw [hphase] at h
      exact depth_disturb h hv
  · next hphase =>
      cases hv
      rw [hphase] at h
      exact h
  · next hphase =>
      cases hv
      rw [hphase] at h
      exact h
  · cases hv

theorem silence_closeStep {byWorker : Bool} {c c' : Closing} (h : v.closeStep byWorker c = some (v', c')) :
    v'.silence = v.silence := by
  cases c with
  | awaiting =>
      simp only [closeStep] at h
      split at h <;> cases h
      rfl
  | done => cases h
  | _ =>
      cases h
      rfl

end View

theorem Call.depth_step {v v' : View} {c : Call} {c? : Option Call} {rest : Nat}
    (h : v.silence.depth = c.isSilent.toNat + rest) (hstep : c.step v = some (v', c?)) :
    v'.silence.depth = (c?.any Call.isSilent).toNat + rest := by
  cases c with
  | telling n | hearing structural =>
      cases hstep
      split <;> exact h
  | hushing x =>
      cases hstep
      exact World.depth_enter h
  | writing x =>
      simp only [step] at hstep
      split at hstep
      · cases hstep
        exact h
      · next row rows _ =>
          have hchange : (v.change (.edit (.setFormula row (.index x.column) (x.textFor row)))).1.silence =
            v.silence := rfl
          split at hstep
          · next heq =>
              cases hstep
              rw [heq] at hchange
              exact hchange ▸ h
          · next heq =>
              cases hstep
              rw [heq] at hchange
              exact hchange ▸ h
  | noticing x notice? =>
      have hkept : v.silence.isKept = true := by
        rw [Silence.isKept_of_pos]
        rw [h]
        exact Nat.add_pos_left Nat.one_pos _
      simp only [step, v.tellAny_of_kept hkept] at hstep
      cases hstep
      exact h
  | leaving complete =>
      cases hstep
      cases complete <;> exact World.depth_leave h
  | closing c =>
      simp only [step, Option.map_eq_some_iff] at hstep
      obtain ⟨⟨u, c'⟩, hclose, heq⟩ := hstep
      cases heq
      rw [View.silence_closeStep hclose]
      split <;> exact h
  | _ =>
      cases hstep
      exact h

namespace World

variable {w w' : World} {m : Move}

def IsHushed (w : World) : Prop :=
  w.view.silence.depth = w.view.worker.phase.isSilent.toNat +
    ((w.errand?.any Errand.isSilent).toNat + w.calls.countP Call.isSilent)

theorem IsHushed.call (h : w.IsHushed) {c? : Option Call} (hc : ∀ c ∈ c?, c.isSilent = false) :
    (w.call c?).IsHushed := by
  unfold IsHushed at h ⊢
  cases c? with
  | none => simpa [World.call] using h
  | some c => simpa [World.call, List.countP_append, hc c rfl] using h

theorem isHushed_attend (h : w.IsHushed) (hm : w.step .attend = some w') : w'.IsHushed := by
  unfold IsHushed at h ⊢
  simp only [step] at hm
  split at hm
  · next e herrand =>
      cases hm
      rw [herrand] at h
      cases e with
      | called p =>
          simp only [View.attend]
          split <;> exact h
      | silencing p =>
          simp only [View.attend, View.enterSilence, Silence.enter, h, Option.any_some, Errand.isSilent,
            Bool.toNat_true, Bool.toNat_false]
          omega
      | applied p =>
          simp only [View.attend, View.leaveSilence, Silence.leave, h, Option.any_some, Errand.isSilent,
            Bool.toNat_true, Bool.toNat_false]
          omega
      | counting p =>
          obtain ⟨i, hi⟩ := View.exists_setIndicator
            { w.view with counts := { w.view.counts with publications := w.view.counts.publications + 1 } } p.pass .idle
          simp only [View.attend, hi]
          exact h
      | comparing r =>
          rw [View.attend]
          split <;> exact h
      | _ => exact h
  · next herrand _ =>
      cases hm
      rw [herrand] at h
      exact h
  · cases hm

theorem isHushed_proceed {i : Nat} (h : w.IsHushed) (hm : w.step (.proceed i) = some w') : w'.IsHushed := by
  unfold IsHushed at h ⊢
  obtain ⟨c, c?, hc, hstep, hcalls⟩ := calls_proceed hm
  obtain ⟨-, -, herrand⟩ := core_step hm (by simp) (by simp) (by simp) (by simp)
  have hcount := countP_proceed hc c? Call.isSilent
  let rest := w.view.worker.phase.isSilent.toNat + ((w.errand?.any Errand.isSilent).toNat +
    (w.calls.countP Call.isSilent - c.isSilent.toNat))
  have hmem : c.isSilent.toNat ≤ w.calls.countP Call.isSilent := by
    cases hsilent : c.isSilent with
    | false => exact Nat.zero_le _
    | true => exact List.countP_pos_iff.mpr ⟨c, List.mem_of_getElem? hc, hsilent⟩
  have hbefore : w.view.silence.depth = c.isSilent.toNat + rest := by omega
  have hdepth := Call.depth_step hbefore hstep
  rw [worker_step hm (by simp), herrand, hcalls]
  omega

theorem isHushed_step (h : w.IsHushed) (hm : w.step m = some w') : w'.IsHushed := by
  cases m with
  | work visit fault? =>
      obtain ⟨v, hv, rfl⟩ := Option.map_eq_some_iff.mp hm
      exact View.depth_work h hv
  | drain =>
      simp only [step] at hm
      split at hm <;> cases hm
      exact h
  | attend => exact isHushed_attend h hm
  | change p =>
      cases hm
      refine IsHushed.call (w := { w with view := (w.view.change p).1 }) h fun c hc => ?_
      obtain ⟨n, -, rfl⟩ := Option.map_eq_some_iff.mp hc
      rfl
  | recompute structural | resetFilters =>
      simp only [step, callOpen] at hm
      split at hm <;> cases hm
      exact h.call (by simp [Call.isSilent])
  | extend row column =>
      simp only [step, callOpen] at hm
      split at hm <;> cases hm
      refine h.call fun c hc => ?_
      obtain ⟨x, -, rfl⟩ := Option.map_eq_some_iff.mp hc
      rfl
  | shutDown =>
      cases hm
      exact h
  | adjustFilter | close =>
      cases hm
      exact h.call (by simp [Call.isSilent])
  | proceed i => exact isHushed_proceed h hm

end World

namespace View

variable {v v' : View} {visit : VisitOrder} {asked : Bool}

def Reads (v : View) : Stage → Prop
  | .copied s => v.seen ≤ s.revisions ∧ s.revisions ≤ v.live
  | .noted s | .preparing s | .rebuilding s | .computing s _ => s.revisions ≤ v.seen
  | .computed f | .silencing f | .storing f | .telling f _ | .showing f | .publishing f | .handing f | .scheduling f =>
      f.revisions ≤ v.seen
  | _ => True

def ReadsIn (v : View) : Phase → Prop
  | .pass _ s => v.Reads s
  | _ => True

structure Lags (v : View) : Prop where
  seen : v.seen ≤ v.live
  reads : v.ReadsIn v.worker.phase
  queue : ∀ p ∈ v.consumer.queue, p.revisions ≤ v.seen

theorem exists_tellAny (v : View) (notice? : Option Notice) : ∃ t, v.tellAny notice? = { v with tracker := t } := by
  have htell (n : Notice) : ∃ t, v.tell n = { v with tracker := t } := by
    unfold tell
    induction v.source.observers generalizing v with
    | nil => exact ⟨v.tracker, rfl⟩
    | cons o os ih => exact ih (v.hear n.isStructural).1
  cases notice? with
  | none => exact ⟨v.tracker, rfl⟩
  | some n => exact htell n

theorem lags_perform {s : Stage} (h : v.Lags) (hphase : v.worker.phase = .pass asked s) :
    (v.perform visit asked s).Lags ∧ v.seen ≤ (v.perform visit asked s).seen := by
  have hreads := h.reads
  rw [hphase] at hreads
  cases s with
  | woken | beginning | serving f | requesting structural | succeeding | retrying =>
      exact ⟨⟨h.seen, trivial, h.queue⟩, le_refl _⟩
  | copying => exact ⟨⟨h.seen, ⟨h.seen, le_refl _⟩, h.queue⟩, le_refl _⟩
  | copied s => exact ⟨⟨hreads.2, le_refl s.revisions, fun p hp => le_trans (h.queue p hp) hreads.1⟩, hreads.1⟩
  | noted s | publishing f =>
      simp only [perform, checkOpen]
      split
      · exact ⟨⟨h.seen, trivial, h.queue⟩, le_refl _⟩
      · exact ⟨⟨h.seen, hreads, h.queue⟩, le_refl _⟩
  | preparing s =>
      simp only [perform]
      split <;> exact ⟨⟨h.seen, hreads, h.queue⟩, le_refl _⟩
  | rebuilding s => exact ⟨⟨h.seen, hreads, h.queue⟩, le_refl _⟩
  | computing s rebuilt =>
      exact ⟨⟨h.seen, le_of_eq_of_le (v.worker.sheet.revisions_runPass visit s _) hreads, h.queue⟩, le_refl _⟩
  | computed f =>
      simp only [perform, checkOpen]
      split
      · exact ⟨⟨h.seen, trivial, h.queue⟩, le_refl _⟩
      · split <;> exact ⟨⟨h.seen, hreads, h.queue⟩, le_refl _⟩
  | silencing f | showing f => exact ⟨⟨h.seen, hreads, h.queue⟩, le_refl _⟩
  | storing f =>
      have hlive : (v.source.storeResults f.update.table).1.data.revisions = v.live :=
        v.source.data.revisions_storeResults f.update.table
      exact ⟨⟨le_of_le_of_eq h.seen hlive.symm, hreads, h.queue⟩, le_refl _⟩
  | telling f notice? =>
      obtain ⟨t, ht⟩ := v.exists_tellAny notice?
      simp only [perform, ht]
      exact ⟨⟨h.seen, hreads, h.queue⟩, le_refl _⟩
  | handing f =>
      obtain ⟨i, hi⟩ := v.exists_setIndicator v.worker.pass .applying
      simp only [perform, hi]
      exact ⟨⟨h.seen, hreads, h.queue⟩, le_refl _⟩
  | scheduling f =>
      simp only [perform, Consumer.schedule]
      split
      · next consumer hconsumer =>
          split at hconsumer <;> cases hconsumer
          refine ⟨⟨h.seen, trivial, fun p hp => ?_⟩, le_refl _⟩
          rcases List.mem_append.mp hp with hp | hp
          · exact h.queue p hp
          · obtain rfl := List.mem_singleton.mp hp
            exact hreads
      · exact ⟨⟨h.seen, trivial, h.queue⟩, le_refl _⟩
  | refused f e | comparing f | recovering | resting =>
      simp only [perform]
      split <;> exact ⟨⟨h.seen, trivial, h.queue⟩, le_refl _⟩
  | failing =>
      obtain ⟨i, hi⟩ := exists_setIndicator
        { v with counts := { v.counts with failures := v.counts.failures + 1 } } v.worker.pass .idle
      simp only [perform, hi]
      exact ⟨⟨h.seen, trivial, h.queue⟩, le_refl _⟩

theorem lags_disturb {s : Stage} {fault : PassError} (h : v.Lags) (hv : v.disturb asked s fault = some v') :
    v'.Lags ∧ v.seen ≤ v'.seen := by
  unfold disturb at hv
  split at hv
  · cases hv
    exact ⟨⟨h.seen, trivial, h.queue⟩, le_refl _⟩
  · cases hv
    exact ⟨⟨h.seen, trivial, h.queue⟩, le_refl _⟩
  · cases hv
    exact ⟨⟨h.seen, trivial, h.queue⟩, le_refl _⟩
  · split at hv <;> cases hv
    split <;> exact ⟨⟨h.seen, trivial, h.queue⟩, le_refl _⟩
  · cases hv

theorem lags_work {fault? : Option PassError} (h : v.Lags) (hv : v.work visit fault? = some v') :
    v'.Lags ∧ v.seen ≤ v'.seen := by
  unfold work at hv
  split at hv
  · cases hv
    exact ⟨⟨h.seen, trivial, h.queue⟩, le_refl _⟩
  · split at hv
    · cases hv
    · cases hv
      exact ⟨⟨h.seen, trivial, h.queue⟩, le_refl _⟩
    · cases hv
      exact ⟨⟨h.seen, trivial, h.queue⟩, le_refl _⟩
  · next hphase =>
      cases hv
      exact lags_perform h hphase
  · exact lags_disturb h hv
  · cases hv
    exact ⟨⟨h.seen, trivial, h.queue⟩, le_refl _⟩
  · cases hv
    exact ⟨⟨h.seen, trivial, h.queue⟩, le_refl _⟩
  · cases hv

theorem steady_perform (v : View) (visit : VisitOrder) (asked : Bool) (s : Stage) :
    (v.perform visit asked s).live = v.live ∧ (v.perform visit asked s).resets = v.resets := by
  cases s with
  | noted s | computed f | publishing f =>
      simp only [perform, checkOpen]
      split <;> exact ⟨rfl, rfl⟩
  | storing f => exact ⟨v.source.data.revisions_storeResults f.update.table, rfl⟩
  | telling f notice? =>
      obtain ⟨t, ht⟩ := v.exists_tellAny notice?
      simp only [perform, ht]
      exact ⟨rfl, rfl⟩
  | handing f =>
      obtain ⟨i, hi⟩ := v.exists_setIndicator v.worker.pass .applying
      simp only [perform, hi]
      exact ⟨rfl, rfl⟩
  | preparing s | scheduling f | refused f e | comparing f | recovering | resting =>
      simp only [perform]
      split <;> exact ⟨rfl, rfl⟩
  | failing =>
      obtain ⟨i, hi⟩ := exists_setIndicator
        { v with counts := { v.counts with failures := v.counts.failures + 1 } } v.worker.pass .idle
      simp only [perform, hi]
      exact ⟨rfl, rfl⟩
  | _ => exact ⟨rfl, rfl⟩

theorem steady_work {fault? : Option PassError} (hv : v.work visit fault? = some v') :
    v'.live = v.live ∧ v'.resets = v.resets := by
  unfold work at hv
  split at hv
  · cases hv
    exact ⟨rfl, rfl⟩
  · split at hv <;> cases hv <;> exact ⟨rfl, rfl⟩
  · cases hv
    exact v.steady_perform visit _ _
  · unfold disturb at hv
    split at hv
    · cases hv
      exact ⟨rfl, rfl⟩
    · cases hv
      exact ⟨rfl, rfl⟩
    · cases hv
      exact ⟨rfl, rfl⟩
    · split at hv <;> cases hv
      split <;> exact ⟨rfl, rfl⟩
    · cases hv
  · cases hv
    exact ⟨rfl, rfl⟩
  · cases hv
    exact ⟨rfl, rfl⟩
  · cases hv

theorem seen_closeStep {byWorker : Bool} {c c' : Closing} (h : v.closeStep byWorker c = some (v', c')) :
    v'.seen = v.seen ∧ v'.live = v.live := by
  cases c with
  | releasing =>
      cases h
      refine ⟨rfl, ?_⟩
      simp only [live]
      split <;> rfl
  | awaiting =>
      simp only [closeStep] at h
      split at h <;> cases h
      exact ⟨rfl, rfl⟩
  | done => cases h
  | _ =>
      cases h
      exact ⟨rfl, rfl⟩

theorem seen_attend (v : View) (e : Errand) : (v.attend e).1.seen = v.seen ∧ (v.attend e).1.live = v.live := by
  cases e with
  | counting p =>
      obtain ⟨i, hi⟩ := exists_setIndicator
        { v with counts := { v.counts with publications := v.counts.publications + 1 } } p.pass .idle
      refine ⟨?_, ?_⟩ <;> simp only [attend, hi, live]
  | _ => exact ⟨rfl, rfl⟩

end View

theorem Call.seen_step {v v' : View} {c : Call} {c? : Option Call} (h : c.step v = some (v', c?)) :
    v'.seen = v.seen ∧ v.live ≤ v'.live := by
  cases c with
  | writing x =>
      simp only [step] at h
      split at h
      · cases h
        exact ⟨rfl, le_refl _⟩
      · next row rows _ =>
          let p : Production := .edit (.setFormula row (.index x.column) (x.textFor row))
          have hchange : (v.change p).1.seen = v.seen ∧ v.live ≤ (v.change p).1.live :=
            ⟨rfl, v.source.revisions_produce p⟩
          split at h
          · next heq =>
              cases h
              rw [heq] at hchange
              exact hchange
          · next heq =>
              cases h
              rw [heq] at hchange
              exact hchange
  | noticing x notice? =>
      obtain ⟨t, ht⟩ := v.exists_tellAny notice?
      simp only [step, ht] at h
      cases h
      exact ⟨rfl, le_refl _⟩
  | closing c =>
      simp only [step, Option.map_eq_some_iff] at h
      obtain ⟨⟨u, c'⟩, hclose, heq⟩ := h
      cases heq
      obtain ⟨hseen, hlive⟩ := View.seen_closeStep hclose
      exact ⟨hseen, le_of_eq hlive.symm⟩
  | _ =>
      cases h
      exact ⟨rfl, le_refl _⟩

namespace World

variable {w w' : World} {m : Move} {history : List Move}

theorem seen_step (hm : w.step m = some w') (hwork : ∀ visit fault?, m ≠ .work visit fault?) :
    w'.view.seen = w.view.seen ∧ w.view.live ≤ w'.view.live := by
  cases m with
  | work visit fault? => exact absurd rfl (hwork visit fault?)
  | drain =>
      simp only [step] at hm
      split at hm <;> cases hm
      exact ⟨rfl, le_refl _⟩
  | attend =>
      simp only [step] at hm
      split at hm
      · next e herrand =>
          cases hm
          obtain ⟨hseen, hlive⟩ := w.view.seen_attend e
          exact ⟨hseen, le_of_eq hlive.symm⟩
      · cases hm
        exact ⟨rfl, le_refl _⟩
      · cases hm
  | change p =>
      cases hm
      exact ⟨rfl, w.view.source.revisions_produce p⟩
  | recompute structural | resetFilters | extend row column =>
      simp only [step, callOpen] at hm
      split at hm <;> cases hm
      exact ⟨rfl, le_refl _⟩
  | proceed i =>
      simp only [step] at hm
      split at hm
      · cases hm
      · obtain ⟨⟨v, c?⟩, hv, rfl⟩ := Option.map_eq_some_iff.mp hm
        exact Call.seen_step hv
  | _ =>
      cases hm
      exact ⟨rfl, le_refl _⟩

theorem live_step (hm : w.step m = some w') : w.view.live ≤ w'.view.live := by
  rcases work_or_beside hm with ⟨visit, fault?, v, rfl, hv, rfl⟩ | hother
  · exact le_of_eq (View.steady_work hv).1.symm
  · exact (seen_step hm hother).2

def tasks (w : World) : List Publication := w.errand?.toList.flatMap (·.task?.toList) ++ w.batch

structure Lags (w : World) : Prop where
  view : w.view.Lags
  tasks : ∀ p ∈ w.tasks, p.revisions ≤ w.view.seen
  compared : ∀ r, w.errand? = some (.comparing r) → r ≤ w.view.seen

theorem Lags.beside (h : w.Lags) (hworker : w'.view.worker = w.view.worker)
    (hseen : w'.view.seen = w.view.seen ∧ w.view.live ≤ w'.view.live)
    (hqueue : ∀ p ∈ w'.view.consumer.queue, p ∈ w.view.consumer.queue)
    (htasks : ∀ p ∈ w'.tasks, p.revisions ≤ w.view.seen)
    (hcompared : ∀ r, w'.errand? = some (.comparing r) → r ≤ w.view.seen) : w'.Lags := by
  obtain ⟨hsame, hlive⟩ := hseen
  have hreads : w'.view.ReadsIn w.view.worker.phase := by
    have hreads := h.view.reads
    cases hphase : w.view.worker.phase with
    | pass asked s =>
        rw [hphase] at hreads
        cases s with
        | copied s => exact ⟨le_of_eq_of_le hsame hreads.1, le_trans hreads.2 hlive⟩
        | _ => first | exact le_of_le_of_eq hreads hsame.symm | trivial
    | _ => trivial
  refine ⟨⟨?_, ?_, ?_⟩, ?_, ?_⟩
  · rw [hsame]
    exact le_trans h.view.seen hlive
  · rw [hworker]
    exact hreads
  · rw [hsame]
    exact fun p hp => h.view.queue p (hqueue p hp)
  · rw [hsame]
    exact htasks
  · rw [hsame]
    exact hcompared

theorem lags_attend (h : w.Lags) (hm : w.step .attend = some w') : w'.Lags := by
  have hseen := seen_step hm (by simp)
  have hworker := worker_step hm (by simp)
  simp only [step] at hm
  split at hm
  · next e herrand =>
      cases hm
      have htasks := h.tasks
      simp only [tasks, herrand, Option.toList_some, List.flatMap_cons, List.flatMap_nil, List.append_nil] at htasks
      cases e with
      | called p =>
          refine h.beside hworker hseen (fun p hp => hp) ?_ ?_
          · simp only [tasks, View.attend]
            split
            · exact fun p hp => htasks p (List.mem_append_right _ (by simpa using hp))
            · simpa [Errand.task?] using htasks
          · simp only [View.attend]
            split <;> simp
      | reading =>
          refine h.beside hworker hseen (fun p hp => hp) (by simpa [tasks, View.attend, Errand.task?] using htasks) ?_
          intro r hr
          cases hr
          exact le_refl _
      | counting p =>
          obtain ⟨i, hi⟩ := View.exists_setIndicator
            { w.view with counts := { w.view.counts with publications := w.view.counts.publications + 1 } } p.pass .idle
          refine h.beside hworker hseen (by simp [View.attend, hi]) ?_ (by simp [View.attend])
          exact fun p hp => htasks p (List.mem_append_right _ (by simpa [tasks, View.attend, Errand.task?] using hp))
      | comparing r =>
          refine h.beside hworker hseen (fun p hp => hp) ?_ ?_
          · simp only [tasks, View.attend]
            split <;> simpa [Errand.task?] using htasks
          · simp only [View.attend]
            split <;> simp
      | _ =>
          exact h.beside hworker hseen (fun p hp => hp) (by simpa [tasks, View.attend, Errand.task?] using htasks)
            (by simp [View.attend])
  · next p batch herrand hbatch =>
      cases hm
      refine h.beside hworker hseen (fun p hp => hp) ?_ (by simp)
      simpa [tasks, herrand, hbatch, Errand.task?] using h.tasks
  · cases hm

theorem lags_step (h : w.Lags) (hm : w.step m = some w') : w'.Lags := by
  cases m with
  | work visit fault? =>
      obtain ⟨v, hv, rfl⟩ := Option.map_eq_some_iff.mp hm
      obtain ⟨hview, hseen⟩ := View.lags_work h.view hv
      exact ⟨hview, fun p hp => le_trans (h.tasks p hp) hseen, fun r hr => le_trans (h.compared r hr) hseen⟩
  | drain =>
      simp only [step] at hm
      split at hm
      · next hbatch herrand =>
          cases hm
          refine ⟨⟨h.view.seen, h.view.reads, by simp [Consumer.drain]⟩, ?_, by simp [herrand]⟩
          simpa [tasks, herrand, Consumer.drain] using h.view.queue
      · cases hm
  | attend => exact lags_attend h hm
  | shutDown =>
      cases hm
      exact ⟨⟨h.view.seen, h.view.reads, by simp [Consumer.shutDown]⟩, h.tasks, h.compared⟩
  | _ =>
      obtain ⟨hcore, hbatch, herrand⟩ := core_step hm (by simp) (by simp) (by simp) (by simp)
      have hconsumer : w'.view.consumer = w.view.consumer := congrArg (·.2.2.2) hcore
      have htasks : w'.tasks = w.tasks := by rw [tasks, tasks, hbatch, herrand]
      refine h.beside (congrArg (·.2.1) hcore) (seen_step hm (by simp)) ?_ ?_ ?_
      · rw [hconsumer]
        exact fun p hp => hp
      · rw [htasks]
        exact h.tasks
      · rw [herrand]
        exact h.compared

section Started

variable {source : Source Unit} {config : Config} {v : View}

theorem isHushed_run (hstart : View.start source config = .ok v) (hrun : run ⟨v, [], none, []⟩ history = some w) :
    w.IsHushed := by
  refine run_induction (motive := fun _ w => w.IsHushed) hrun ?_ fun _ _ _ _ _ hm h => isHushed_step h hm
  obtain rfl := View.opened_of_start hstart
  rfl

theorem lags_run (hstart : View.start source config = .ok v) (hrun : run ⟨v, [], none, []⟩ history = some w) :
    w.Lags := by
  refine run_induction (motive := fun _ w => w.Lags) hrun ?_ fun _ _ _ _ _ hm h => lags_step h hm
  obtain rfl := View.opened_of_start hstart
  exact ⟨⟨⟨Nat.zero_le _, Nat.zero_le _⟩, trivial, by simp [View.opened]⟩, by simp [tasks], by simp⟩

end Started

end World

end LiveSheet
