import LiveSheet.Proofs.View.Answers
import LiveSheet.Proofs.View.Silence
import Mathlib.Data.Nat.Basic

namespace LiveSheet

def Phase.copy? : Phase → Option Snapshot
  | .pass _ (.copied s) | .pass _ (.noted s) | .pass _ (.preparing s) | .pass _ (.rebuilding s) => some s
  | .pass _ (.computing s _) => some s
  | _ => none

def Phase.isOver : Phase → Bool
  | .stopping | .stopped => true
  | _ => false

theorem Phase.isOver_of_asked? {p : Phase} {asked : Bool} (h : p.asked? = some asked) : p.isOver = false := by
  cases p with
  | pass asked s => rfl
  | _ => cases h

def Call.isResetting : Call → Bool
  | .resetting => true
  | _ => false

namespace View

variable {v v' : View} {visit : VisitOrder} {s : Snapshot}

theorem copy?_perform {asked : Bool} {stage : Stage} (hs : (v.perform visit asked stage).worker.phase.copy? = some s) :
    (Phase.pass asked stage).copy? = some s ∨ stage = .copying ∧ s = v.source.data.snapshot := by
  cases stage with
  | copying =>
      cases hs
      exact .inr ⟨rfl, rfl⟩
  | copied c =>
      cases hs
      exact .inl rfl
  | noted c =>
      simp only [perform, checkOpen] at hs
      split at hs <;> cases hs
      exact .inl rfl
  | preparing c =>
      simp only [perform] at hs
      split at hs <;> cases hs <;> exact .inl rfl
  | rebuilding c =>
      cases hs
      exact .inl rfl
  | computed f =>
      simp only [perform, checkOpen] at hs
      split at hs
      · cases hs
      · split at hs <;> cases hs
  | publishing f =>
      simp only [perform, checkOpen] at hs
      split at hs <;> cases hs
  | handing f =>
      obtain ⟨i, hi⟩ := v.exists_setIndicator v.worker.pass .applying
      simp only [perform, hi] at hs
      cases hs
  | scheduling f | refused f e | comparing f | recovering | resting =>
      simp only [perform] at hs
      split at hs <;> cases hs
  | failing =>
      obtain ⟨i, hi⟩ := exists_setIndicator
        { v with counts := { v.counts with failures := v.counts.failures + 1 } } v.worker.pass .idle
      simp only [perform, hi] at hs
      cases hs
  | _ => cases hs

theorem copy?_work {fault? : Option PassError} (hv : v.work visit fault? = some v')
    (hs : v'.worker.phase.copy? = some s) : v.worker.phase.copy? = some s ∨
      (∃ asked, v.worker.phase = .pass asked .copying) ∧ s = v.source.data.snapshot := by
  unfold work at hv
  split at hv
  · cases hv
    cases hs
  · split at hv <;> cases hv <;> cases hs
  · next asked stage hphase =>
      cases hv
      rw [hphase]
      refine (copy?_perform hs).imp_right fun ⟨hstage, hcopy⟩ => ⟨⟨asked, ?_⟩, hcopy⟩
      rw [hstage]
  · unfold disturb at hv
    split at hv
    · cases hv
      cases hs
    · cases hv
      cases hs
    · cases hv
      cases hs
    · split at hv <;> cases hv
      cases hs
    · cases hv
  · cases hv
    cases hs
  · cases hv
    cases hs
  · cases hv

theorem isOver_work {fault? : Option PassError} (hv : v.work visit fault? = some v') (hopen : v.isClosed = false)
    (hover : v.worker.phase.isOver = false) : v'.worker.phase.isOver = false := by
  unfold work at hv
  split at hv
  · cases hv
    rfl
  · rw [isClosed] at hopen
    simp only [Tracker.take, hopen, Bool.false_eq_true, if_false] at hv
    split at hv
    · cases hv
    · next heq => split at heq <;> cases heq
    · cases hv
      rfl
  · next asked stage _ =>
      cases hv
      rcases v.asked?_perform hopen with hgoes | ⟨hends, -⟩
      · exact Phase.isOver_of_asked? hgoes
      · rw [hends]
        rfl
  · exact Phase.isOver_of_asked? (v.asked?_disturb hv).1
  · cases hv
    rfl
  · next hphase =>
      rw [hphase] at hover
      cases hover
  · cases hv

theorem resets_closeStep {byWorker : Bool} {c c' : Closing} (h : v.closeStep byWorker c = some (v', c')) :
    v'.resets = v.resets := by
  cases c with
  | awaiting =>
      simp only [closeStep] at h
      split at h <;> cases h
      rfl
  | done => cases h
  | _ =>
      cases h
      rfl

end View

theorem Call.resets_step {v v' : View} {c : Call} {c? : Option Call} (h : c.step v = some (v', c?)) :
    v'.resets = v.resets + c.isResetting.toNat ∧ (c.isResetting = true → c? = some (.marking false)) := by
  cases c with
  | writing x =>
      simp only [step] at h
      split at h
      · cases h
        exact ⟨rfl, by simp [isResetting]⟩
      · next row rows _ =>
          have hchange : (v.change (.edit (.setFormula row (.index x.column) (x.textFor row)))).1.resets =
            v.resets := rfl
          split at h
          · next heq =>
              cases h
              rw [heq] at hchange
              exact ⟨hchange, by simp [isResetting]⟩
          · next heq =>
              cases h
              rw [heq] at hchange
              exact ⟨hchange, by simp [isResetting]⟩
  | noticing x notice? =>
      obtain ⟨t, ht⟩ := v.exists_tellAny notice?
      simp only [step, ht] at h
      cases h
      exact ⟨rfl, by simp [isResetting]⟩
  | closing c =>
      simp only [step, Option.map_eq_some_iff] at h
      obtain ⟨⟨u, c'⟩, hclose, heq⟩ := h
      cases heq
      exact ⟨View.resets_closeStep hclose, by simp [isResetting]⟩
  | _ =>
      cases h
      exact ⟨rfl, by simp [isResetting]⟩

namespace World

variable {start w w' : World} {history copied : List Move} {m : Move} {s : Snapshot}

def HoldsSince (start : World) (copied history : List Move) (s : Snapshot) : Prop :=
  copied <+: history ∧ (∃ x asked, start.run copied = some x ∧ x.view.worker.phase = .pass asked .copying ∧
    s = x.view.source.data.snapshot) ∧
  ∀ between, copied <+: between → between ≠ copied → between <+: history →
    (start.run between).any (·.view.worker.phase.copy?.isSome) = true

theorem HoldsSince.longer (h : HoldsSince start copied history s) (hrun : start.run (history ++ [m]) = some w)
    (hs : w.view.worker.phase.copy? = some s) : HoldsSince start copied (history ++ [m]) s := by
  obtain ⟨hcopied, hx, hbetween⟩ := h
  refine ⟨hcopied.trans (List.prefix_append history [m]), hx, fun between hsince hne hprefix => ?_⟩
  rcases List.prefix_concat_iff.mp hprefix with rfl | hprefix
  · rw [hrun, Option.any_some, hs]
    rfl
  · exact hbetween between hsince hne hprefix

theorem holdsSince_run {source : Source Unit} {config : Config} {v : View}
    (hstart : View.start source config = .ok v) (hrun : run ⟨v, [], none, []⟩ history = some w)
    (hs : w.view.worker.phase.copy? = some s) : ∃ copied, HoldsSince ⟨v, [], none, []⟩ copied history s := by
  refine run_induction (motive := fun history w => ∀ s, w.view.worker.phase.copy? = some s →
    ∃ copied, HoldsSince ⟨v, [], none, []⟩ copied history s) hrun (fun s hs => ?_)
    (fun before u m u' hu hm ih s hs => ?_) s hs
  · obtain rfl := View.opened_of_start hstart
    cases hs
  · have hrun' := run_append hu hm
    rcases work_or_beside hm with ⟨visit, fault?, v', rfl, hv, rfl⟩ | hother
    · rcases View.copy?_work hv hs with hheld | ⟨⟨asked, hphase⟩, hcopy⟩
      · obtain ⟨copied, hholds⟩ := ih s hheld
        exact ⟨copied, hholds.longer hrun' hs⟩
      · -- the copy was taken just now
        refine ⟨before, List.prefix_append _ _, ⟨u, asked, hu, hphase, hcopy⟩, fun between hsince hne hbetween => ?_⟩
        rcases List.prefix_concat_iff.mp hbetween with rfl | hbetween
        · rw [hrun', Option.any_some, hs]
          rfl
        · exact absurd (hbetween.eq_of_length_le hsince.length_le) hne
    · have hworker := worker_step hm hother
      rw [hworker] at hs
      obtain ⟨copied, hholds⟩ := ih s hs
      refine ⟨copied, hholds.longer hrun' ?_⟩
      rw [hworker]
      exact hs

theorem resets_step (hm : w.step m = some w') (hproceed : ∀ i, m ≠ .proceed i) : w'.view.resets = w.view.resets := by
  cases m with
  | proceed i => exact absurd rfl (hproceed i)
  | work visit fault? =>
      obtain ⟨v, hv, rfl⟩ := Option.map_eq_some_iff.mp hm
      exact (View.steady_work hv).2
  | drain =>
      simp only [step] at hm
      split at hm <;> cases hm
      rfl
  | attend =>
      simp only [step] at hm
      split at hm
      · next e _ =>
          cases hm
          cases e with
          | counting p =>
              obtain ⟨i, hi⟩ := View.exists_setIndicator
                { w.view with counts := { w.view.counts with publications := w.view.counts.publications + 1 } } p.pass
                .idle
              simp only [View.attend, hi]
          | _ => rfl
      · cases hm
        rfl
      · cases hm
  | recompute structural | resetFilters | extend row column =>
      simp only [step, callOpen] at hm
      split at hm <;> cases hm
      rfl
  | _ =>
      cases hm
      rfl

theorem resets_le_step (hm : w.step m = some w') : w.view.resets ≤ w'.view.resets := by
  by_cases hproceed : ∃ i, m = .proceed i
  · obtain ⟨i, rfl⟩ := hproceed
    obtain ⟨c, c?, -, hstep, -⟩ := calls_proceed hm
    rw [(Call.resets_step hstep).1]
    exact Nat.le_add_right _ _
  · exact Nat.le_of_eq (resets_step hm fun i heq => hproceed ⟨i, heq⟩).symm

theorem le_of_steps {α : Type} [Preorder α] {measure : World → α}
    (hstep : ∀ {w w' : World} {m : Move}, w.step m = some w' → measure w ≤ measure w') {before : List Move} {u : World}
    (hbefore : before <+: history) (hu : start.run before = some u) (hrun : start.run history = some w) :
    measure u ≤ measure w := by
  obtain ⟨rest, rfl⟩ := hbefore
  induction rest using List.reverseRecOn generalizing w with
  | nil =>
      rw [List.append_nil, hu] at hrun
      cases hrun
      exact le_refl _
  | append_singleton rest m ih =>
      rw [← List.append_assoc, run_concat] at hrun
      obtain ⟨v, hv, hm⟩ := Option.bind_eq_some_iff.mp hrun
      exact le_trans (ih hv) (hstep hm)

def callBehind (w w' : World) (i : Nat) : Move → Option Nat
  | .proceed j =>
      if w'.calls.length < w.calls.length then
        if j = i then none else some (if j < i then i - 1 else i)
      else some i
  | _ => some i

/-- The call that was begun at the end of `begun` is the one with this index, or it has returned. -/
inductive Tracks (start : World) (begun : List Move) : List Move → Option Nat → Prop
  | begun {before : List Move} {m : Move} {w : World} (hbegun : begun = before ++ [m])
      (hrun : start.run before = some w) : Tracks start begun begun (some w.calls.length)
  | since {history : List Move} {m : Move} {w w' : World} {i? : Option Nat} (h : Tracks start begun history i?)
      (hrun : start.run history = some w) (hm : w.step m = some w') :
      Tracks start begun (history ++ [m]) (i?.bind fun i => w.callBehind w' i m)

variable {i : Nat} {c : Call}

theorem callBehind_step (hm : w.step m = some w') (hc : w.calls[i]? = some c) :
    (∃ j, w.callBehind w' i m = some j ∧ w'.calls[j]? = some c) ∨
      m = .proceed i ∧ ∃ c?, c.step w.view = some (w'.view, c?) ∧
        ((∃ c', c? = some c' ∧ w.callBehind w' i m = some i ∧ w'.calls[i]? = some c') ∨
          c? = none ∧ w.callBehind w' i m = none) := by
  have hi := (List.getElem?_eq_some_iff.mp hc).1
  by_cases hproceed : ∃ j, m = .proceed j
  · obtain ⟨j, rfl⟩ := hproceed
    obtain ⟨d, d?, hd, hstep, hcalls⟩ := calls_proceed hm
    have hj := (List.getElem?_eq_some_iff.mp hd).1
    cases d? with
    | none =>
        have hcalls : w'.calls = w.calls.eraseIdx j := hcalls
        have hlength : w'.calls.length < w.calls.length := by
          rw [hcalls, List.length_eraseIdx_of_lt hj]
          omega
        by_cases hsame : j = i
        · subst hsame
          obtain rfl := Option.some.inj (hc.symm.trans hd)
          exact .inr ⟨rfl, none, hstep, .inr ⟨rfl, by simp [callBehind, hlength]⟩⟩
        · refine .inl ⟨if j < i then i - 1 else i, by simp [callBehind, hlength, hsame], ?_⟩
          rw [hcalls, List.getElem?_eraseIdx]
          by_cases hlt : j < i
          · rw [if_pos hlt, if_neg (by omega), Nat.sub_add_cancel (by omega)]
            exact hc
          · rw [if_neg hlt, if_pos (by omega)]
            exact hc
    | some d' =>
        have hcalls : w'.calls = w.calls.set j d' := hcalls
        have hbehind : w.callBehind w' i (.proceed j) = some i := by simp [callBehind, hcalls]
        by_cases hsame : j = i
        · subst hsame
          obtain rfl := Option.some.inj (hc.symm.trans hd)
          refine .inr ⟨rfl, some d', hstep, .inl ⟨d', rfl, hbehind, ?_⟩⟩
          rw [hcalls]
          exact List.getElem?_set_self hi
        · refine .inl ⟨i, hbehind, ?_⟩
          rw [hcalls, List.getElem?_set_ne hsame]
          exact hc
  · have hother : ∀ j, m ≠ .proceed j := fun j heq => hproceed ⟨j, heq⟩
    obtain ⟨new, hcalls, -⟩ := calls_step hm hother
    refine .inl ⟨i, ?_, ?_⟩
    · cases m with
      | proceed j => exact absurd rfl (hother j)
      | _ => rfl
    · rw [hcalls, List.getElem?_append_left hi]
      exact hc

theorem Tracks.isPrefix {begun : List Move} {i? : Option Nat} (h : Tracks start begun history i?) :
    begun <+: history := by
  induction h with
  | begun => exact List.prefix_refl _
  | since _ _ _ ih => exact ih.trans (List.prefix_append _ _)

theorem Tracks.exists_of_prefix {before : List Move} (hbegun : before ++ [m] <+: history)
    (hrun : start.run history = some w) : ∃ i?, Tracks start (before ++ [m]) history i? := by
  obtain ⟨rest, rfl⟩ := hbegun
  induction rest using List.reverseRecOn generalizing w with
  | nil =>
      rw [List.append_nil, run_concat] at hrun
      obtain ⟨u, hu, -⟩ := Option.bind_eq_some_iff.mp hrun
      rw [List.append_nil]
      exact ⟨_, .begun rfl hu⟩
  | append_singleton rest m' ih =>
      rw [← List.append_assoc, run_concat] at hrun
      obtain ⟨u, hu, hm⟩ := Option.bind_eq_some_iff.mp hrun
      obtain ⟨i?, htracks⟩ := ih hu
      rw [← List.append_assoc]
      exact ⟨_, htracks.since hu hm⟩

def Counts (w : World) (bound resets : Nat) : Prop := bound < resets ∨ w.view.tracker.isDirty = true

def CountsIn (w : World) (bound : Nat) : Phase → Prop
  | .pass _ s =>
      match s with
      | .computed f | .silencing f | .storing f | .telling f _ | .showing f | .publishing f | .handing f
      | .scheduling f | .serving f => w.Counts bound f.resets
      | .comparing _ | .requesting _ | .succeeding => w.Counts bound w.view.worker.served
      | _ => True
  | .turning | .waiting | .finishing => w.Counts bound w.view.worker.served
  | .stopping | .stopped => True

variable {bound resets : Nat} {visit : VisitOrder} {asked : Bool}

theorem countsIn_of_dirty (h : w.view.tracker.isDirty = true) (p : Phase) : w.CountsIn bound p := by
  cases p with
  | pass asked s => cases s <;> first | exact .inr h | trivial
  | turning | waiting | finishing => exact .inr h
  | stopping | stopped => trivial

theorem CountsIn.of_dirty {p : Phase} (h : w.CountsIn bound p)
    (hserved : w'.view.worker.served = w.view.worker.served)
    (hdirty : w.view.tracker.isDirty = true → w'.view.tracker.isDirty = true) : w'.CountsIn bound p := by
  have hserves (hw : w.Counts bound w.view.worker.served) : w'.Counts bound w'.view.worker.served := by
    rw [hserved]
    exact hw.imp_right hdirty
  cases p with
  | pass asked s =>
      cases s with
      | comparing f | requesting structural | succeeding => exact hserves h
      | computed f | silencing f | storing f | showing f | publishing f | handing f | scheduling f | serving f =>
          exact Or.imp_right hdirty h
      | telling f notice? => exact Or.imp_right hdirty h
      | _ => trivial
  | turning | waiting | finishing => exact hserves h
  | stopping | stopped => trivial

theorem countsIn_perform {s : Stage} (hopen : w.view.isClosed = false) (hcounted : bound < w.view.resets)
    (h : w.CountsIn bound (.pass asked s)) :
    CountsIn { w with view := w.view.perform visit asked s } bound (w.view.perform visit asked s).worker.phase := by
  cases s with
  | noted s =>
      simp only [View.perform, View.checkOpen_of_open hopen]
      trivial
  | preparing s =>
      simp only [View.perform]
      split <;> trivial
  | computing s rebuilt => exact .inl hcounted
  | computed f =>
      simp only [View.perform, View.checkOpen_of_open hopen]
      split <;> exact h
  | telling f notice? =>
      refine Or.imp_right (fun hdirty => ?_) h
      rw [View.tracker_perform, Tracker.markAll_eq]
      simp [hdirty]
  | publishing f =>
      simp only [View.perform, View.checkOpen_of_open hopen]
      exact h
  | handing f =>
      obtain ⟨i, hi⟩ := w.view.exists_setIndicator w.view.worker.pass .applying
      simp only [View.perform, hi]
      exact h
  | scheduling f =>
      simp only [View.perform]
      split
      · exact h
      · trivial
  | refused f e | recovering | resting =>
      simp only [View.perform, hopen, Bool.false_eq_true, if_false]
      trivial
  | comparing f =>
      simp only [View.perform]
      split <;> exact h
  | requesting structural | retrying => exact .inr rfl
  | failing =>
      obtain ⟨i, hi⟩ := View.exists_setIndicator
        { w.view with counts := { w.view.counts with failures := w.view.counts.failures + 1 } } w.view.worker.pass .idle
      simp only [View.perform, hi]
      trivial
  | silencing f | storing f | showing f | serving f | succeeding => exact h
  | _ => trivial

theorem countsIn_work {fault? : Option PassError} {v : View} (hopen : w.view.isClosed = false)
    (hcounted : bound < w.view.resets) (h : w.CountsIn bound w.view.worker.phase)
    (hv : w.view.work visit fault? = some v) : CountsIn { w with view := v } bound v.worker.phase := by
  unfold View.work at hv
  split at hv
  · next hphase =>
      cases hv
      rw [hphase] at h
      exact h
  · next hphase =>
      have hopen : w.view.tracker.isClosed = false := hopen
      simp only [Tracker.take, hopen, Bool.false_eq_true, if_false] at hv
      split at hv
      · cases hv
      · next heq => split at heq <;> cases heq
      · cases hv
        trivial
  · next hphase =>
      cases hv
      rw [hphase] at h
      exact countsIn_perform hopen hcounted h
  · next hphase =>
      rw [hphase] at h
      unfold View.disturb at hv
      split at hv
      · cases hv
        trivial
      · cases hv
        trivial
      · cases hv
        trivial
      · split at hv <;> cases hv
        trivial
      · cases hv
  · next hphase =>
      cases hv
      rw [hphase] at h
      exact h
  · cases hv
    trivial
  · cases hv

theorem countsIn_step (hm : w.step m = some w') (hopen : w'.view.isClosed = false) (hcounted : bound < w.view.resets)
    (h : w.CountsIn bound w.view.worker.phase) : w'.CountsIn bound w'.view.worker.phase := by
  rcases work_or_beside hm with ⟨visit, fault?, v, rfl, hv, rfl⟩ | hother
  · exact countsIn_work (isClosed_step hm hopen) hcounted h hv
  · have hworker := worker_step hm hother
    rw [hworker]
    refine h.of_dirty (congrArg Worker.served hworker) fun hdirty => ?_
    rw [tracker_step hm hother (not_marking_of_open hm hopen), Tracker.markAll_eq, hdirty]
    rfl

inductive ResetAt (bound : Nat) (w : World) : Option Nat → Prop
  | begun {i : Nat} (hi : w.calls[i]? = some .resetting) : ResetAt bound w (some i)
  | counted {i : Nat} (hi : w.calls[i]? = some (.marking false)) (h : bound < w.view.resets) : ResetAt bound w (some i)
  | returned (h : bound < w.view.resets) (hcounts : w.CountsIn bound w.view.worker.phase) : ResetAt bound w none

theorem resetAt_step {i? : Option Nat} (hm : w.step m = some w') (hopen : w'.view.isClosed = false)
    (hbound : bound ≤ w.view.resets) (h : ResetAt bound w i?) :
    ResetAt bound w' (i?.bind fun i => w.callBehind w' i m) := by
  have hresets := resets_le_step hm
  cases h with
  | begun hi =>
      rw [Option.bind_some]
      rcases callBehind_step hm hi with ⟨j, hj, hcall⟩ | ⟨-, c?, hstep, ⟨c', hc, hi', hcall⟩ | ⟨hnone, -⟩⟩
      · rw [hj]
        exact .begun hcall
      · obtain ⟨hcount, hmarking⟩ := Call.resets_step hstep
        obtain rfl := Option.some.inj (hc.symm.trans (hmarking rfl))
        rw [hi']
        exact .counted hcall (lt_of_le_of_lt hbound (Nat.lt_of_lt_of_eq (Nat.lt_succ_self _) hcount.symm))
      · rw [(Call.resets_step hstep).2 rfl] at hnone
        cases hnone
  | counted hi h =>
      rw [Option.bind_some]
      rcases callBehind_step hm hi with ⟨j, hj, hcall⟩ | ⟨-, c?, hstep, hc⟩
      · rw [hj]
        exact .counted hcall (Nat.lt_of_lt_of_le h hresets)
      · obtain ⟨hview, rfl⟩ := Prod.mk.inj (Option.some.inj hstep)
        rcases hc with ⟨c', hc, -⟩ | ⟨-, hnone⟩
        · cases hc
        · -- the request of the call is in the tracker, so that a pass to come counts the reset
          rw [hnone]
          refine .returned (Nat.lt_of_lt_of_le h hresets) (countsIn_of_dirty ?_ _)
          rw [← hview]
          rfl
  | returned h hcounts => exact .returned (Nat.lt_of_lt_of_le h hresets) (countsIn_step hm hopen h hcounts)

theorem resetAt_run {called : List Move} {z : World} {i? : Option Nat}
    (htracks : Tracks start (called ++ [.resetFilters]) history i?) (hrun : start.run history = some w)
    (hopen : w.view.isClosed = false) (hz : start.run called = some z) : ResetAt z.view.resets w i? := by
  generalize hbegun : called ++ [.resetFilters] = begun at htracks
  induction htracks generalizing w with
  | @begun before m u hbefore hu =>
      obtain ⟨rfl, hm⟩ := List.append_inj' (hbegun.trans hbefore) rfl
      cases hm
      obtain rfl := Option.some.inj (hu.symm.trans hz)
      rw [hbefore, run_concat, hu, Option.bind_some] at hrun
      simp only [step, callOpen] at hrun
      split at hrun <;> cases hrun
      exact .begun (by simp [call])
  | @since history m u u' i? htracks hu hm ih =>
      obtain rfl := Option.some.inj ((run_append hu hm).symm.trans hrun)
      have hprefix : called <+: history := (List.prefix_append called _).trans (hbegun ▸ htracks.isPrefix)
      exact resetAt_step hm hopen (le_of_steps resets_le_step hprefix hz hu) (ih hu (isClosed_step hm hopen))

theorem tracks_none_of_calls {called : List Move} (hcalled : called ++ [.resetFilters] <+: history)
    (hrun : start.run history = some w) (hopen : w.view.isClosed = false) (hcalls : w.calls = []) :
    Tracks start (called ++ [.resetFilters]) history none := by
  obtain ⟨i?, htracks⟩ := Tracks.exists_of_prefix hcalled hrun
  obtain ⟨z, hz, -⟩ := isClosed_run hrun hopen ((List.prefix_append called _).trans hcalled)
  cases resetAt_run htracks hrun hopen hz with
  | begun hi | counted hi _ =>
      rw [hcalls] at hi
      cases hi
  | returned => exact htracks

theorem not_isOver_run {source : Source Unit} {config : Config} {v : View}
    (hstart : View.start source config = .ok v) (hrun : run ⟨v, [], none, []⟩ history = some w)
    (hopen : w.view.isClosed = false) : w.view.worker.phase.isOver = false := by
  refine run_induction (motive := fun _ w => w.view.isClosed = false → w.view.worker.phase.isOver = false) hrun
    (fun _ => ?_) (fun before u m u' hu hm ih hopen => ?_) hopen
  · obtain rfl := View.opened_of_start hstart
    rfl
  · have hopen' := isClosed_step hm hopen
    rcases work_or_beside hm with ⟨visit, fault?, v', rfl, hv, rfl⟩ | hother
    · exact View.isOver_work hv hopen' (ih hopen')
    · rw [worker_step hm hother]
      exact ih hopen'

end World

end LiveSheet
