import LiveSheet.Proofs.View.Closing

namespace LiveSheet

theorem Indicator.isClosed_set {i : Indicator} (b : Busy) (h : i.isClosed = false) : (i.set b).isClosed = false := by
  unfold set
  split
  · exact h
  · split <;> exact h

theorem Indicator.busy_set {i : Indicator} (b : Busy) (h : i.isClosed = false) : (i.set b).busy = b := by
  unfold set
  rw [h, Bool.false_or]
  split
  · next hb => exact eq_of_beq hb
  · split <;> rfl

/-- How far a pass is with the indicator: it has yet to take it over, computes, hands its result over, or has done so.
Elsewhere it is no concern of the indicator. -/
def Stage.place : Stage → Nat
  | .beginning => 1
  | .copying | .copied _ | .noted _ | .preparing _ | .rebuilding _ | .computing _ _ => 2
  | .computed _ | .silencing _ | .storing _ | .telling _ _ | .showing _ | .publishing _ | .handing _ => 2
  | .scheduling _ | .refused _ _ => 3
  | .serving _ | .comparing _ | .requesting _ | .succeeding => 4
  | .woken | .failing | .recovering | .resting | .retrying => 0

def Phase.place : Phase → Nat
  | .pass _ s => s.place
  | _ => 0

def Errand.counts (pass : Nat) : Errand → Bool
  | .counting p => p.pass == pass
  | _ => false

theorem Errand.exists_of_counts {pass : Nat} {e : Errand} (h : e.counts pass = true) :
    ∃ p, e = .counting p ∧ p.pass = pass := by
  cases e with
  | counting p => exact ⟨p, rfl, eq_of_beq h⟩
  | _ => cases h

inductive Turn where
  | begins
  | handsOver
  | fails
  | applies

namespace World

def performs? (w : World) : Move → Option Stage
  | .work _ none =>
      match w.view.worker.phase with
      | .pass _ s => some s
      | _ => none
  | _ => none

end World

def Turn.occurs (pass : Nat) (w : World) (m : Move) : Turn → Prop
  | .begins => w.performs? m = some .beginning ∧ w.view.worker.pass = pass
  | .handsOver => (∃ f, w.performs? m = some (.handing f)) ∧ w.view.worker.pass = pass
  | .fails => w.performs? m = some .failing ∧ w.view.worker.pass = pass
  | .applies => m = .attend ∧ ∃ p, w.errand? = some (.counting p) ∧ p.pass = pass

namespace View

def gauge (v : View) : Indicator × Nat := (v.indicator, v.leader)

theorem gauge_setIndicator (v : View) (pass : Nat) (b : Busy) :
    (v.setIndicator pass b).gauge = (if v.leader = pass then v.indicator.set b else v.indicator, v.leader) := by
  unfold setIndicator
  split <;> rfl

theorem gauge_tellAny (v : View) (notice? : Option Notice) : (v.tellAny notice?).gauge = v.gauge := by
  have htell (n : Notice) : (v.tell n).gauge = v.gauge := by
    unfold tell
    induction v.source.observers generalizing v with
    | nil => rfl
    | cons o os ih =>
        rw [List.foldl_cons, ih]
        rfl
  cases notice? with
  | none => rfl
  | some n => exact htell n

theorem gauge_closeStep {v v' : View} {c c' : Closing} (h : v.closeStep false c = some (v', c')) (hc : c ≠ .freezing) :
    v'.gauge = v.gauge := by
  cases c with
  | awaiting =>
      simp only [closeStep] at h
      split at h <;> cases h
      rfl
  | freezing => exact absurd rfl hc
  | done => cases h
  | _ =>
      cases h
      rfl

end View

theorem Call.gauge_step {v v' : View} {c : Call} {c? : Option Call} (h : c.step v = some (v', c?))
    (hc : c ≠ .closing .freezing) : v'.gauge = v.gauge := by
  cases c with
  | writing x =>
      simp only [step] at h
      split at h
      · cases h
        rfl
      · next row rows _ =>
          have hchange : (v.change (.edit (.setFormula row (.index x.column) (x.textFor row)))).1.gauge = v.gauge := rfl
          split at h
          · next heq =>
              cases h
              rw [heq] at hchange
              exact hchange
          · next heq =>
              cases h
              rw [heq] at hchange
              exact hchange
  | noticing x notice? =>
      cases h
      exact v.gauge_tellAny notice?
  | closing k =>
      simp only [step, Option.map_eq_some_iff] at h
      obtain ⟨⟨u, k'⟩, hstep, heq⟩ := h
      cases heq
      exact View.gauge_closeStep hstep fun hk => hc (hk ▸ rfl)
  | _ =>
      cases h
      rfl

namespace World

def place (w : World) : Nat := w.view.worker.phase.place

def outstanding (w : World) : List Publication := w.tasks ++ w.view.consumer.queue

structure Calm (w w' : World) : Prop where
  gauge : w'.view.gauge = w.view.gauge
  pass : w'.view.worker.pass = w.view.worker.pass
  outstanding : ∀ p ∈ w'.outstanding, p ∈ w.outstanding
  place : w'.place = w.place ∨ w'.place = 0

end World

def Stage.turns : Stage → Bool
  | .woken | .beginning | .handing _ | .scheduling _ | .failing => true
  | _ => false

namespace World

variable {start w w' : World} {history : List Move} {m : Move} {visit : VisitOrder} {asked : Bool} {s : Stage}

theorem place_of_worker (h : w'.view.worker = w.view.worker) : w'.place = w.place := congrArg (·.phase.place) h

theorem calm_of_same {v : View} (hgauge : v.gauge = w.view.gauge) (hpass : v.worker.pass = w.view.worker.pass)
    (hqueue : v.consumer.queue = w.view.consumer.queue)
    (hplace : v.worker.phase.place = w.view.worker.phase.place ∨ v.worker.phase.place = 0) :
    Calm w { w with view := v } := by
  refine ⟨hgauge, hpass, fun p hp => ?_, hplace⟩
  unfold outstanding at hp ⊢
  rw [← hqueue]
  exact hp

theorem calm_perform (hopen : w.view.isClosed = false) (hphase : w.view.worker.phase = .pass asked s)
    (hs : s.turns = false) : Calm w { w with view := w.view.perform visit asked s } := by
  have hplace {s' : Stage} (h : s'.place = s.place ∨ s'.place = 0) :
      Phase.place (.pass asked s') = w.view.worker.phase.place ∨ Phase.place (.pass asked s') = 0 := by
    rw [hphase]
    exact h
  cases s with
  | woken | beginning | handing f | scheduling f | failing => cases hs
  | noted s | publishing f =>
      simp only [View.perform, View.checkOpen_of_open hopen]
      exact calm_of_same rfl rfl rfl (hplace (.inl rfl))
  | preparing s =>
      simp only [View.perform]
      split <;> exact calm_of_same rfl rfl rfl (hplace (.inl rfl))
  | computed f =>
      simp only [View.perform, View.checkOpen_of_open hopen]
      split <;> exact calm_of_same rfl rfl rfl (hplace (.inl rfl))
  | telling f notice? =>
      have hcore := w.view.core_tellAny notice?
      refine calm_of_same (w.view.gauge_tellAny notice?) ?_ ?_ (hplace (.inl rfl))
      · exact congrArg (·.2.1.pass) hcore
      · exact congrArg (·.2.2.2.queue) hcore
  | refused f e =>
      simp only [View.perform, hopen]
      exact calm_of_same rfl rfl rfl (.inr rfl)
  | comparing f =>
      simp only [View.perform]
      split <;> exact calm_of_same rfl rfl rfl (hplace (.inl rfl))
  | recovering | resting =>
      simp only [View.perform, hopen]
      exact calm_of_same rfl rfl rfl (.inr rfl)
  | succeeding | retrying => exact calm_of_same rfl rfl rfl (.inr rfl)
  | _ => exact calm_of_same rfl rfl rfl (hplace (.inl rfl))

theorem calm_disturb {v : View} {fault : PassError} (hphase : w.view.worker.phase = .pass asked s)
    (h : w.view.disturb asked s fault = some v) : Calm w { w with view := v } := by
  unfold View.disturb at h
  split at h
  · cases h
    exact calm_of_same rfl rfl rfl (.inr rfl)
  · cases h
    exact calm_of_same rfl rfl rfl (.inr rfl)
  · cases h
    refine calm_of_same rfl rfl rfl (.inl ?_)
    rw [hphase]
    rfl
  · split at h
    · cases h
      split <;> exact calm_of_same rfl rfl rfl (.inr rfl)
    · cases h
  · cases h

theorem performs?_work {fault? : Option PassError} (h : w.performs? (.work visit fault?) = some s) :
    fault? = none ∧ ∃ asked, w.view.worker.phase = .pass asked s := by
  unfold performs? at h
  split at h
  · next heq =>
      cases heq
      split at h
      · next asked s' hphase =>
          cases h
          exact ⟨rfl, asked, hphase⟩
      · cases h
  · cases h

theorem calm_work {v : View} {fault? : Option PassError} (hopen : w.view.isClosed = false)
    (h : w.view.work visit fault? = some v) (hturns : ∀ s, w.performs? (.work visit fault?) = some s → s.turns = false) :
    Calm w { w with view := v } := by
  unfold View.work at h
  split at h
  · cases h
    exact calm_of_same rfl rfl rfl (.inr rfl)
  · split at h
    · cases h
    · cases h
      exact calm_of_same rfl rfl rfl (.inr rfl)
    · cases h
      exact calm_of_same rfl rfl rfl (.inr rfl)
  · next asked s hphase =>
      cases h
      exact calm_perform hopen hphase (hturns s (by simp only [performs?, hphase]))
  · next asked s fault hphase => exact calm_disturb hphase h
  · cases h
    exact calm_of_same rfl rfl rfl (.inr rfl)
  · cases h
    exact calm_of_same rfl rfl rfl (.inr rfl)
  · cases h

theorem outstanding_attend {e : Errand} (herrand : w.errand? = some e) {p : Publication}
    (hp : p ∈ outstanding { w with view := (w.view.attend e).1, errand? := (w.view.attend e).2 }) : p ∈ w.outstanding := by
  unfold outstanding tasks at hp ⊢
  rw [herrand]
  cases e with
  | called q =>
      simp only [View.attend] at hp
      split at hp
      · exact List.mem_cons_of_mem q hp
      · exact hp
  | counting q =>
      obtain ⟨i, hi⟩ := View.exists_setIndicator
        { w.view with counts := { w.view.counts with publications := w.view.counts.publications + 1 } } q.pass .idle
      simp only [View.attend, hi] at hp
      exact List.mem_cons_of_mem q hp
  | comparing seen =>
      simp only [View.attend] at hp
      split at hp <;> exact hp
  | _ => exact hp

theorem gauge_attend {e : Errand} (he : ∀ p, e ≠ .counting p) : (w.view.attend e).1.gauge = w.view.gauge := by
  cases e with
  | counting p => exact absurd rfl (he p)
  | _ => rfl

theorem calm_attend (hm : w.step .attend = some w') (hcounting : ∀ p, w.errand? ≠ some (.counting p)) : Calm w w' := by
  simp only [step] at hm
  split at hm
  · next e herrand =>
      cases hm
      have hworker := w.view.worker_attend e
      refine ⟨gauge_attend fun p he => hcounting p (he ▸ herrand), by rw [hworker], ?_, .inl (place_of_worker hworker)⟩
      exact fun p hp => outstanding_attend herrand hp
  · next p batch herrand hbatch =>
      cases hm
      refine ⟨rfl, rfl, fun q hq => ?_, .inl rfl⟩
      simpa [outstanding, tasks, herrand, hbatch, Errand.task?] using hq
  · cases hm

theorem calm_beside (hm : w.step m = some w') (hwork : ∀ visit fault?, m ≠ .work visit fault?) (hattend : m ≠ .attend)
    (hfreezing : ¬Steps .freezing w m) : Calm w w' := by
  have hworker := worker_step hm hwork
  have hcore (hdrain : m ≠ .drain) (hshut : m ≠ .shutDown) : ∀ p ∈ w'.outstanding, p ∈ w.outstanding := by
    obtain ⟨hcore, hbatch, herrand⟩ := core_step hm hwork hdrain hattend hshut
    intro p hp
    unfold outstanding tasks at hp ⊢
    rw [hbatch, herrand, show w'.view.consumer = w.view.consumer from congrArg (·.2.2.2) hcore] at hp
    exact hp
  have hcalm (hgauge : w'.view.gauge = w.view.gauge) (houtstanding : ∀ p ∈ w'.outstanding, p ∈ w.outstanding) :
      Calm w w' :=
    ⟨hgauge, by rw [hworker], houtstanding, .inl (place_of_worker hworker)⟩
  cases m with
  | work visit fault? => exact absurd rfl (hwork visit fault?)
  | attend => exact absurd rfl hattend
  | drain =>
      simp only [step] at hm
      split at hm
      · next hbatch herrand =>
          cases hm
          refine hcalm rfl fun p hp => ?_
          simpa [outstanding, tasks, hbatch, herrand, Consumer.drain] using hp
      · cases hm
  | shutDown =>
      cases hm
      refine hcalm rfl fun p hp => ?_
      unfold outstanding at hp ⊢
      rw [List.mem_append] at hp ⊢
      exact hp.imp_right (by simp [Consumer.shutDown])
  | proceed i =>
      refine hcalm ?_ (hcore (by simp) (by simp))
      obtain ⟨c, c?, hc, hstep, -⟩ := calls_proceed hm
      exact Call.gauge_step hstep fun hk => hfreezing ⟨i, rfl, hk ▸ hc⟩
  | recompute structural | resetFilters | extend row column =>
      refine hcalm ?_ (hcore (by simp) (by simp))
      simp only [step, callOpen] at hm
      split at hm <;> cases hm
      rfl
  | _ =>
      refine hcalm ?_ (hcore (by simp) (by simp))
      cases hm
      rfl

structure Indicates (happened : Turn → Nat → Prop) (pass : Nat) (b : Busy) : Prop where
  computing : ¬happened .handsOver pass → ¬happened .fails pass → b = .computing
  applying : happened .handsOver pass → ¬happened .fails pass → ¬happened .applies pass → b = .applying
  idle : happened .fails pass ∨ happened .applies pass → b = .idle

structure Leads (happened : Turn → Nat → Prop) (w : World) : Prop where
  isOpen : w.view.indicator.isClosed = false
  le_pass : w.view.leader ≤ w.view.worker.pass
  opening : w.place = 1 → w.view.leader < w.view.worker.pass
  led : 2 ≤ w.place → w.view.leader = w.view.worker.pass ∧ 0 < w.view.leader
  offered : w.place = 3 → happened .handsOver w.view.worker.pass
  begun : ∀ p, happened .begins p → 0 < p ∧ p ≤ w.view.leader
  handed : ∀ p, happened .handsOver p → p ≤ w.view.leader
  failed : ∀ p, happened .fails p → p ≤ w.view.worker.pass ∧ (0 < w.place → p < w.view.worker.pass)
  outstanding : ∀ q ∈ w.outstanding, happened .handsOver q.pass ∧
    (w.place = 2 ∨ w.place = 3 → q.pass < w.view.worker.pass)
  applied : ∀ p, happened .applies p → happened .handsOver p ∧
    (w.place = 2 ∨ w.place = 3 → p < w.view.worker.pass)
  unled : w.view.leader = 0 → w.view.indicator.busy = .idle
  leading : 0 < w.view.leader → happened .begins w.view.leader ∧ Indicates happened w.view.leader w.view.indicator.busy

variable {happened happened' : Turn → Nat → Prop}

theorem Leads.calm (h : Leads happened w) (hcalm : Calm w w') : Leads happened w' := by
  obtain ⟨hindicator, hleader⟩ : w'.view.indicator = w.view.indicator ∧ w'.view.leader = w.view.leader :=
    Prod.mk.inj hcalm.gauge
  have hplace := hcalm.place
  have hpass := hcalm.pass
  constructor
  case isOpen => exact hindicator ▸ h.isOpen
  case le_pass => rw [hleader, hpass]; exact h.le_pass
  case opening => rw [hleader, hpass]; exact fun hp => h.opening (by omega)
  case led => rw [hleader, hpass]; exact fun hp => h.led (by omega)
  case offered => rw [hpass]; exact fun hp => h.offered (by omega)
  case begun => rw [hleader]; exact h.begun
  case handed => rw [hleader]; exact h.handed
  case failed => rw [hpass]; exact fun p hp => ⟨(h.failed p hp).1, fun hpl => (h.failed p hp).2 (by omega)⟩
  case outstanding =>
    rw [hpass]
    intro q hq
    have hq := h.outstanding q (hcalm.outstanding q hq)
    exact ⟨hq.1, fun hp => hq.2 (by omega)⟩
  case applied => rw [hpass]; exact fun p hp => ⟨(h.applied p hp).1, fun hpl => (h.applied p hp).2 (by omega)⟩
  case unled => rw [hleader, hindicator]; exact h.unled
  case leading => rw [hleader, hindicator]; exact h.leading

section Turning

variable (h : Leads happened w)

include h

theorem Leads.wakes (hplace : w'.place = 1) (hgauge : w'.view.gauge = w.view.gauge)
    (hpass : w'.view.worker.pass = w.view.worker.pass + 1) (hout : ∀ q ∈ w'.outstanding, q ∈ w.outstanding) :
    Leads happened w' := by
  obtain ⟨hindicator, hleader⟩ : w'.view.indicator = w.view.indicator ∧ w'.view.leader = w.view.leader :=
    Prod.mk.inj hgauge
  have hle := h.le_pass
  constructor
  case isOpen => exact hindicator ▸ h.isOpen
  case le_pass | opening | led | offered => omega
  case begun => exact hleader ▸ h.begun
  case handed => exact hleader ▸ h.handed
  case failed =>
    intro p hp
    have hp := (h.failed p hp).1
    omega
  case outstanding => exact fun q hq => ⟨(h.outstanding q (hout q hq)).1, by omega⟩
  case applied => exact fun p hp => ⟨(h.applied p hp).1, by omega⟩
  case unled => exact hleader ▸ hindicator ▸ h.unled
  case leading => exact hleader ▸ hindicator ▸ h.leading

theorem Leads.begins (hbefore : w.place = 1) (hplace : w'.place = 2)
    (hgauge : w'.view.gauge = (w.view.indicator.set .computing, w.view.worker.pass))
    (hpass : w'.view.worker.pass = w.view.worker.pass) (hout : ∀ q ∈ w'.outstanding, q ∈ w.outstanding)
    (hnew : ∀ t p, happened' t p ↔ happened t p ∨ t = .begins ∧ p = w.view.worker.pass) : Leads happened' w' := by
  obtain ⟨hindicator, hleader⟩ : w'.view.indicator = w.view.indicator.set .computing ∧
      w'.view.leader = w.view.worker.pass := Prod.mk.inj hgauge
  have hlt := h.opening hbefore
  have hhanded (p : Nat) (hp : happened' .handsOver p) : p < w.view.worker.pass := by
    have hp : happened .handsOver p := by simpa [hnew] using hp
    exact Nat.lt_of_le_of_lt (h.handed p hp) hlt
  have hfailed (p : Nat) (hp : happened' .fails p) : p < w.view.worker.pass := by
    have hp : happened .fails p := by simpa [hnew] using hp
    exact (h.failed p hp).2 (by omega)
  have happlied (p : Nat) (hp : happened' .applies p) : happened' .handsOver p := by
    have hp : happened .applies p := by simpa [hnew] using hp
    simpa [hnew] using (h.applied p hp).1
  constructor
  case isOpen => exact hindicator ▸ Indicator.isClosed_set _ h.isOpen
  case le_pass | opening | led | offered | unled => omega
  case begun =>
    intro p hp
    rcases (hnew _ p).mp hp with hp | ⟨-, rfl⟩
    · have hp := h.begun p hp
      omega
    · omega
  case handed =>
    intro p hp
    have hp := hhanded p hp
    omega
  case failed =>
    intro p hp
    have hp := hfailed p hp
    omega
  case outstanding =>
    intro q hq
    have hq : happened' .handsOver q.pass := by simpa [hnew] using (h.outstanding q (hout q hq)).1
    exact ⟨hq, fun _ => hpass ▸ hhanded _ hq⟩
  case applied => exact fun p hp => ⟨happlied p hp, fun _ => hpass ▸ hhanded p (happlied p hp)⟩
  case leading =>
    rw [hleader, hindicator]
    refine fun _ => ⟨(hnew _ _).mpr (.inr ⟨rfl, rfl⟩), fun _ _ => Indicator.busy_set _ h.isOpen, fun hp => ?_, ?_⟩
    · exact absurd (hhanded _ hp) (Nat.lt_irrefl _)
    · rintro (hp | hp)
      · exact absurd (hfailed _ hp) (Nat.lt_irrefl _)
      · exact absurd (hhanded _ (happlied _ hp)) (Nat.lt_irrefl _)

theorem Leads.handsOver (hbefore : w.place = 2) (hplace : w'.place = 3)
    (hgauge : w'.view.gauge = (w.view.indicator.set .applying, w.view.leader))
    (hpass : w'.view.worker.pass = w.view.worker.pass) (hout : ∀ q ∈ w'.outstanding, q ∈ w.outstanding)
    (hnew : ∀ t p, happened' t p ↔ happened t p ∨ t = .handsOver ∧ p = w.view.worker.pass) : Leads happened' w' := by
  obtain ⟨hindicator, hleader⟩ : w'.view.indicator = w.view.indicator.set .applying ∧ w'.view.leader = w.view.leader :=
    Prod.mk.inj hgauge
  obtain ⟨hled, hpos⟩ := h.led (by omega)
  have hhere : happened' .handsOver w.view.worker.pass := (hnew _ _).mpr (.inr ⟨rfl, rfl⟩)
  have hfailed (p : Nat) (hp : happened' .fails p) : p < w.view.worker.pass := by
    have hp : happened .fails p := by simpa [hnew] using hp
    exact (h.failed p hp).2 (by omega)
  have happlied (p : Nat) (hp : happened' .applies p) : happened' .handsOver p ∧ p < w.view.worker.pass := by
    have hp := h.applied p (by simpa [hnew] using hp)
    exact ⟨(hnew _ _).mpr (.inl hp.1), hp.2 (.inl hbefore)⟩
  constructor
  case isOpen => exact hindicator ▸ Indicator.isClosed_set _ h.isOpen
  case le_pass | opening | led | unled => omega
  case offered => exact fun _ => hpass ▸ hhere
  case begun =>
    rw [hleader]
    exact fun p hp => h.begun p (by simpa [hnew] using hp)
  case handed =>
    intro p hp
    rcases (hnew _ p).mp hp with hp | ⟨-, rfl⟩
    · have hp := h.handed p hp
      omega
    · omega
  case failed =>
    intro p hp
    have hp := hfailed p hp
    omega
  case outstanding =>
    intro q hq
    have hq := h.outstanding q (hout q hq)
    exact ⟨(hnew _ _).mpr (.inl hq.1), fun _ => hpass ▸ hq.2 (.inl hbefore)⟩
  case applied => exact fun p hp => ⟨(happlied p hp).1, fun _ => hpass ▸ (happlied p hp).2⟩
  case leading =>
    rw [hleader, hindicator, hled]
    intro _
    refine ⟨(hnew _ _).mpr (.inl (hled ▸ (h.leading (by omega)).1)), fun hn => absurd hhere hn,
      fun _ _ _ => Indicator.busy_set _ h.isOpen, ?_⟩
    rintro (hp | hp)
    · exact absurd (hfailed _ hp) (Nat.lt_irrefl _)
    · exact absurd (happlied _ hp).2 (Nat.lt_irrefl _)

theorem Leads.schedules (hbefore : w.place = 3) (hplace : w'.place = 4) (hgauge : w'.view.gauge = w.view.gauge)
    (hpass : w'.view.worker.pass = w.view.worker.pass)
    (hout : ∀ q ∈ w'.outstanding, q ∈ w.outstanding ∨ q.pass = w.view.worker.pass) : Leads happened w' := by
  obtain ⟨hindicator, hleader⟩ : w'.view.indicator = w.view.indicator ∧ w'.view.leader = w.view.leader :=
    Prod.mk.inj hgauge
  have hled := h.led (by omega)
  constructor
  case isOpen => exact hindicator ▸ h.isOpen
  case le_pass | opening | led | offered | unled => omega
  case begun => exact hleader ▸ h.begun
  case handed => exact hleader ▸ h.handed
  case failed =>
    intro p hp
    have hp := h.failed p hp
    omega
  case outstanding =>
    intro q hq
    refine ⟨?_, by omega⟩
    rcases hout q hq with hq | hq
    · exact (h.outstanding q hq).1
    · exact hq ▸ h.offered hbefore
  case applied => exact fun p hp => ⟨(h.applied p hp).1, by omega⟩
  case leading => exact hleader ▸ hindicator ▸ h.leading

theorem Leads.ends {pass : Nat} {t₀ : Turn} (hend : t₀ = .fails ∧ pass = w.view.worker.pass ∧ w'.place = 0 ∨
      t₀ = .applies ∧ happened .handsOver pass ∧ (w.place = 2 ∨ w.place = 3 → pass < w.view.worker.pass) ∧
        w'.place = w.place)
    (hgauge : w'.view.gauge = (w.view.setIndicator pass .idle).gauge)
    (hpass : w'.view.worker.pass = w.view.worker.pass) (hout : ∀ q ∈ w'.outstanding, q ∈ w.outstanding)
    (hnew : ∀ t p, happened' t p ↔ happened t p ∨ t = t₀ ∧ p = pass) : Leads happened' w' := by
  rw [View.gauge_setIndicator] at hgauge
  obtain ⟨hindicator, hleader⟩ : w'.view.indicator = _ ∧ w'.view.leader = w.view.leader := Prod.mk.inj hgauge
  have hplace : w'.place = 0 ∨ w'.place = w.place := hend.imp (·.2.2) (·.2.2.2)
  have hbegins (p : Nat) : happened' .begins p ↔ happened .begins p := by
    obtain ⟨rfl, -⟩ | ⟨rfl, -⟩ := hend <;> simp [hnew]
  have hhands (p : Nat) : happened' .handsOver p ↔ happened .handsOver p := by
    obtain ⟨rfl, -⟩ | ⟨rfl, -⟩ := hend <;> simp [hnew]
  constructor
  case isOpen =>
    rw [hindicator]
    split
    · exact Indicator.isClosed_set _ h.isOpen
    · exact h.isOpen
  case le_pass => rw [hleader, hpass]; exact h.le_pass
  case opening => rw [hleader, hpass]; exact fun hp => h.opening (by omega)
  case led => rw [hleader, hpass]; exact fun hp => h.led (by omega)
  case offered => rw [hpass]; exact fun hp => (hhands _).mpr (h.offered (by omega))
  case begun => rw [hleader]; exact fun p hp => h.begun p ((hbegins p).mp hp)
  case handed => rw [hleader]; exact fun p hp => h.handed p ((hhands p).mp hp)
  case failed =>
    intro p hp
    rw [hpass]
    rcases (hnew _ p).mp hp with hp | ⟨rfl, rfl⟩
    · exact ⟨(h.failed p hp).1, fun hpl => (h.failed p hp).2 (by omega)⟩
    · obtain ⟨-, rfl, hzero⟩ | ⟨heq, -⟩ := hend
      · omega
      · cases heq
  case outstanding =>
    intro q hq
    have hq := h.outstanding q (hout q hq)
    rw [hpass]
    exact ⟨(hhands _).mpr hq.1, fun hp => hq.2 (by omega)⟩
  case applied =>
    intro p hp
    rw [hpass]
    rcases (hnew _ p).mp hp with hp | ⟨rfl, rfl⟩
    · exact ⟨(hhands p).mpr (h.applied p hp).1, fun hpl => (h.applied p hp).2 (by omega)⟩
    · obtain ⟨heq, -⟩ | ⟨-, hhanded, hlt, hsame⟩ := hend
      · cases heq
      · exact ⟨(hhands p).mpr hhanded, fun hp => hlt (by omega)⟩
  case unled =>
    rw [hleader, hindicator]
    intro hzero
    split
    · exact Indicator.busy_set _ h.isOpen
    · exact h.unled hzero
  case leading =>
    rw [hleader, hindicator]
    intro hpos
    obtain ⟨hbegun, hshows⟩ := h.leading hpos
    refine ⟨(hbegins _).mpr hbegun, ?_⟩
    split
    · next heq =>
        have hthis : happened' t₀ w.view.leader := (hnew _ _).mpr (.inr ⟨rfl, heq⟩)
        refine ⟨fun hunhanded hunfailed => ?_, fun _ hunfailed hunapplied => ?_, fun _ => Indicator.busy_set _ h.isOpen⟩
        · obtain ⟨rfl, -⟩ | ⟨-, hhanded, -⟩ := hend
          · exact absurd hthis hunfailed
          · exact absurd ((hhands _).mpr (heq ▸ hhanded)) hunhanded
        · obtain ⟨rfl, -⟩ | ⟨rfl, -⟩ := hend
          · exact absurd hthis hunfailed
          · exact absurd hthis hunapplied
    · next hne =>
        have hsame (t : Turn) : happened' t w.view.leader ↔ happened t w.view.leader := by simp [hnew, hne]
        constructor
        case computing => simpa only [hsame] using hshows.computing
        case applying => simpa only [hsame] using hshows.applying
        case idle => simpa only [hsame] using hshows.idle

end Turning

theorem not_occurs {t : Turn} {pass : Nat} (hturns : ∀ s, w.performs? m = some s → s.turns = false)
    (hcounting : m = .attend → ∀ p, w.errand? ≠ some (.counting p)) : ¬t.occurs pass w m := by
  cases t with
  | begins =>
      rintro ⟨hperforms, -⟩
      cases hturns _ hperforms
  | handsOver =>
      rintro ⟨⟨f, hperforms⟩, -⟩
      cases hturns _ hperforms
  | fails =>
      rintro ⟨hperforms, -⟩
      cases hturns _ hperforms
  | applies =>
      rintro ⟨hattend, p, herrand, -⟩
      exact hcounting hattend p herrand

theorem Leads.same (h : Leads happened w) (hnew : ∀ t p, happened' t p ↔ happened t p) : Leads happened' w := by
  obtain rfl : happened' = happened := funext₂ fun t p => propext (hnew t p)
  exact h

theorem leads_perform (h : Leads happened w) (hphase : w.view.worker.phase = .pass asked s) (hs : s.turns = true)
    (hnew : ∀ t p, happened' t p ↔ happened t p ∨ t.occurs p w (.work visit none)) :
    Leads happened' { w with view := w.view.perform visit asked s } := by
  have hperforms : w.performs? (.work visit none) = some s := by simp only [performs?, hphase]
  have hbefore : w.place = s.place := by rw [place, hphase]; rfl
  cases s with
  | woken =>
      have hwoken : Leads happened { w with view := w.view.perform visit asked .woken } :=
        h.wakes rfl rfl rfl fun q hq => hq
      refine hwoken.same fun t p => ?_
      rw [hnew]
      cases t <;> simp [Turn.occurs, hperforms]
  | beginning =>
      refine h.begins hbefore rfl rfl rfl (fun q hq => hq) fun t p => ?_
      rw [hnew]
      cases t <;> simp [Turn.occurs, hperforms, eq_comm]
  | handing f =>
      have hled : w.view.leader = w.view.worker.pass := (h.led (Nat.le_of_eq hbefore.symm)).1
      have hset : w.view.setIndicator w.view.worker.pass .applying =
          { w.view with indicator := w.view.indicator.set .applying } := if_pos hled
      simp only [View.perform, hset]
      refine h.handsOver hbefore rfl rfl rfl (fun q hq => hq) fun t p => ?_
      rw [hnew]
      cases t <;> simp [Turn.occurs, hperforms, eq_comm]
  | scheduling f =>
      have hoffered : Leads happened { w with view := w.view.perform visit asked (.scheduling f) } := by
        simp only [View.perform]
        split
        · next consumer hconsumer =>
            have hqueue : consumer.queue = w.view.consumer.queue ++ [⟨w.view.worker.pass, f.update⟩] := by
              unfold Consumer.schedule at hconsumer
              split at hconsumer <;> cases hconsumer
              rfl
            refine h.schedules hbefore rfl rfl rfl fun q hq => ?_
            have hq : q ∈ w.tasks ++ consumer.queue := hq
            rw [hqueue, ← List.append_assoc, List.mem_append, List.mem_singleton] at hq
            exact hq.imp_right fun (hq : q = _) => hq ▸ rfl
        · exact h.calm ⟨rfl, rfl, fun q hq => hq, .inl hbefore.symm⟩
      refine hoffered.same fun t p => ?_
      rw [hnew]
      cases t <;> simp [Turn.occurs, hperforms]
  | failing =>
      obtain ⟨i, hi⟩ := View.exists_setIndicator
        { w.view with counts := { w.view.counts with failures := w.view.counts.failures + 1 } } w.view.worker.pass .idle
      have hgauge : (w.view.perform visit asked .failing).gauge =
          (w.view.setIndicator w.view.worker.pass .idle).gauge := by
        rw [View.gauge_setIndicator]
        exact View.gauge_setIndicator _ _ _
      simp only [View.perform, hi] at hgauge ⊢
      refine h.ends (.inl ⟨rfl, rfl, rfl⟩) hgauge rfl (fun q hq => hq) fun t p => ?_
      rw [hnew]
      cases t <;> simp [Turn.occurs, hperforms, eq_comm]
  | _ => cases hs

theorem leads_attend {q : Publication} (h : Leads happened w) (hm : w.step .attend = some w')
    (herrand : w.errand? = some (.counting q))
    (hnew : ∀ t p, happened' t p ↔ happened t p ∨ t.occurs p w .attend) : Leads happened' w' := by
  simp only [step, herrand] at hm
  cases hm
  have hworker := w.view.worker_attend (.counting q)
  have hgauge : (w.view.attend (.counting q)).1.gauge = (w.view.setIndicator q.pass .idle).gauge := by
    rw [View.gauge_setIndicator]
    exact View.gauge_setIndicator _ _ _
  have hq := h.outstanding q (by simp [outstanding, tasks, herrand, Errand.task?])
  refine h.ends (.inr ⟨rfl, hq.1, hq.2, place_of_worker hworker⟩) hgauge (congrArg (·.pass) hworker)
    (fun p hp => outstanding_attend herrand hp) fun t p => ?_
  rw [hnew]
  cases t <;> simp [Turn.occurs, performs?, herrand, eq_comm]

theorem leads_step (h : Leads happened w) (hm : w.step m = some w') (hopen : w.view.isClosed = false)
    (hfreezing : ¬Steps .freezing w m) (hnew : ∀ t p, happened' t p ↔ happened t p ∨ t.occurs p w m) :
    Leads happened' w' := by
  by_cases hturns : ∀ s, w.performs? m = some s → s.turns = false
  · by_cases hcounting : m = .attend → ∀ p, w.errand? ≠ some (.counting p)
    · refine Leads.same (h.calm ?_) fun t p => by simp [hnew, not_occurs hturns hcounting]
      rcases work_or_beside hm with ⟨visit, fault?, v, rfl, hv, rfl⟩ | hother
      · exact calm_work hopen hv hturns
      · by_cases hattend : m = .attend
        · subst hattend
          exact calm_attend hm (hcounting rfl)
        · exact calm_beside hm hother hattend hfreezing
    · push Not at hcounting
      obtain ⟨rfl, q, herrand⟩ := hcounting
      exact leads_attend h hm herrand hnew
  · push Not at hturns
    obtain ⟨s, hperforms, hs⟩ := hturns
    rw [Bool.ne_false_iff] at hs
    rcases work_or_beside hm with ⟨visit, fault?, v, rfl, hv, rfl⟩ | hother
    · obtain ⟨rfl, asked, hphase⟩ := performs?_work hperforms
      have hv : v = w.view.perform visit asked s := by
        simpa [View.work, hphase, eq_comm] using hv
      exact hv ▸ leads_perform h hphase hs hnew
    · cases m with
      | work visit fault? => exact absurd rfl (hother visit fault?)
      | _ => cases hperforms

theorem leads_start {source : Source Unit} {config : Config} {v : View} (hstart : View.start source config = .ok v) :
    Leads (fun t p => Happened ⟨v, [], none, []⟩ (t.occurs p) []) ⟨v, [], none, []⟩ := by
  obtain rfl := View.opened_of_start hstart
  constructor
  case isOpen => rfl
  case unled => exact fun _ => rfl
  case le_pass => exact Nat.le_refl 0
  case opening | led | offered | leading => exact nofun
  case begun | handed | failed | applied => exact fun p hp => absurd hp not_happened_nil
  case outstanding => exact nofun

theorem leads_run {source : Source Unit} {config : Config} {v : View} (hstart : View.start source config = .ok v)
    (hrun : run ⟨v, [], none, []⟩ history = some w) (hopen : w.view.isClosed = false) :
    Leads (fun t p => Happened ⟨v, [], none, []⟩ (t.occurs p) history) w := by
  refine run_induction (motive := fun history w => w.view.isClosed = false →
    Leads (fun t p => Happened ⟨v, [], none, []⟩ (t.occurs p) history) w) hrun (fun _ => leads_start hstart)
    (fun before u m u' hu hm ih hopen => ?_) hopen
  have hbefore := isClosed_step hm hopen
  exact leads_step (ih hbefore) hm hbefore (not_steps_of_open rfl hu hbefore (by simp)) fun t p => happened_concat hu

/-- The indicator follows the newest pass that has begun. That computes until it begins to hand its result over, or an
earlier failure of it is handled; its result is applied from then on, until the owner is done with it or a failure of the
pass is handled. The indicator is idle from then until the next pass begins. A step of the owner moves it only when he is
done with the result of this pass, so no older result does, however late it is applied. -/
theorem indicator_follows_newest {source : Source Unit} {config : Config} {v : View}
    (hstart : View.start source config = .ok v) (hrun : run ⟨v, [], none, []⟩ history = some w)
    (hopen : w.view.isClosed = false) :
    let happened (t : Turn) (p : Nat) : Prop := Happened ⟨v, [], none, []⟩ (t.occurs p) history
    ((∀ p, ¬happened .begins p) → w.view.indicator.busy = .idle) ∧
      ∀ p, happened .begins p → (∀ q, happened .begins q → q ≤ p) →
        (¬happened .handsOver p → ¬happened .fails p → w.view.indicator.busy = .computing) ∧
        (happened .handsOver p → ¬happened .fails p → ¬happened .applies p → w.view.indicator.busy = .applying) ∧
        (happened .fails p ∨ happened .applies p → w.view.indicator.busy = .idle) ∧
        ∀ w', w.step .attend = some w' → ¬Turn.applies.occurs p w .attend → w'.view.indicator = w.view.indicator := by
  intro happened
  have h : Leads happened w := leads_run hstart hrun hopen
  refine ⟨fun hnone => h.unled ?_, fun p hp hnewest => ?_⟩
  · by_contra hpos
    exact hnone _ (h.leading (by omega)).1
  · have hleader : w.view.leader = p := by
      obtain ⟨hpos, hle⟩ := h.begun p hp
      exact Nat.le_antisymm (hnewest _ (h.leading (by omega)).1) hle
    have hshows := hleader ▸ (h.leading (hleader ▸ (h.begun p hp).1)).2
    refine ⟨hshows.computing, hshows.applying, hshows.idle, fun w' hm hdone => ?_⟩
    by_cases hcounting : ∀ q, w.errand? ≠ some (.counting q)
    · exact (Prod.mk.inj (calm_attend hm hcounting).gauge).1
    · push Not at hcounting
      obtain ⟨q, herrand⟩ := hcounting
      have hother : w.view.leader ≠ q.pass := fun heq => hdone ⟨rfl, q, herrand, heq ▸ hleader⟩
      simp only [step, herrand] at hm
      cases hm
      simp only [View.attend, View.setIndicator, if_neg hother]

theorem indicator_follows_newest_beside_older :
    let source : Source Unit := .ofSchema { columns := [⟨"x", .native, some 0⟩] }
    let history : List Move := List.replicate 23 (.work .ascending none) ++ [.recompute false, .proceed 0] ++
      List.replicate 6 (.work .ascending none) ++ [.drain] ++ List.replicate 5 .attend
    ∃ v w w' p, View.start source {} = .ok v ∧ run ⟨v, [], none, []⟩ history = some w ∧ w.view.isClosed = false ∧
      Happened ⟨v, [], none, []⟩ (Turn.begins.occurs 2) history ∧ w.errand? = some (.counting p) ∧ p.pass = 1 ∧
      w.step .attend = some w' ∧ w.view.indicator.busy = .computing ∧ w'.view.indicator = w.view.indicator := by
  intro source history
  let v := View.opened source {}
  have hstart : View.start source {} = .ok v := View.start_of_valid (by decide +kernel)
  let w := (run ⟨v, [], none, []⟩ history).get (by decide +kernel)
  have hrun : run ⟨v, [], none, []⟩ history = some w := (Option.some_get _).symm
  have hopen : w.view.isClosed = false := by decide +kernel
  let w' := (w.step .attend).get (by decide +kernel)
  have hm : w.step .attend = some w' := (Option.some_get _).symm
  have hcounted : w.errand?.any (Errand.counts 1) = true := by decide +kernel
  obtain ⟨e, herrand, hcounts⟩ := (Option.any_eq_true _ _).mp hcounted
  obtain ⟨p, rfl, hp⟩ := Errand.exists_of_counts hcounts
  have h := leads_run hstart hrun hopen
  have hleader : w.view.leader = 2 := by decide +kernel
  have hbegun : Happened ⟨v, [], none, []⟩ (Turn.begins.occurs 2) history :=
    hleader ▸ (h.leading (by rw [hleader]; decide)).1
  have hnewest (q : Nat) (hq : Happened ⟨v, [], none, []⟩ (Turn.begins.occurs q) history) : q ≤ 2 :=
    hleader ▸ (h.begun q hq).2
  have hfollows := (indicator_follows_newest hstart hrun hopen).2 2 hbegun hnewest
  refine ⟨v, w, w', p, hstart, hrun, hopen, hbegun, herrand, hp, hm, by decide +kernel, hfollows.2.2.2 w' hm ?_⟩
  rintro ⟨-, q, hq, hpass⟩
  obtain rfl : p = q := by simpa [herrand] using hq
  omega

end World

end LiveSheet
