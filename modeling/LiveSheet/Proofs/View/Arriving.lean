import LiveSheet.Proofs.View.Pumping
import LiveSheet.Proofs.View.Silence

namespace LiveSheet

def Publication.Precedes (p q : Publication) : Prop := p.pass < q.pass ∧ p.revisions ≤ q.revisions

def Stage.carried? : Stage → Option Revisions
  | .copied s | .noted s | .preparing s | .rebuilding s | .computing s _ => some s.revisions
  | .computed f | .silencing f | .storing f | .telling f _ | .showing f | .publishing f | .handing f | .scheduling f =>
      some f.revisions
  | _ => none

namespace Phase

def carried? : Phase → Option Revisions
  | .pass _ s => s.carried?
  | _ => none

def isEmptyHanded : Phase → Bool
  | .pass _ .beginning | .pass _ .copying => true
  | p => p.carried?.isSome

end Phase

namespace View

variable {v v' : View} {ps : List Publication} {asked : Bool} {visit : VisitOrder}

structure Hands (v : View) (ps : List Publication) : Prop where
  sorted : ps.Pairwise Publication.Precedes
  passes : ∀ p ∈ ps, p.pass ≤ v.worker.pass
  ahead : v.worker.phase.isEmptyHanded = true → ∀ p ∈ ps, p.pass < v.worker.pass
  revisions : ∀ p ∈ ps, p.revisions ≤ v.seen
  carried : ∀ r, v.worker.phase.carried? = some r → v.seen ≤ r

def Gives (v v' : View) (new : List Publication) : Prop :=
  v'.consumer = v.consumer ∧ new = [] ∨ ∃ p, v.consumer.schedule p = .ok v'.consumer ∧ new = [p]

theorem Hands.idle (h : v.Hands ps) (hpass : v'.worker.pass = v.worker.pass) (hseen : v'.seen = v.seen)
    (hahead : v'.worker.phase.isEmptyHanded = true → v.worker.phase.isEmptyHanded = true)
    (hcarried : ∀ r, v'.worker.phase.carried? = some r → v.worker.phase.carried? = some r) : v'.Hands ps := by
  refine ⟨h.sorted, ?_, ?_, ?_, ?_⟩
  · rw [hpass]
    exact h.passes
  · rw [hpass]
    exact fun hphase => h.ahead (hahead hphase)
  · rw [hseen]
    exact h.revisions
  · rw [hseen]
    exact fun r hr => h.carried r (hcarried r hr)

theorem Hands.still (h : v'.Hands ps) (hconsumer : v'.consumer = v.consumer) :
    ∃ new, v.Gives v' new ∧ v'.Hands (ps ++ new) := ⟨[], .inl ⟨hconsumer, rfl⟩, (List.append_nil ps).symm ▸ h⟩

theorem Hands.rest (h : v.Hands ps) (hpass : v'.worker.pass = v.worker.pass) (hseen : v'.seen = v.seen)
    (hconsumer : v'.consumer = v.consumer) (hempty : v'.worker.phase.isEmptyHanded = false)
    (hfound : v'.worker.phase.carried? = none) : ∃ new, v.Gives v' new ∧ v'.Hands (ps ++ new) :=
  (h.idle hpass hseen (by simp [hempty]) (by simp [hfound])).still hconsumer

theorem Hands.append {p : Publication} (h : v.Hands ps) (hprecedes : ∀ q ∈ ps, q.Precedes p)
    (hpass : v'.worker.pass = v.worker.pass) (hseen : v'.seen = v.seen) (hle : p.pass ≤ v.worker.pass)
    (hrevisions : p.revisions ≤ v.seen) (hempty : v'.worker.phase.isEmptyHanded = false)
    (hfound : v'.worker.phase.carried? = none) : v'.Hands (ps ++ [p]) := by
  refine ⟨?_, fun q hq => ?_, by simp [hempty], fun q hq => ?_, by simp [hfound]⟩
  · refine List.pairwise_append.mpr ⟨h.sorted, List.pairwise_singleton _ _, fun q hq r hr => ?_⟩
    obtain rfl := List.mem_singleton.mp hr
    exact hprecedes q hq
  · rw [hpass]
    rcases List.mem_append.mp hq with hq | hq
    · exact h.passes q hq
    · obtain rfl := List.mem_singleton.mp hq
      exact hle
  · rw [hseen]
    rcases List.mem_append.mp hq with hq | hq
    · exact h.revisions q hq
    · obtain rfl := List.mem_singleton.mp hq
      exact hrevisions

theorem hands_perform {s : Stage} (h : v.Hands ps) (hlags : v.Lags) (hphase : v.worker.phase = .pass asked s) :
    ∃ new, v.Gives (v.perform visit asked s) new ∧ (v.perform visit asked s).Hands (ps ++ new) := by
  have hahead := h.ahead
  have hcarried := h.carried
  have hreads := hlags.reads
  rw [hphase] at hahead hcarried hreads
  have hidle {u : View} (hpass : u.worker.pass = v.worker.pass) (hseen : u.seen = v.seen)
      (hconsumer : u.consumer = v.consumer)
      (hempty : u.worker.phase.isEmptyHanded = true → (Phase.pass asked s).isEmptyHanded = true)
      (hfound : ∀ r, u.worker.phase.carried? = some r → (Phase.pass asked s).carried? = some r) :
      ∃ new, v.Gives u new ∧ u.Hands (ps ++ new) :=
    (h.idle hpass hseen (hphase ▸ hempty) (hphase ▸ hfound)).still hconsumer
  cases s with
  | woken =>
      refine Hands.still ⟨h.sorted, ?_, ?_, h.revisions, (fun _ h => by cases h)⟩ rfl
      · exact fun p hp => Nat.le_succ_of_le (h.passes p hp)
      · exact fun _ p hp => Nat.lt_succ_of_le (h.passes p hp)
  | copying =>
      refine Hands.still ⟨h.sorted, h.passes, fun _ => hahead rfl, h.revisions, ?_⟩ rfl
      rintro r ⟨⟩
      exact hlags.seen
  | copied s =>
      have hle : v.seen ≤ s.revisions := hcarried s.revisions rfl
      refine Hands.still ⟨h.sorted, h.passes, fun _ => hahead rfl, ?_, ?_⟩ rfl
      · exact fun p hp => le_trans (h.revisions p hp) hle
      · rintro r ⟨⟩
        exact le_refl s.revisions
  | computing s rebuilt =>
      refine Hands.still ⟨h.sorted, h.passes, fun _ => hahead rfl, h.revisions, ?_⟩ rfl
      rintro r ⟨⟩
      exact le_of_le_of_eq (hcarried s.revisions rfl) (v.worker.sheet.revisions_runPass visit s _).symm
  | noted s | publishing f =>
      simp only [perform, checkOpen]
      split
      · exact h.rest rfl rfl rfl rfl rfl
      · exact hidle rfl rfl rfl id fun _ => id
  | preparing s =>
      simp only [perform]
      split <;> exact hidle rfl rfl rfl id fun _ => id
  | computed f =>
      simp only [perform, checkOpen]
      split
      · exact h.rest rfl rfl rfl rfl rfl
      · split <;> exact hidle rfl rfl rfl id fun _ => id
  | telling f notice? =>
      obtain ⟨t, ht⟩ := v.exists_tellAny notice?
      simp only [perform, ht]
      exact hidle rfl rfl rfl id fun _ => id
  | handing f =>
      obtain ⟨i, hi⟩ := v.exists_setIndicator v.worker.pass .applying
      simp only [perform, hi]
      exact hidle rfl rfl rfl id fun _ => id
  | scheduling f =>
      simp only [perform]
      split
      · next consumer hconsumer =>
          refine ⟨[⟨v.worker.pass, f.update⟩], .inr ⟨_, hconsumer, rfl⟩, ?_⟩
          refine h.append (fun q hq => ?_) rfl rfl (Nat.le_refl v.worker.pass) hreads rfl rfl
          exact ⟨hahead rfl q hq, le_trans (h.revisions q hq) (hcarried f.revisions rfl)⟩
      · exact h.rest rfl rfl rfl rfl rfl
  | refused f e | comparing f | recovering | resting =>
      simp only [perform]
      split <;> exact h.rest rfl rfl rfl rfl rfl
  | failing =>
      obtain ⟨i, hi⟩ := exists_setIndicator
        { v with counts := { v.counts with failures := v.counts.failures + 1 } } v.worker.pass .idle
      simp only [perform, hi]
      exact h.rest rfl rfl rfl rfl rfl
  | beginning => exact hidle rfl rfl rfl (fun _ => rfl) (fun _ h => by cases h)
  | rebuilding s | silencing f | storing f | showing f => exact hidle rfl rfl rfl id fun _ => id
  | serving f | requesting structural | succeeding | retrying =>
      exact h.rest rfl rfl rfl rfl rfl

theorem hands_disturb {s : Stage} {fault : PassError} (h : v.Hands ps) (hv : v.disturb asked s fault = some v') :
    ∃ new, v.Gives v' new ∧ v'.Hands (ps ++ new) := by
  unfold disturb at hv
  split at hv
  · cases hv
    exact h.rest rfl rfl rfl rfl rfl
  · cases hv
    exact h.rest rfl rfl rfl rfl rfl
  · cases hv
    exact h.rest rfl rfl rfl rfl rfl
  · split at hv <;> cases hv
    split <;> exact h.rest rfl rfl rfl rfl rfl
  · cases hv

theorem hands_work {fault? : Option PassError} (h : v.Hands ps) (hlags : v.Lags)
    (hv : v.work visit fault? = some v') : ∃ new, v.Gives v' new ∧ v'.Hands (ps ++ new) := by
  unfold work at hv
  split at hv
  · cases hv
    exact h.rest rfl rfl rfl rfl rfl
  · split at hv <;> cases hv <;> exact h.rest rfl rfl rfl rfl rfl
  · next hphase =>
      cases hv
      exact hands_perform h hlags hphase
  · exact hands_disturb h hv
  · cases hv
    exact h.rest rfl rfl rfl rfl rfl
  · cases hv
    exact h.rest rfl rfl rfl rfl rfl
  · cases hv

theorem attend_of_not_applying (v : View) {e : Errand} (he : ∀ q, e ≠ .applying q) :
    (v.attend e).1.consumer = v.consumer ∧
      ∀ e', (v.attend e).2 = some e' → e'.unapplied = e.unapplied ∨ e'.unapplied = [] := by
  cases e with
  | called q =>
      refine ⟨rfl, fun e' he' => .inl ?_⟩
      simp only [attend] at he'
      split at he' <;> cases he'
      rfl
  | applying q => exact absurd rfl (he q)
  | counting q =>
      obtain ⟨i, hi⟩ := exists_setIndicator
        { v with counts := { v.counts with publications := v.counts.publications + 1 } } q.pass .idle
      simp only [attend, hi, true_and]
      rintro _ ⟨⟩
      exact .inl rfl
  | comparing r =>
      refine ⟨rfl, fun e' he' => .inl ?_⟩
      simp only [attend] at he'
      split at he' <;> cases he'
      rfl
  | requesting structural => exact ⟨rfl, fun _ h => by cases h⟩
  | _ => exact ⟨rfl, by rintro _ ⟨⟩; exact .inl rfl⟩

end View

namespace World

open Pumping (run_singleton)

variable {w w' : World} {m : Move} {history : List Move} {p : Pumping Publication}

def applying (w : World) (m : Move) : List Publication :=
  match m, w.errand? with
  | .attend, some (.applying q) => [q]
  | _, _ => []

def applied (w : World) : List Move → List Publication
  | [] => []
  | m :: history => w.applying m ++ (w.step m).elim [] fun w' => w'.applied history

theorem applied_append (hrun : w.run history = some w') (m : Move) :
    w.applied (history ++ [m]) = w.applied history ++ w'.applying m := by
  induction history generalizing w with
  | nil =>
      cases hrun
      simp only [List.nil_append, applied]
      cases w'.step m <;> simp
  | cons n history ih =>
      obtain ⟨u, hu, hrun⟩ := Option.bind_eq_some_iff.mp hrun
      simp only [List.cons_append, applied, hu, Option.elim_some, ih hrun, List.append_assoc]

theorem mem_stints {stint : Stint Publication} : stint ∈ p.stints ↔ stint ∈ p.ended ∨ p.running? = some stint := by
  rw [Pumping.stints, List.mem_append, Option.mem_toList]

def Runs : Option Errand → Option (Stint Publication) → Prop
  | none, none => True
  | some e, some stint => e.unapplied = [] ∨ e.unapplied = [stint.task] ∧ stint.updates = []
  | _, _ => False

structure Mirrors (w : World) (p : Pumping Publication) : Prop where
  consumer : p.consumer = w.view.consumer
  batch : p.batch = w.batch
  errand : Runs w.errand? p.running?
  stints : ∀ stint ∈ p.stints, stint.updates = [] ∨ stint.updates = [stint.task.update]

def arrived (p : Pumping Publication) : List Publication :=
  p.stints.flatMap fun stint => stint.updates.map fun _ => stint.task

def Echoes (w w' : World) (m : Move) (p p' : Pumping Publication) : Prop :=
  (∃ moves, p.run moves = some p') ∧ w'.Mirrors p' ∧ arrived p' = arrived p ++ w.applying m

theorem Mirrors.still (h : w.Mirrors p) (hconsumer : w'.view.consumer = w.view.consumer) (hbatch : w'.batch = w.batch)
    (herrand : Runs w'.errand? p.running?) (hnone : w.applying m = []) : Echoes w w' m p p := by
  refine ⟨⟨[], rfl⟩, ⟨?_, ?_, herrand, h.stints⟩, ?_⟩
  · rw [hconsumer, h.consumer]
  · rw [hbatch, h.batch]
  · rw [hnone, List.append_nil]

theorem exists_running {e : Errand} (h : w.Mirrors p) (he : w.errand? = some e) :
    ∃ stint, p.running? = some stint ∧ (e.unapplied = [] ∨ e.unapplied = [stint.task] ∧ stint.updates = []) := by
  have herrand := h.errand
  rw [he] at herrand
  cases hrunning : p.running? with
  | none => simp [hrunning, Runs] at herrand
  | some stint =>
      rw [hrunning] at herrand
      exact ⟨stint, rfl, herrand⟩

theorem not_running (h : w.Mirrors p) (he : w.errand? = none) : p.running? = none := by
  have herrand := h.errand
  rw [he] at herrand
  cases hrunning : p.running? with
  | none => rfl
  | some stint => simp [hrunning, Runs] at herrand

theorem mirrors_applying {q : Publication} (h : w.Mirrors p) (he : w.errand? = some (.applying q))
    (hm : w.step .attend = some w') : ∃ p', Echoes w w' .attend p p' ∧ p'.accepted = p.accepted := by
  obtain ⟨stint, hrunning, hstint⟩ := exists_running h he
  obtain ⟨rfl, hupdates⟩ : q = stint.task ∧ stint.updates = [] := by simpa [Errand.unapplied] using hstint
  simp only [step, he] at hm
  cases hm
  let p' : Pumping Publication := { p with
    consumer := p.consumer.apply stint.task.update
    running? := some { stint with updates := stint.updates ++ [stint.task.update] } }
  have hstep : p.step (.apply stint.task.update) = some p' := by simp [Pumping.step, hrunning, p']
  refine ⟨p', ⟨⟨[_], (run_singleton p _).trans hstep⟩, ⟨?_, h.batch, .inl rfl, ?_⟩, ?_⟩, rfl⟩
  · exact congrArg (·.apply stint.task.update) h.consumer
  · intro t ht
    rcases mem_stints.mp ht with ht | ht
    · exact h.stints t (mem_stints.mpr (.inl ht))
    · cases ht
      exact .inr (by rw [hupdates]; rfl)
  · simp [arrived, Pumping.stints, applying, he, hrunning, hupdates, p']

theorem mirrors_errand {e : Errand} (h : w.Mirrors p) (he : w.errand? = some e) (happlying : ∀ q, e ≠ .applying q)
    (hm : w.step .attend = some w') : ∃ p', Echoes w w' .attend p p' ∧ p'.accepted = p.accepted := by
  obtain ⟨stint, hrunning, hstint⟩ := exists_running h he
  obtain ⟨hconsumer, hrest⟩ := w.view.attend_of_not_applying happlying
  have hnone : w.applying .attend = [] := by
    simp only [applying, he]
    split
    · next heq =>
        cases heq
        exact absurd rfl (happlying _)
    · rfl
  simp only [step, he] at hm
  cases hm
  cases he' : (w.view.attend e).2 with
  | some e' =>
      have hruns : Runs (some e') p.running? := by
        rw [hrunning]
        rcases hrest e' he' with hsame | hempty
        · rw [← hsame] at hstint
          exact hstint
        · exact .inl hempty
      exact ⟨p, h.still hconsumer rfl hruns hnone, rfl⟩
  | none =>
      let p' : Pumping Publication := { p with running? := none, ended := p.ended ++ [stint] }
      have hstep : p.step .finish = some p' := by simp [Pumping.step, hrunning, p']
      have hstints : p'.stints = p.stints := Pumping.stints_finish hrunning
      refine ⟨p', ⟨⟨[_], (run_singleton p _).trans hstep⟩, ⟨h.consumer.trans hconsumer.symm, h.batch, trivial, ?_⟩, ?_⟩,
        rfl⟩
      · rw [hstints]
        exact h.stints
      · rw [arrived, hstints, hnone, List.append_nil]
        rfl

theorem mirrors_attend (h : w.Mirrors p) (hm : w.step .attend = some w') :
    ∃ p', Echoes w w' .attend p p' ∧ p'.accepted = p.accepted := by
  cases he : w.errand? with
  | some e =>
      by_cases happlying : ∃ q, e = .applying q
      · obtain ⟨q, rfl⟩ := happlying
        exact mirrors_applying h he hm
      · exact mirrors_errand h he (fun q hq => happlying ⟨q, hq⟩) hm
  | none =>
      have hrunning := not_running h he
      cases hbatch : w.batch with
      | nil => simp [step, he, hbatch] at hm
      | cons q batch =>
          simp only [step, he, hbatch] at hm
          cases hm
          let p' : Pumping Publication := { p with batch := batch, running? := some { task := q } }
          have hstep : p.step .start = some p' := by simp [Pumping.step, hrunning, h.batch, hbatch, p']
          refine ⟨p', ⟨⟨[_], (run_singleton p _).trans hstep⟩, ⟨h.consumer, rfl, .inr ⟨rfl, rfl⟩, ?_⟩, ?_⟩, rfl⟩
          · intro t ht
            rcases mem_stints.mp ht with ht | ht
            · exact h.stints t (mem_stints.mpr (.inl ht))
            · cases ht
              exact .inl rfl
          · simp [arrived, Pumping.stints, applying, he, hrunning, p']

theorem mirrors_drain (h : w.Mirrors p) (hm : w.step .drain = some w') :
    ∃ p', Echoes w w' .drain p p' ∧ p'.accepted = p.accepted := by
  simp only [step] at hm
  split at hm
  · next hbatch he =>
      cases hm
      have hrunning := not_running h he
      let idle : Pumping Publication :=
        { p with taken? := none, answers := p.answers ++ p.taken?.toList }
      obtain ⟨moves, hidle⟩ : ∃ moves, p.run moves = some idle := by
        cases htaken : p.taken? with
        | none =>
            have hanswers : p.answers ++ p.taken?.toList = p.answers := by simp [htaken]
            refine ⟨[], congrArg some ?_⟩
            simp only [idle, hanswers, ← htaken]
        | some n => exact ⟨[.answer], by simp [run_singleton, Pumping.step, htaken, hrunning, h.batch, hbatch, idle]⟩
      let p' : Pumping Publication := { idle with
        consumer := p.consumer.drain.1
        taken? := some p.consumer.queue.length
        batch := p.consumer.queue }
      have hstep : idle.step .drain = some p' := by simp [Pumping.step, Consumer.drain, idle, p']
      refine ⟨p', ⟨⟨moves ++ [.drain], ?_⟩, ⟨?_, ?_, ?_, h.stints⟩, ?_⟩, rfl⟩
      · rw [Pumping.run_append, hidle, Option.bind_some, run_singleton, hstep]
      · exact congrArg (·.drain.1) h.consumer
      · exact congrArg (·.queue) h.consumer
      · show Runs w.errand? p.running?
        exact h.errand
      · exact (List.append_nil _).symm
  · cases hm

theorem mirrors_step (h : w.Mirrors p) (hhands : w.view.Hands p.accepted) (hlags : w.Lags)
    (hm : w.step m = some w') : ∃ p', Echoes w w' m p p' ∧ w'.view.Hands p'.accepted := by
  have hbeside (hwork : ∀ visit fault?, m ≠ .work visit fault?) : w'.view.Hands p.accepted := by
    have hworker := worker_step hm hwork
    refine hhands.idle (congrArg (·.pass) hworker) (seen_step hm hwork).1 ?_ ?_ <;> rw [hworker]
    · exact id
    · exact fun _ => id
  cases m with
  | work visit fault? =>
      obtain ⟨v, hv, rfl⟩ := Option.map_eq_some_iff.mp hm
      obtain ⟨new, hgives, hnew⟩ := View.hands_work hhands hlags.view hv
      rcases hgives with ⟨hconsumer, rfl⟩ | ⟨q, hschedule, rfl⟩
      · rw [List.append_nil] at hnew
        exact ⟨p, h.still hconsumer rfl h.errand rfl, hnew⟩
      · let p' : Pumping Publication := { p with consumer := v.consumer, accepted := p.accepted ++ [q] }
        have hstep : p.step (.schedule q) = some p' := by simp [Pumping.step, h.consumer, hschedule, p']
        refine ⟨p', ⟨⟨[_], (run_singleton p _).trans hstep⟩, ⟨rfl, h.batch, h.errand, h.stints⟩, ?_⟩, hnew⟩
        exact (List.append_nil _).symm
  | drain =>
      obtain ⟨p', hechoes, haccepted⟩ := mirrors_drain h hm
      exact ⟨p', hechoes, haccepted ▸ hbeside (by simp)⟩
  | attend =>
      obtain ⟨p', hechoes, haccepted⟩ := mirrors_attend h hm
      exact ⟨p', hechoes, haccepted ▸ hbeside (by simp)⟩
  | shutDown =>
      have hhands' := hbeside (by simp)
      cases hm
      let p' : Pumping Publication :=
        { p with consumer := p.consumer.shutDown, dropped := p.dropped ++ p.consumer.queue }
      refine ⟨p', ⟨⟨[.shutDown], run_singleton p _⟩, ⟨?_, h.batch, h.errand, h.stints⟩, ?_⟩, hhands'⟩
      · exact congrArg Consumer.shutDown h.consumer
      · exact (List.append_nil _).symm
  | _ =>
      obtain ⟨hcore, hbatch, herrand⟩ := core_step hm (by simp) (by simp) (by simp) (by simp)
      refine ⟨p, h.still (congrArg (·.2.2.2) hcore) hbatch ?_ rfl, hbeside (by simp)⟩
      rw [herrand]
      exact h.errand

theorem mirrors_run {source : Source Unit} {config : Config} {v : View} (hstart : View.start source config = .ok v)
    (hrun : run ⟨v, [], none, []⟩ history = some w) : ∃ moves p, Pumping.run {} moves = some p ∧ w.Mirrors p ∧
      w.view.Hands p.accepted ∧ arrived p = applied ⟨v, [], none, []⟩ history := by
  have hempty : View.Hands v [] := by
    obtain rfl := View.opened_of_start hstart
    exact ⟨List.Pairwise.nil, by simp, by simp, by simp, by rintro r ⟨⟩⟩
  refine run_induction (motive := fun history w => ∃ moves p, Pumping.run {} moves = some p ∧ w.Mirrors p ∧
    w.view.Hands p.accepted ∧ arrived p = applied ⟨v, [], none, []⟩ history) hrun ?_ ?_
  · obtain rfl := View.opened_of_start hstart
    exact ⟨[], {}, rfl, ⟨rfl, rfl, trivial, by simp [Pumping.stints]⟩, hempty, rfl⟩
  · intro before u m u' hu hm hmirrors
    obtain ⟨moves, p, hmoves, hp, hhands, harrived⟩ := hmirrors
    obtain ⟨p', ⟨⟨more, hmore⟩, hp', harrived'⟩, hhands'⟩ := mirrors_step hp hhands (lags_run hstart hu) hm
    refine ⟨moves ++ more, p', ?_, hp', hhands', ?_⟩
    · rw [Pumping.run_append, hmoves]
      exact hmore
    · rw [harrived', harrived, applied_append hu]

theorem updates_of_mirrors (h : w.Mirrors p) : p.updates = (arrived p).map (·.update) := by
  rw [Pumping.updates, arrived, List.map_flatMap, List.flatMap_def, List.flatMap_def]
  refine congrArg List.flatten (List.map_congr_left fun stint hstint => ?_)
  rcases h.stints stint hstint with hupdates | hupdates <;> rw [hupdates] <;> rfl

theorem arrived_sorted (h : w.Mirrors p) (hline : p.InLine) (hhands : w.view.Hands p.accepted) :
    (arrived p).Pairwise Publication.Precedes := by
  have hbegun : p.begun.Pairwise Publication.Precedes := by
    refine hhands.sorted.sublist ?_
    rw [hline.line, List.append_assoc, List.append_assoc]
    exact List.sublist_append_left _ _
  rw [arrived, List.pairwise_flatMap]
  refine ⟨fun stint hstint => ?_, (List.pairwise_map.mp hbegun).imp fun hprecedes => ?_⟩
  · rcases h.stints stint hstint with hnone | hone
    · rw [hnone]
      exact List.Pairwise.nil
    · rw [hone]
      exact List.pairwise_singleton _ _
  · intro p hp q hq
    obtain ⟨-, -, rfl⟩ := List.mem_map.mp hp
    obtain ⟨-, -, rfl⟩ := List.mem_map.mp hq
    exact hprecedes

theorem updates_in_order {source : Source Unit} {config : Config} {v : View}
    (hstart : View.start source config = .ok v) (hrun : run ⟨v, [], none, []⟩ history = some w) :
    (applied ⟨v, [], none, []⟩ history).Pairwise Publication.Precedes ∧
      w.view.consumer.latest? = Update.merge? ((applied ⟨v, [], none, []⟩ history).map (·.update)) ∧
      ∃ moves p, Pumping.run {} moves = some p ∧ w.Mirrors p := by
  obtain ⟨moves, p, hmoves, hp, hhands, harrived⟩ := mirrors_run hstart hrun
  have hline := Pumping.inLine_run Pumping.inLine_new hmoves
  rw [← harrived]
  refine ⟨arrived_sorted hp hline hhands, ?_, moves, p, hmoves, hp⟩
  rw [← updates_of_mirrors hp, ← hp.consumer]
  exact hline.latest

end World

/-- Accepted tasks begin in their order and once. A pump runs what is queued when it begins, shutting down drops what is
queued and no more, and what is applied adds up. So it is in a consumer that an owner pumps, and in one that a view has:
there updates come in the order of the passes, from ever newer data. -/
theorem tasks_run_in_order :
    (∀ (Task : Type) (moves : List (Pumping.Move Task)) (p : Pumping Task), Pumping.run {} moves = some p →
      p.InLine ∧
        (∀ (meanwhile : List (Pumping.Move Task)) q, .drain ∉ meanwhile →
          p.run (.drain :: meanwhile ++ [.answer]) = some q → p.Pumped q) ∧
        ∀ more q r, p.step .shutDown = some q → q.run more = some r → p.Silenced q r) ∧
      (∀ (Note : Type) (o : Owner Note) (moves : List (Pumping.Move (List (Deed Note))))
        (p : Pumping (List (Deed Note))), Pumping.run {} moves = some p → p.consumer = o.consumer → p.taken? = none →
          ∃ q, p.run (.drain :: o.pumpMoves ++ [.answer]) = some q ∧ p.Pumped q ∧ q.consumer = o.pump.1.consumer ∧
            q.answers = p.answers ++ [o.pump.2]) ∧
      ∀ (source : Source Unit) (config : Config) (v : View) (history : List Move) (w : World),
        View.start source config = .ok v → World.run ⟨v, [], none, []⟩ history = some w →
          (World.applied ⟨v, [], none, []⟩ history).Pairwise Publication.Precedes ∧
            w.view.consumer.latest? = Update.merge? ((World.applied ⟨v, [], none, []⟩ history).map (·.update)) ∧
            ∃ moves p, Pumping.run {} moves = some p ∧ w.Mirrors p := by
  refine ⟨fun Task moves p hrun => ?_, fun Note o moves p hrun hconsumer hidle => ?_, ?_⟩
  · have hline := Pumping.inLine_run Pumping.inLine_new hrun
    exact ⟨hline, fun meanwhile q hdrain hpump => Pumping.pumped hline hpump hdrain, fun _ _ _ => Pumping.silenced⟩
  · have hline := Pumping.inLine_run Pumping.inLine_new hrun
    obtain ⟨q, hq, hqconsumer, hanswers⟩ := Owner.run_pump hconsumer hidle (hline.idle hidle).1
    exact ⟨q, hq, Pumping.pumped hline hq o.drain_not_mem_pumpMoves, hqconsumer, hanswers⟩
  · exact fun _ _ _ _ _ => World.updates_in_order

theorem tasks_run_in_order_behind_shut_down :
    let meanwhile : List (Pumping.Move Nat) := [.start, .schedule 3, .finish, .start, .finish]
    let source : Source Unit := .ofSchema { columns := [⟨"x", .native, some 0⟩] }
    let passing : List Move := List.replicate 22 (.work .ascending none)
    let history : List Move := .work .ascending none :: passing ++ [.drain, .attend, .attend, .attend, .attend,
      .change (.edit (.pushRow [.number 1])), .proceed 0, .proceed 0, .attend, .attend, .attend, .attend, .attend] ++
      passing ++ .drain :: List.replicate 8 .attend
    (∃ p q r s, Pumping.run {} [.schedule 1, .schedule 2] = some p ∧
      p.run (.drain :: meanwhile ++ [.answer]) = some q ∧ q.step .shutDown = some r ∧ r.run [.schedule 4] = some s ∧
      p.Pumped q ∧ q.begun = [1, 2] ∧ q.answers = [2] ∧ q.Silenced r s ∧ s.accepted = [1, 2, 3] ∧ s.dropped = [3]) ∧
    (∃ p q, Pumping.run {} [.schedule [.note 1, .schedule [.note 2]]] = some p ∧ p.Pumped q ∧
      q.consumer = ({ consumer := p.consumer } : Owner Nat).pump.1.consumer) ∧
    ∃ v w, View.start source {} = .ok v ∧ World.run ⟨v, [], none, []⟩ history = some w ∧
      (World.applied ⟨v, [], none, []⟩ history).map (·.pass) = [1, 2] ∧
      (World.applied ⟨v, [], none, []⟩ history).Pairwise Publication.Precedes := by
  intro meanwhile source passing history
  obtain ⟨hpumping, howner, hworld⟩ := tasks_run_in_order
  refine ⟨?_, ?_, ?_⟩
  · let before : List (Pumping.Move Nat) := [.schedule 1, .schedule 2]
    let p := (Pumping.run {} before).get rfl
    let q := (p.run (.drain :: meanwhile ++ [.answer])).get rfl
    let r := (q.step .shutDown).get rfl
    let s := (r.run [.schedule 4]).get rfl
    have hpumped := (hpumping Nat before p rfl).2.1 meanwhile q (by simp [meanwhile]) rfl
    have hsilenced := (hpumping Nat (before ++ (.drain :: meanwhile ++ [.answer])) q rfl).2.2 [.schedule 4] r s rfl rfl
    exact ⟨p, q, r, s, rfl, rfl, rfl, rfl, hpumped, rfl, rfl, hsilenced, rfl, rfl⟩
  · let before : List (Pumping.Move (List (Deed Nat))) := [.schedule [.note 1, .schedule [.note 2]]]
    let p := (Pumping.run {} before).get rfl
    obtain ⟨q, -, hpumped, hconsumer, -⟩ := howner Nat { consumer := p.consumer } before p rfl rfl rfl
    exact ⟨p, q, rfl, hpumped, hconsumer⟩
  · let v := View.opened source {}
    have hstart : View.start source {} = .ok v := View.start_of_valid (by decide +kernel)
    let w := (World.run ⟨v, [], none, []⟩ history).get (by decide +kernel)
    have hrun : World.run ⟨v, [], none, []⟩ history = some w := (Option.some_get _).symm
    exact ⟨v, w, hstart, hrun, by decide +kernel, (hworld source {} v history w hstart hrun).1⟩

end LiveSheet
