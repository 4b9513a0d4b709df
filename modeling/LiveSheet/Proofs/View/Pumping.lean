import LiveSheet.View.Owner
import LiveSheet.View.Pumping

namespace LiveSheet

def Update.merge? (us : List Update) : Option Update :=
  us.getLast?.map fun u =>
    { schema? := (us.filterMap (·.schema?)).getLast?, table := u.table, ranges? := (us.filterMap (·.ranges?)).getLast? }

theorem Update.merge?_append (us : List Update) (u : Update) : merge? (us ++ [u]) = some (u.over (merge? us)) := by
  have hlast {α : Type} (f : Update → Option α) :
      ((us ++ [u]).filterMap f).getLast? = (f u <|> (us.filterMap f).getLast?) := by
    rw [List.filterMap_append, List.getLast?_append]
    cases h : f u <;> simp [h]
  have hnone {α : Type} (f : Update → Option α) (h : us.getLast? = none) : (us.filterMap f).getLast? = none := by
    rw [List.getLast?_eq_none_iff.mp h]
    rfl
  simp only [merge?, hlast, List.getLast?_append, List.getLast?_singleton, Option.some_or, Option.map_some, Update.over]
  cases h : us.getLast? with
  | none => simp [hnone _ h]
  | some v => rfl

namespace Pumping

variable {Task : Type} {p q r : Pumping Task} {m : Move Task} {moves more : List (Move Task)}

theorem run_cons (p : Pumping Task) (m : Move Task) (moves : List (Move Task)) :
    p.run (m :: moves) = (p.step m).bind fun q => q.run moves := rfl

theorem run_append (p : Pumping Task) (moves more : List (Move Task)) :
    p.run (moves ++ more) = (p.run moves).bind fun q => q.run more := List.foldlM_append

theorem run_singleton (p : Pumping Task) (m : Move Task) : p.run [m] = p.step m := by
  rw [run_cons]
  cases p.step m <;> rfl

theorem run_keeps {motive : Pumping Task → Prop} (hrun : p.run moves = some q) (hp : motive p)
    (hstep : ∀ m ∈ moves, ∀ u v, motive u → u.step m = some v → motive v) : motive q := by
  induction moves generalizing p with
  | nil =>
      cases hrun
      exact hp
  | cons m moves ih =>
      obtain ⟨u, hu, hrun⟩ := Option.bind_eq_some_iff.mp hrun
      exact ih hrun (hstep m List.mem_cons_self p u hp hu) fun n hn => hstep n (List.mem_cons_of_mem m hn)

theorem begun_start (hrunning : p.running? = none) (t : Task) (batch : List Task) :
    begun { p with batch := batch, running? := some { task := t } } = p.begun ++ [t] := by
  simp [begun, stints, hrunning]

theorem stints_finish {stint : Stint Task} (hrunning : p.running? = some stint) :
    stints { p with running? := none, ended := p.ended ++ [stint] } = p.stints := by
  simp [stints, hrunning]

theorem begun_apply {stint : Stint Task} (hrunning : p.running? = some stint) (consumer : Consumer Task)
    (us : List Update) : begun { p with consumer := consumer, running? := some { stint with updates := us } } = p.begun := by
  simp [begun, stints, hrunning]

theorem updates_apply {stint : Stint Task} (hrunning : p.running? = some stint) (consumer : Consumer Task) (u : Update) :
    updates { p with consumer := consumer, running? := some { stint with updates := stint.updates ++ [u] } } =
      p.updates ++ [u] := by
  simp [updates, stints, hrunning]

theorem step_of_shutDown (hdown : p.consumer.isShutDown = true) (t : Task) : p.step (.schedule t) = some p := by
  simp [step, Consumer.schedule, hdown]

theorem step_of_served (hserved : p.consumer.isShutDown = false) (t : Task) : p.step (.schedule t) =
    some { p with
      consumer := { p.consumer with queue := p.consumer.queue ++ [t] }
      accepted := p.accepted ++ [t] } := by
  simp [step, Consumer.schedule, hserved]

structure InLine (p : Pumping Task) : Prop where
  line : p.accepted = p.begun ++ p.batch ++ p.dropped ++ p.consumer.queue
  idle : p.taken? = none → p.running? = none ∧ p.batch = []
  shut : p.consumer.isShutDown = true → p.consumer.queue = []
  served : p.consumer.isShutDown = false → p.dropped = []
  applied : p.consumer.applied = p.updates.length
  latest : p.consumer.latest? = Update.merge? p.updates

theorem inLine_new : ({} : Pumping Task).InLine := ⟨rfl, fun _ => ⟨rfl, rfl⟩, by simp, fun _ => rfl, rfl, rfl⟩

theorem inLine_step (h : p.InLine) (hm : p.step m = some q) : q.InLine := by
  obtain ⟨hline, hidle, hshut, hserved, happlied, hlatest⟩ := h
  cases m with
  | schedule t =>
      cases hdown : p.consumer.isShutDown with
      | true =>
          rw [step_of_shutDown hdown] at hm
          cases hm
          exact ⟨hline, hidle, hshut, hserved, happlied, hlatest⟩
      | false =>
          rw [step_of_served hdown] at hm
          cases hm
          refine ⟨?_, hidle, fun h => ?_, hserved, happlied, hlatest⟩
          · rw [hline]
            exact List.append_assoc _ _ _
          · cases hdown.symm.trans h
  | drain =>
      simp only [step] at hm
      split at hm
      · next htaken =>
          cases hm
          obtain ⟨-, hbatch⟩ := hidle htaken
          refine ⟨?_, by simp, fun _ => rfl, hserved, happlied, hlatest⟩
          -- either nothing is dropped yet or nothing is queued any more, so the two change places
          rw [hline, hbatch]
          cases hdown : p.consumer.isShutDown with
          | true => simp [begun, stints, Consumer.drain, hshut hdown]
          | false => simp [begun, stints, Consumer.drain, hserved hdown]
      · cases hm
  | start =>
      simp only [step] at hm
      split at hm
      · next t batch hrunning hbatch =>
          cases hm
          have htaken : p.taken? ≠ none := fun htaken => by simp [(hidle htaken).2] at hbatch
          refine ⟨?_, fun h => absurd h htaken, hshut, hserved, ?_, ?_⟩
          · rw [begun_start hrunning, hline, hbatch]
            simp
          · rw [happlied]
            simp [updates, stints, hrunning]
          · rw [hlatest]
            simp [updates, stints, hrunning]
      · cases hm
  | apply u =>
      obtain ⟨stint, hrunning, rfl⟩ := Option.map_eq_some_iff.mp hm
      have htaken : p.taken? ≠ none := fun htaken => by simp [(hidle htaken).1] at hrunning
      refine ⟨?_, fun h => absurd h htaken, hshut, hserved, ?_, ?_⟩
      · rw [begun_apply hrunning]
        exact hline
      · rw [updates_apply hrunning, List.length_append]
        exact congrArg (· + 1) happlied
      · rw [updates_apply hrunning, Update.merge?_append, ← hlatest]
        rfl
  | finish =>
      obtain ⟨stint, hrunning, rfl⟩ := Option.map_eq_some_iff.mp hm
      have htaken : p.taken? ≠ none := fun htaken => by simp [(hidle htaken).1] at hrunning
      have hstints := stints_finish hrunning
      refine ⟨?_, fun h => absurd h htaken, hshut, hserved, ?_, ?_⟩
      · rw [begun, hstints]
        exact hline
      · rw [updates, hstints]
        exact happlied
      · rw [updates, hstints]
        exact hlatest
  | answer =>
      simp only [step] at hm
      split at hm
      · next n _ hrunning hbatch =>
          cases hm
          exact ⟨hline, fun _ => ⟨hrunning, hbatch⟩, hshut, hserved, happlied, hlatest⟩
      · cases hm
  | shutDown =>
      cases hm
      refine ⟨?_, hidle, fun _ => rfl, by simp [Consumer.shutDown], happlied, hlatest⟩
      rw [hline]
      simp [begun, stints, Consumer.shutDown]

theorem inLine_run (h : p.InLine) (hrun : p.run moves = some q) : q.InLine :=
  run_keeps hrun h fun _ _ _ _ => inLine_step

/-- What happens while no pump begins: the tasks of the batch begin, and tasks that come are queued behind the others,
from where they can only be dropped. -/
structure Meanwhile (p q : Pumping Task) : Prop where
  begun : q.begun ++ q.batch = p.begun ++ p.batch
  queued : ∃ late lost, q.accepted = p.accepted ++ late ∧ q.dropped = p.dropped ++ lost ∧
    p.consumer.queue ++ late = lost ++ q.consumer.queue
  taken : q.taken? = none ∨ q.taken? = p.taken? ∧ q.answers = p.answers

theorem Meanwhile.refl (p : Pumping Task) : p.Meanwhile p :=
  ⟨rfl, ⟨[], [], by simp, by simp, by simp⟩, .inr ⟨rfl, rfl⟩⟩

theorem Meanwhile.trans (h : p.Meanwhile q) (k : q.Meanwhile r) : p.Meanwhile r := by
  obtain ⟨late, lost, haccepted, hdropped, hqueue⟩ := h.queued
  obtain ⟨late', lost', haccepted', hdropped', hqueue'⟩ := k.queued
  refine ⟨k.begun.trans h.begun, ⟨late ++ late', lost ++ lost', ?_, ?_, ?_⟩, ?_⟩
  · rw [haccepted', haccepted, List.append_assoc]
  · rw [hdropped', hdropped, List.append_assoc]
  · rw [← List.append_assoc, hqueue, List.append_assoc, hqueue', List.append_assoc]
  · rcases k.taken with hnone | ⟨htaken, hanswers⟩
    · exact .inl hnone
    · rw [htaken, hanswers]
      exact h.taken

theorem meanwhile_step (hm : p.step m = some q) (hdrain : m ≠ .drain) : p.Meanwhile q := by
  cases m with
  | schedule t =>
      cases hdown : p.consumer.isShutDown with
      | true =>
          rw [step_of_shutDown hdown] at hm
          cases hm
          exact .refl p
      | false =>
          rw [step_of_served hdown] at hm
          cases hm
          exact ⟨rfl, ⟨[t], [], rfl, by simp, by simp⟩, .inr ⟨rfl, rfl⟩⟩
  | drain => exact absurd rfl hdrain
  | start =>
      simp only [step] at hm
      split at hm
      · next t batch hrunning hbatch =>
          cases hm
          refine ⟨?_, ⟨[], [], by simp, by simp, by simp⟩, .inr ⟨rfl, rfl⟩⟩
          rw [begun_start hrunning, hbatch, List.append_assoc]
          rfl
      · cases hm
  | apply u =>
      obtain ⟨stint, hrunning, rfl⟩ := Option.map_eq_some_iff.mp hm
      refine ⟨?_, ⟨[], [], by simp, by simp, by simp [Consumer.apply]⟩, .inr ⟨rfl, rfl⟩⟩
      rw [begun_apply hrunning]
  | finish =>
      obtain ⟨stint, hrunning, rfl⟩ := Option.map_eq_some_iff.mp hm
      refine ⟨?_, ⟨[], [], by simp, by simp, by simp⟩, .inr ⟨rfl, rfl⟩⟩
      rw [Pumping.begun, stints_finish hrunning]
      rfl
  | answer =>
      simp only [step] at hm
      split at hm <;> cases hm
      exact ⟨rfl, ⟨[], [], by simp, by simp, by simp⟩, .inl rfl⟩
  | shutDown =>
      cases hm
      exact ⟨rfl, ⟨[], p.consumer.queue, by simp, rfl, by simp [Consumer.shutDown]⟩, .inr ⟨rfl, rfl⟩⟩

theorem meanwhile_run (hrun : p.run moves = some q) (hdrain : Move.drain ∉ moves) : p.Meanwhile q :=
  run_keeps hrun (.refl p) fun _ hm _ _ h hstep =>
    h.trans (meanwhile_step hstep fun heq => hdrain (heq ▸ hm))

structure Pumped (p q : Pumping Task) : Prop where
  due : p.accepted = p.begun ++ p.dropped ++ p.consumer.queue
  ran : q.begun = p.begun ++ p.consumer.queue
  ended : q.ended.map Stint.task = q.begun
  answers : q.answers = p.answers ++ [p.consumer.queue.length]
  later : ∃ lost, q.dropped = p.dropped ++ lost ∧ q.accepted = p.accepted ++ lost ++ q.consumer.queue

theorem pumped (h : p.InLine) (hrun : p.run (.drain :: moves ++ [.answer]) = some q) (hdrain : Move.drain ∉ moves) :
    p.Pumped q := by
  rw [run_append, Option.bind_eq_some_iff] at hrun
  obtain ⟨v, hrun, hanswer⟩ := hrun
  rw [run_singleton] at hanswer
  obtain ⟨u, hu, hv⟩ := Option.bind_eq_some_iff.mp hrun
  have hmeanwhile := meanwhile_run hv hdrain
  simp only [step] at hu hanswer
  split at hu
  · next htaken =>
      cases hu
      split at hanswer
      · next n htaken' hrunning hbatch' =>
          cases hanswer
          obtain ⟨hidle, hbatch⟩ := h.idle htaken
          obtain ⟨late, lost, haccepted, hdropped, hqueue⟩ := hmeanwhile.queued
          rcases hmeanwhile.taken with hnone | ⟨hcount, hanswers⟩
          · cases htaken'.symm.trans hnone
          obtain rfl : p.consumer.queue.length = n := Option.some_inj.mp (hcount.symm.trans htaken')
          have hbegun := hmeanwhile.begun
          rw [hbatch', List.append_nil] at hbegun
          refine ⟨?_, hbegun, ?_, congrArg (· ++ _) hanswers, lost, hdropped, ?_⟩
          · rw [h.line, hbatch, List.append_nil]
          · simp [Pumping.begun, stints, hrunning]
          · rw [List.append_assoc]
            exact haccepted.trans (congrArg (p.accepted ++ ·) hqueue)
      · cases hanswer
  · cases hu

structure Deaf (p q : Pumping Task) : Prop where
  isShutDown : q.consumer.isShutDown = true
  queue : q.consumer.queue = []
  accepted : q.accepted = p.accepted
  dropped : q.dropped = p.dropped

theorem deaf_step (h : p.Deaf q) (hm : q.step m = some r) : p.Deaf r := by
  obtain ⟨hdown, hqueue, haccepted, hdropped⟩ := h
  cases m with
  | schedule t =>
      rw [step_of_shutDown hdown] at hm
      cases hm
      exact ⟨hdown, hqueue, haccepted, hdropped⟩
  | drain =>
      simp only [step] at hm
      split at hm <;> cases hm
      exact ⟨hdown, rfl, haccepted, hdropped⟩
  | apply u | finish =>
      obtain ⟨stint, -, rfl⟩ := Option.map_eq_some_iff.mp hm
      exact ⟨hdown, hqueue, haccepted, hdropped⟩
  | start | answer =>
      simp only [step] at hm
      split at hm <;> cases hm
      exact ⟨hdown, hqueue, haccepted, hdropped⟩
  | shutDown =>
      cases hm
      refine ⟨rfl, rfl, haccepted, ?_⟩
      rw [← hdropped, hqueue, List.append_nil]

structure Silenced (p q r : Pumping Task) : Prop where
  dropped : q.dropped = p.dropped ++ p.consumer.queue
  kept : q.begun = p.begun ∧ q.batch = p.batch ∧ q.accepted = p.accepted
  deaf : q.Deaf r

theorem silenced (hdown : p.step .shutDown = some q) (hrun : q.run moves = some r) : p.Silenced q r := by
  cases hdown
  refine ⟨rfl, ⟨rfl, rfl, rfl⟩, ?_⟩
  exact run_keeps hrun ⟨rfl, rfl, rfl, rfl⟩ fun _ _ _ _ => deaf_step

end Pumping

namespace Owner

open Pumping (Move run_append run_cons)

variable {Note : Type} {o : Owner Note} {p : Pumping (List (Deed Note))}

def deedMove? : Deed Note → Option (Move (List (Deed Note)))
  | .note _ => none
  | .apply u => some (.apply u)
  | .schedule deeds => some (.schedule deeds)

def taskMoves (deeds : List (Deed Note)) : List (Move (List (Deed Note))) :=
  .start :: (deeds.filterMap deedMove? ++ [.finish])

def pumpMoves (o : Owner Note) : List (Move (List (Deed Note))) := o.consumer.queue.flatMap taskMoves

theorem drain_not_mem_pumpMoves (o : Owner Note) : Move.drain ∉ o.pumpMoves := by
  intro h
  obtain ⟨deeds, -, hmem⟩ := List.mem_flatMap.mp h
  simp only [taskMoves, List.mem_cons, List.mem_append, List.mem_filterMap, reduceCtorEq, false_or, List.not_mem_nil,
    or_false] at hmem
  obtain ⟨d, -, hd⟩ := hmem
  cases d <;> cases hd

structure Keeps (p q : Pumping (List (Deed Note))) (batch : List (List (Deed Note))) : Prop where
  batch : q.batch = batch
  taken : q.taken? = p.taken?
  answers : q.answers = p.answers

theorem step_of_perform (task : List (Deed Note)) (hconsumer : p.consumer = o.consumer) :
    ∃ q, p.step (.schedule task) = some q ∧ q.consumer = (o.perform (.schedule task)).consumer ∧
      q.running? = p.running? ∧ Keeps p q p.batch := by
  simp only [Pumping.step, hconsumer, perform, schedule]
  cases o.consumer.schedule task with
  | ok consumer => exact ⟨_, rfl, rfl, rfl, rfl, rfl, rfl⟩
  | error e => exact ⟨p, rfl, hconsumer, rfl, rfl, rfl, rfl⟩

theorem run_deeds (deeds : List (Deed Note)) (hconsumer : p.consumer = o.consumer) (hrunning : p.running?.isSome) :
    ∃ q, p.run (deeds.filterMap deedMove?) = some q ∧ q.consumer = (o.runTask deeds).consumer ∧ q.running?.isSome ∧
      Keeps p q p.batch := by
  induction deeds generalizing o p with
  | nil => exact ⟨p, rfl, hconsumer, hrunning, rfl, rfl, rfl⟩
  | cons d deeds ih =>
      cases d with
      | note n => exact ih (o := o.perform (.note n)) hconsumer hrunning
      | apply u =>
          obtain ⟨stint, hstint⟩ := Option.isSome_iff_exists.mp hrunning
          let p' : Pumping (List (Deed Note)) := { p with
            consumer := p.consumer.apply u
            running? := some { stint with updates := stint.updates ++ [u] } }
          have hstep : p.step (.apply u) = some p' := by simp [Pumping.step, hstint, p']
          obtain ⟨q, hq, hconsumer', hrunning', hbatch, htaken, hanswers⟩ :=
            ih (o := o.perform (.apply u)) (p := p') (congrArg (·.apply u) hconsumer) rfl
          refine ⟨q, ?_, hconsumer', hrunning', hbatch, htaken, hanswers⟩
          show p.run (.apply u :: _) = _
          rw [run_cons, hstep]
          exact hq
      | schedule task =>
          obtain ⟨p', hstep, hconsumer', hsame⟩ := step_of_perform task hconsumer
          obtain ⟨hsame, hbatch, htaken, hanswers⟩ := hsame
          obtain ⟨q, hq, hqconsumer, hqrunning, hqbatch, hqtaken, hqanswers⟩ := ih hconsumer' (hsame ▸ hrunning)
          refine ⟨q, ?_, hqconsumer, hqrunning, hqbatch.trans hbatch, hqtaken.trans htaken, hqanswers.trans hanswers⟩
          show p.run (.schedule task :: _) = _
          rw [run_cons, hstep]
          exact hq

theorem run_task {deeds : List (Deed Note)} {batch : List (List (Deed Note))} (hconsumer : p.consumer = o.consumer)
    (hrunning : p.running? = none) (hbatch : p.batch = deeds :: batch) :
    ∃ q, p.run (taskMoves deeds) = some q ∧ q.consumer = (o.runTask deeds).consumer ∧ q.running? = none ∧
      Keeps p q batch := by
  let p' : Pumping (List (Deed Note)) := { p with batch := batch, running? := some { task := deeds } }
  have hstart : p.step .start = some p' := by simp [Pumping.step, hrunning, hbatch, p']
  obtain ⟨q, hq, hqconsumer, hqrunning, hqbatch, hqtaken, hqanswers⟩ := run_deeds deeds (p := p') hconsumer rfl
  obtain ⟨stint, hstint⟩ := Option.isSome_iff_exists.mp hqrunning
  let q' : Pumping (List (Deed Note)) := { q with running? := none, ended := q.ended ++ [stint] }
  have hfinish : q.step .finish = some q' := by simp [Pumping.step, hstint, q']
  refine ⟨q', ?_, hqconsumer, rfl, hqbatch, hqtaken, hqanswers⟩
  rw [taskMoves, run_cons, hstart, Option.bind_some, run_append, hq, Option.bind_some, Pumping.run_singleton, hfinish]

theorem run_batch {batch : List (List (Deed Note))} (hconsumer : p.consumer = o.consumer)
    (hrunning : p.running? = none) (hbatch : p.batch = batch) :
    ∃ q, p.run (batch.flatMap taskMoves) = some q ∧ q.consumer = (batch.foldl runTask o).consumer ∧
      q.running? = none ∧ Keeps p q [] := by
  induction batch generalizing o p with
  | nil => exact ⟨p, rfl, hconsumer, hrunning, hbatch, rfl, rfl⟩
  | cons deeds batch ih =>
      obtain ⟨u, hu, huconsumer, hurunning, hubatch, hutaken, huanswers⟩ := run_task hconsumer hrunning hbatch
      obtain ⟨q, hq, hqconsumer, hqrunning, hqbatch, hqtaken, hqanswers⟩ := ih huconsumer hurunning hubatch
      refine ⟨q, ?_, hqconsumer, hqrunning, hqbatch, hqtaken.trans hutaken, hqanswers.trans huanswers⟩
      rw [List.flatMap_cons, run_append, hu]
      exact hq

theorem run_pump (hconsumer : p.consumer = o.consumer) (hidle : p.taken? = none) (hrunning : p.running? = none) :
    ∃ q, p.run (.drain :: o.pumpMoves ++ [.answer]) = some q ∧ q.consumer = o.pump.1.consumer ∧
      q.answers = p.answers ++ [o.pump.2] := by
  let p' : Pumping (List (Deed Note)) := { p with
    consumer := { p.consumer with queue := [] }
    taken? := some p.consumer.queue.length
    batch := p.consumer.queue }
  have hdrain : p.step .drain = some p' := by simp [Pumping.step, hidle, Consumer.drain, p']
  have hstart : p'.consumer = ({ o with consumer := o.consumer.drain.1 } : Owner Note).consumer := by
    simp [p', hconsumer, Consumer.drain]
  obtain ⟨q, hq, hqconsumer, hqrunning, hqbatch, hqtaken, hqanswers⟩ := run_batch (p := p') hstart hrunning rfl
  let q' : Pumping (List (Deed Note)) :=
    { q with taken? := none, answers := q.answers ++ [p.consumer.queue.length] }
  have hanswer : q.step .answer = some q' := by simp [Pumping.step, hqrunning, hqbatch, hqtaken, p', q']
  refine ⟨q', ?_, ?_, ?_⟩
  · rw [run_append, run_cons, hdrain, Option.bind_some, pumpMoves, ← hconsumer, hq, Option.bind_some,
      Pumping.run_singleton, hanswer]
  · show q.consumer = _
    rw [hqconsumer, pump]
    simp [p', hconsumer, Consumer.drain]
  · show q.answers ++ _ = _
    rw [hqanswers, hconsumer]
    rfl

end Owner

end LiveSheet
