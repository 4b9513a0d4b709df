import LiveSheet.Proofs.View.Requests
import LiveSheet.Proofs.View.Silence

namespace LiveSheet

def Errand.isApplied : Errand → Bool
  | .applied _ => true
  | _ => false

def Phase.fails : Phase → Bool
  | .pass _ .failing => true
  | _ => false

/-- A world in which nobody asks for anything but the worker, the owner and the hooks of the updates he applies. -/
structure Lull where
  world : World
  hooked : List Bool

namespace Lull

/-- What may happen in a lull. No pass fails. A hook gives notices and adjusts filters while its update is applied, and
the owner waits for its calls. Whatever else is under way asks for no pass. -/
def allows (l : Lull) (byHook : Bool) : Move → Bool
  | .work _ fault? => !byHook && fault?.isNone && !l.world.view.worker.phase.fails
  | .attend => !byHook && !l.hooked.contains true
  | .change (.fire _) | .adjustFilter => !byHook || l.world.errand?.any Errand.isApplied
  | .proceed i => l.hooked[i]? == some true || (l.world.requests (.proceed i)).isEmpty
  | _ => !byHook

/-- Nobody changes the data; what the worker stores is no change of them. -/
def keeps (l : Lull) (w : World) : Move → Bool
  | .work _ _ => true
  | _ => w.view.live == l.world.view.live

def hookedBy (l : Lull) (byHook : Bool) (w : World) : Move → List Bool
  | .proceed i => if w.calls.length < l.world.calls.length then l.hooked.eraseIdx i else l.hooked
  | _ => l.hooked ++ List.replicate (w.calls.length - l.world.calls.length) byHook

def step (l : Lull) (m : Bool × Move) : Option Lull :=
  if l.allows m.1 m.2 then
    (l.world.step m.2).bind fun w => if l.keeps w m.2 then some ⟨w, l.hookedBy m.1 w m.2⟩ else none
  else none

def run (l : Lull) (moves : List (Bool × Move)) : Option Lull := moves.foldlM step l

end Lull

def Errand.IsOver (v : View) : Errand → Prop
  | .reading => v.seen = v.live
  | .comparing r => r = v.live
  | .requesting _ => False
  | _ => True

theorem Call.isTold_step {v v' : View} {c c' : Call} (h : c.isTold = true) (hkept : v.silence.isKept = true)
    (hstep : c.step v = some (v', some c')) : c'.isTold = true := by
  cases c with
  | telling n =>
      simp only [step, Option.some.injEq, Prod.mk.injEq] at hstep
      obtain ⟨-, hc'⟩ := hstep
      split at hc' <;> cases hc'
      rfl
  | hearing structural =>
      simp [step, hkept] at hstep
  | _ => cases h

namespace World

structure IsOver (w : World) : Prop where
  handed : ∀ p ∈ w.tasks ++ w.view.consumer.queue, p.revisions = w.view.live
  errand : ∀ e ∈ w.errand?, e.IsOver w.view

def IsBusy (w : World) : Prop := w.errand? ≠ none ∨ w.batch ≠ [] ∨ w.view.consumer.queue ≠ []

variable {w w' : World} {m : Move} {r : Revisions}

theorem seen_of_isOver (h : w.IsOver) (hlags : w.Lags) (hbusy : w.IsBusy) : w.view.seen = w.view.live := by
  have hsame {r : Revisions} (hr : r = w.view.live) (hle : r ≤ w.view.seen) : w.view.seen = w.view.live :=
    le_antisymm hlags.view.seen (hr ▸ hle)
  have htask {p : Publication} (hp : p ∈ w.tasks) : w.view.seen = w.view.live :=
    hsame (h.handed p (List.mem_append_left _ hp)) (hlags.tasks p hp)
  rcases hbusy with herrand | hbatch | hqueue
  · obtain ⟨e, he⟩ := Option.ne_none_iff_exists'.mp herrand
    have hover := h.errand e he
    cases htask? : e.task? with
    | some p => exact htask (p := p) (List.mem_append_left _ (by simp [he, htask?]))
    | none =>
        cases e with
        | reading => exact hover
        | comparing r => exact hsame hover (hlags.compared r he)
        | requesting structural => exact hover.elim
        | _ => cases htask?
  · obtain ⟨p, hp⟩ := List.exists_mem_of_ne_nil _ hbatch
    exact htask (List.mem_append_right _ hp)
  · obtain ⟨p, hp⟩ := List.exists_mem_of_ne_nil _ hqueue
    exact hsame (h.handed p (List.mem_append_right _ hp)) (hlags.view.queue p hp)

theorem IsHushed.kept (h : w.IsHushed)
    (hsilent : w.view.worker.phase.isSilent = true ∨ w.errand?.any Errand.isSilent = true) :
    w.view.silence.isKept = true := by
  refine Silence.isKept_of_pos ?_
  rw [h]
  rcases hsilent with hsilent | hsilent <;> rw [hsilent, Bool.toNat_true] <;> omega

theorem isSilent_of_isApplied (h : w.errand?.any Errand.isApplied = true) : w.errand?.any Errand.isSilent = true := by
  obtain ⟨e, he, happlied⟩ := (Option.any_eq_true _ _).mp h
  cases e with
  | applied p => exact (Option.any_eq_true _ _).mpr ⟨_, he, rfl⟩
  | _ => cases happlied

end World

namespace View

def StandsAt (v : View) (r : Revisions) : Phase → Prop
  | .pass _ s =>
      match s with
      | .copied s => s.revisions = r
      | .noted s | .preparing s | .rebuilding s | .computing s _ => s.revisions = r ∧ v.seen = r
      | .computed f | .silencing f | .storing f | .telling f _ | .showing f | .publishing f | .handing f
      | .scheduling f | .serving f | .comparing f => f.revisions = r ∧ v.seen = r
      | .woken | .beginning | .requesting _ | .recovering | .resting | .retrying => False
      | .copying | .refused _ _ | .succeeding | .failing => True
  | _ => True

variable {v v' : View} {visit : VisitOrder} {asked : Bool} {s : Stage} {r : Revisions}

theorem standsAt_perform (hopen : v.isClosed = false) (hlive : v.live = r) (hfails : (Phase.pass asked s).fails = false)
    (h : v.StandsAt r (.pass asked s)) :
    (v.perform visit asked s).StandsAt r (v.perform visit asked s).worker.phase ∧
      ((v.perform visit asked s).seen = v.seen ∨ (v.perform visit asked s).seen = r) ∧
      ((v.perform visit asked s).consumer.queue = v.consumer.queue ∨ v.seen = r) := by
  cases s with
  | copying => exact ⟨hlive, .inl rfl, .inl rfl⟩
  | copied s => exact ⟨⟨h, h⟩, .inr h, .inl rfl⟩
  | noted s | publishing f =>
      simp only [perform, checkOpen_of_open hopen]
      exact ⟨h, .inl rfl, .inl rfl⟩
  | preparing s =>
      simp only [perform]
      split <;> exact ⟨h, .inl rfl, .inl rfl⟩
  | rebuilding s | silencing f | storing f | showing f | serving f | succeeding => exact ⟨h, .inl rfl, .inl rfl⟩
  | computing s rebuilt =>
      exact ⟨⟨(v.worker.sheet.revisions_runPass visit s _).trans h.1, h.2⟩, .inl rfl, .inl rfl⟩
  | computed f =>
      simp only [perform, checkOpen_of_open hopen]
      split <;> exact ⟨h, .inl rfl, .inl rfl⟩
  | telling f notice? =>
      obtain ⟨t, ht⟩ := v.exists_tellAny notice?
      simp only [perform, ht]
      exact ⟨h, .inl rfl, .inl rfl⟩
  | handing f =>
      obtain ⟨i, hi⟩ := v.exists_setIndicator v.worker.pass .applying
      simp only [perform, hi]
      exact ⟨h, .inl rfl, .inl rfl⟩
  | scheduling f =>
      simp only [perform, Consumer.schedule]
      split
      · exact ⟨h, .inl rfl, .inr h.2⟩
      · exact ⟨trivial, .inl rfl, .inl rfl⟩
  | refused f e =>
      simp only [perform, hopen, Bool.false_eq_true, if_false]
      exact ⟨trivial, .inl rfl, .inl rfl⟩
  | comparing f =>
      have hsame : v.live = f.update.table.revisions := hlive.trans h.1.symm
      simp only [perform, hsame, if_true]
      exact ⟨trivial, .inl rfl, .inl rfl⟩
  | failing => cases hfails
  | woken | beginning | requesting structural | recovering | resting | retrying => exact h.elim

theorem standsAt_work (hopen : v.isClosed = false) (hclean : v.tracker.isDirty = false) (hlive : v.live = r)
    (hfails : v.worker.phase.fails = false) (h : v.StandsAt r v.worker.phase) (hv : v.work visit none = some v') :
    v'.StandsAt r v'.worker.phase ∧ (v'.seen = v.seen ∨ v'.seen = r) ∧
      (v'.consumer.queue = v.consumer.queue ∨ v.seen = r) := by
  unfold work at hv
  split at hv
  · cases hv
    exact ⟨trivial, .inl rfl, .inl rfl⟩
  · rw [isClosed] at hopen
    simp [Tracker.take, hopen, hclean] at hv
  · next hphase _ =>
      cases hv
      rw [hphase] at h hfails
      exact standsAt_perform hopen hlive hfails h
  · next hfault => cases hfault
  · cases hv
    exact ⟨trivial, .inl rfl, .inl rfl⟩
  · cases hv
    exact ⟨trivial, .inl rfl, .inl rfl⟩
  · cases hv

theorem StandsAt.of_seen {p : Phase} (h : v.StandsAt r p) (hseen : v'.seen = v.seen) : v'.StandsAt r p := by
  cases p with
  | pass asked s =>
      cases s <;> first | exact h | exact ⟨h.1, hseen.trans h.2⟩
  | _ => trivial

end View

namespace World

variable {w w' : World} {r : Revisions}

theorem requests_work (hhushed : w.IsHushed) (h : w.view.StandsAt r w.view.worker.phase) (visit : VisitOrder) :
    w.requests (.work visit none) = [] := by
  cases hphase : w.view.worker.phase with
  | pass asked s =>
      rw [hphase] at h
      cases s with
      | telling f notice? =>
          have hkept := hhushed.kept (.inl (by rw [hphase]; rfl))
          simp [requests, hphase, Stage.requests, View.heard, hkept]
      | requesting structural | retrying => exact h.elim
      | _ => simp [requests, hphase, Stage.requests]
  | _ => simp [requests, hphase]

end World

namespace Lull

variable {l l' : Lull} {r : Revisions} {m : Move} {byHook : Bool}

structure IsHooking (l : Lull) : Prop where
  length : l.hooked.length = l.world.calls.length
  told : ∀ (i : Nat) (c : Call), l.hooked[i]? = some true → l.world.calls[i]? = some c → c.isTold = true
  applied : true ∈ l.hooked → l.world.errand?.any Errand.isApplied = true

structure Stays (r : Revisions) (l : Lull) : Prop where
  hushed : l.world.IsHushed
  hooking : IsHooking l
  clean : l.world.view.tracker.isDirty = false
  live : l.world.view.live = r
  stands : l.world.view.StandsAt r l.world.view.worker.phase
  seen : l.world.IsBusy → l.world.view.seen = r
  compared : ∀ r', l.world.errand? = some (.comparing r') → r' = r
  quiet : ∀ structural, l.world.errand? ≠ some (.requesting structural)

theorem exists_of_step (h : l.step (byHook, m) = some l') : ∃ w, l.allows byHook m = true ∧ l.world.step m = some w ∧
    l.keeps w m = true ∧ l' = ⟨w, l.hookedBy byHook w m⟩ := by
  simp only [step] at h
  split at h
  · next hallows =>
      obtain ⟨w, hw, h⟩ := Option.bind_eq_some_iff.mp h
      split at h <;> cases h
      exact ⟨w, hallows, hw, ‹_›, rfl⟩
  · cases h

theorem isHooking_begin {w : World} (h : IsHooking l) (hm : l.world.step m = some w) (hproceed : ∀ i, m ≠ .proceed i)
    (hhook : byHook = true → ((∃ n, m = .change (.fire n)) ∨ m = .adjustFilter) ∧
      l.world.errand?.any Errand.isApplied = true)
    (herrand : true ∈ l.hooked ∨ byHook = true → w.errand? = l.world.errand?) :
    IsHooking ⟨w, l.hooked ++ List.replicate (w.calls.length - l.world.calls.length) byHook⟩ := by
  obtain ⟨new, hcalls, htold, -⟩ := World.calls_step hm hproceed
  have hlength : w.calls.length - l.world.calls.length = new.length := by simp [hcalls]
  rw [hlength]
  refine ⟨by simp [hcalls, h.length], fun i c hi hc => ?_, fun htrue => ?_⟩
  · rw [hcalls] at hc
    by_cases hlt : i < l.hooked.length
    · rw [List.getElem?_append_left hlt] at hi
      rw [List.getElem?_append_left (h.length ▸ hlt)] at hc
      exact h.told i c hi hc
    · rw [List.getElem?_append_right (Nat.le_of_not_lt hlt)] at hi
      rw [List.getElem?_append_right (h.length ▸ Nat.le_of_not_lt hlt)] at hc
      exact htold (hhook (List.eq_of_mem_replicate (List.mem_of_getElem? hi)).symm).1 c (List.mem_of_getElem? hc)
  · rcases List.mem_append.mp htrue with htrue | htrue
    · exact herrand (.inl htrue) ▸ h.applied htrue
    · have hbyHook := (List.eq_of_mem_replicate htrue).symm
      exact herrand (.inr hbyHook) ▸ (hhook hbyHook).2

theorem isHooking_proceed {w : World} {i : Nat} (h : IsHooking l) (hhushed : l.world.IsHushed)
    (hm : l.world.step (.proceed i) = some w) : IsHooking ⟨w, l.hookedBy byHook w (.proceed i)⟩ := by
  obtain ⟨c, c?, hc, hstep, hcalls⟩ := World.calls_proceed hm
  obtain ⟨-, -, herrand⟩ := World.core_step hm (by simp) (by simp) (by simp) (by simp)
  have hi := (List.getElem?_eq_some_iff.mp hc).1
  cases c? with
  | none =>
      have hcalls : w.calls = l.world.calls.eraseIdx i := hcalls
      have hlength : w.calls.length < l.world.calls.length := by
        rw [hcalls, List.length_eraseIdx_of_lt hi]
        omega
      simp only [hookedBy, hlength, if_true]
      refine ⟨?_, fun j d hj hd => ?_, fun htrue => ?_⟩
      · rw [hcalls, List.length_eraseIdx_of_lt hi, List.length_eraseIdx_of_lt (h.length ▸ hi), h.length]
      · rw [hcalls, List.getElem?_eraseIdx] at hd
        rw [List.getElem?_eraseIdx] at hj
        by_cases hlt : j < i
        · rw [if_pos hlt] at hj hd
          exact h.told j d hj hd
        · rw [if_neg hlt] at hj hd
          exact h.told (j + 1) d hj hd
      · rw [herrand]
        exact h.applied (List.mem_of_mem_eraseIdx htrue)
  | some c' =>
      have hcalls : w.calls = l.world.calls.set i c' := hcalls
      have hlength : ¬w.calls.length < l.world.calls.length := by simp [hcalls]
      simp only [hookedBy, hlength, if_false]
      refine ⟨by simp [hcalls, h.length], fun j d hj hd => ?_, fun htrue => herrand ▸ h.applied htrue⟩
      rw [hcalls, List.getElem?_set] at hd
      split at hd
      · next heq =>
          subst heq
          obtain rfl := Option.some.inj hd
          have hkept := hhushed.kept (.inr (World.isSilent_of_isApplied (h.applied (List.mem_of_getElem? hj))))
          exact Call.isTold_step (h.told i c hj hc) hkept hstep
      · exact h.told j d hj hd

theorem errand_step {w : World} (hm : l.world.step m = some w) (hattend : m ≠ .attend) :
    w.errand? = l.world.errand? := by
  cases m with
  | attend => exact absurd rfl hattend
  | work visit fault? =>
      obtain ⟨v, -, rfl⟩ := Option.map_eq_some_iff.mp hm
      rfl
  | drain =>
      simp only [World.step] at hm
      split at hm <;> cases hm
      rfl
  | shutDown =>
      cases hm
      rfl
  | _ => exact (World.core_step hm (by simp) (by simp) (by simp) (by simp)).2.2

theorem isHooking_step {w : World} (h : IsHooking l) (hhushed : l.world.IsHushed) (hallows : l.allows byHook m = true)
    (hm : l.world.step m = some w) : IsHooking ⟨w, l.hookedBy byHook w m⟩ := by
  have hother (hnobody : (!byHook) = true) (hattend : m ≠ .attend) (hproceed : ∀ i, m ≠ .proceed i) :
      IsHooking ⟨w, l.hooked ++ List.replicate (w.calls.length - l.world.calls.length) byHook⟩ :=
    isHooking_begin h hm hproceed (fun htrue => by simp [htrue] at hnobody) fun _ => errand_step hm hattend
  cases m with
  | work visit fault? =>
      simp only [allows, Bool.and_eq_true] at hallows
      exact hother hallows.1.1 (by simp) (by simp)
  | attend =>
      simp only [allows, Bool.and_eq_true, Bool.not_eq_true', List.contains_eq_mem, decide_eq_false_iff_not] at hallows
      obtain ⟨hbyHook, hnone⟩ := hallows
      refine isHooking_begin h hm (by simp) (fun htrue => ?_) fun htrue => absurd htrue (not_or.mpr ⟨hnone, ?_⟩)
      · simp [htrue] at hbyHook
      · simp [hbyHook]
  | change p =>
      refine isHooking_begin h hm (by simp) (fun htrue => ?_) fun _ => errand_step hm (by simp)
      subst htrue
      cases p with
      | fire n => exact ⟨.inl ⟨n, rfl⟩, hallows⟩
      | _ => cases hallows
  | adjustFilter =>
      refine isHooking_begin h hm (by simp) (fun htrue => ?_) fun _ => errand_step hm (by simp)
      subst htrue
      exact ⟨.inr rfl, hallows⟩
  | proceed i => exact isHooking_proceed h hhushed hm
  | _ => exact hother hallows (by simp) (by simp)

theorem requests_of_stays (h : Stays r l) (hallows : l.allows byHook m = true) : l.world.requests m = [] := by
  cases m with
  | work visit fault? =>
      simp only [allows, Bool.and_eq_true, Option.isNone_iff_eq_none] at hallows
      obtain ⟨⟨-, rfl⟩, -⟩ := hallows
      exact World.requests_work h.hushed h.stands visit
  | attend =>
      simp only [World.requests]
      split
      · next structural herrand => exact absurd herrand (h.quiet structural)
      · rfl
  | proceed i =>
      simp only [allows, Bool.or_eq_true, beq_iff_eq, List.isEmpty_iff] at hallows
      rcases hallows with hooked | hnone
      · cases hc : l.world.calls[i]? with
        | none => simp [World.requests, hc]
        | some c =>
            have htold := h.hooking.told i c hooked hc
            cases c with
            | telling n => simp [World.requests, hc]
            | hearing structural => simp [World.requests, hc]
            | _ => cases htold
      · exact hnone
  | _ => rfl

theorem clean_step {w : World} (h : Stays r l) (hallows : l.allows byHook m = true) (hm : l.world.step m = some w)
    (hopen : w.view.isClosed = false) : w.view.tracker.isDirty = false := by
  rcases World.adds_or_takes hm hopen with hadds | htakes
  · rw [hadds.dirty, h.clean, requests_of_stays h hallows]
    rfl
  · have hdirty := htakes.dirty
    rw [h.clean] at hdirty
    cases hdirty

theorem stays_beside {w : World} {hooked : List Bool} (h : Stays r l) (hworker : w.view.worker = l.world.view.worker)
    (hseen : w.view.seen = l.world.view.seen) (hlive : w.view.live = r) (hbatch : w.batch = l.world.batch)
    (herrand : w.errand? = l.world.errand?)
    (hqueue : l.world.view.consumer.queue = [] → w.view.consumer.queue = []) (hhushed : w.IsHushed)
    (hclean : w.view.tracker.isDirty = false) (hhooking : IsHooking ⟨w, hooked⟩) : Stays r ⟨w, hooked⟩ := by
  refine ⟨hhushed, hhooking, hclean, hlive, ?_, fun hbusy => hseen.trans (h.seen ?_), ?_, ?_⟩
  · rw [hworker]
    exact h.stands.of_seen hseen
  · rw [World.IsBusy, herrand, hbatch] at hbusy
    exact hbusy.imp_right (Or.imp_right (mt hqueue))
  · rw [herrand]
    exact h.compared
  · rw [herrand]
    exact h.quiet

theorem stays_attend {w : World} {hooked : List Bool} (h : Stays r l) (hopen : l.world.view.isClosed = false)
    (hm : l.world.step .attend = some w) (hhushed : w.IsHushed) (hclean : w.view.tracker.isDirty = false)
    (hhooking : IsHooking ⟨w, hooked⟩) : Stays r ⟨w, hooked⟩ := by
  have hworker := World.worker_step hm (by simp)
  obtain ⟨hseen, -⟩ := World.seen_step hm (by simp)
  have hstands : w.view.StandsAt r w.view.worker.phase := by
    rw [hworker]
    exact h.stands.of_seen hseen
  simp only [World.step] at hm
  split at hm
  · next e herrand =>
      cases hm
      -- an errand that reads the noted revisions and compares the source's with them finds them the same
      have hbusy : l.world.view.seen = r := h.seen (.inl (by rw [herrand]; simp))
      have hlive : (l.world.view.attend e).1.live = r := (l.world.view.seen_attend e).2.trans h.live
      have hnext : (∀ r', (l.world.view.attend e).2 = some (.comparing r') → r' = r) ∧
          ∀ structural, (l.world.view.attend e).2 ≠ some (.requesting structural) := by
        cases e with
        | called p => simp [View.attend, hopen]
        | reading => simp [View.attend, hbusy]
        | comparing r' => simp [View.attend, h.live, h.compared r' herrand]
        | _ => simp [View.attend]
      exact ⟨hhushed, hhooking, hclean, hlive, hstands, fun _ => hseen.trans hbusy, hnext.1, hnext.2⟩
  · next p batch herrand hbatch =>
      cases hm
      exact ⟨hhushed, hhooking, hclean, h.live, hstands, fun _ => h.seen (.inr (.inl (by simp [hbatch]))), by simp,
        by simp⟩
  · cases hm

theorem stays_step (h : Stays r l) (hstep : l.step (byHook, m) = some l') (hopen : l'.world.view.isClosed = false) :
    Stays r l' := by
  obtain ⟨w, hallows, hm, hkeeps, rfl⟩ := exists_of_step hstep
  have hopen' := World.isClosed_step hm hopen
  have hhushed := World.isHushed_step h.hushed hm
  have hclean := clean_step h hallows hm hopen
  have hlive (hwork : ∀ visit fault?, m ≠ .work visit fault?) : w.view.live = r := by
    cases m with
    | work visit fault? => exact absurd rfl (hwork visit fault?)
    | _ => exact (eq_of_beq hkeeps).trans h.live
  have hhooking := isHooking_step h.hooking h.hushed hallows hm
  cases m with
  | work visit fault? =>
      simp only [allows, Bool.and_eq_true, Option.isNone_iff_eq_none, Bool.not_eq_true'] at hallows
      obtain ⟨⟨-, rfl⟩, hfails⟩ := hallows
      obtain ⟨v, hv, rfl⟩ := Option.map_eq_some_iff.mp hm
      obtain ⟨hstands, hseen, hqueue⟩ := View.standsAt_work hopen' h.clean h.live hfails h.stands hv
      refine ⟨hhushed, hhooking, hclean, (View.steady_work hv).1.trans h.live, hstands, fun hbusy => ?_, h.compared,
        h.quiet⟩
      -- the revisions of what was handed over before are noted, and so are those of what the pass hands over now
      have hbefore : l.world.view.seen = r := by
        rcases hqueue with hqueue | hseen
        · exact h.seen (by simpa [World.IsBusy, hqueue] using hbusy)
        · exact hseen
      exact hseen.elim (·.trans hbefore) id
  | drain =>
      simp only [World.step] at hm
      split at hm
      · next hbatch herrand =>
          cases hm
          refine ⟨hhushed, hhooking, hclean, hlive (by simp), h.stands.of_seen rfl, fun hbusy => h.seen ?_, h.compared,
            h.quiet⟩
          simpa [World.IsBusy, Consumer.drain, herrand, hbatch] using hbusy
      · cases hm
  | attend => exact stays_attend h hopen' hm hhushed hclean hhooking
  | shutDown =>
      cases hm
      exact stays_beside h rfl rfl (hlive (by simp)) rfl rfl (fun _ => rfl) hhushed hclean hhooking
  | _ =>
      obtain ⟨hcore, hbatch, herrand⟩ := World.core_step hm (by simp) (by simp) (by simp) (by simp)
      refine stays_beside h (congrArg (·.2.1) hcore) (World.seen_step hm (by simp)).1 (hlive (by simp)) hbatch
        herrand ?_ hhushed hclean hhooking
      rw [show w.view.consumer = l.world.view.consumer from congrArg (·.2.2.2) hcore]
      exact id

theorem stays_run {moves : List (Bool × Move)} (h : Stays r l) (hrun : l.run moves = some l')
    (hopen : l'.world.view.isClosed = false) : Stays r l' := by
  induction moves using List.reverseRecOn generalizing l' with
  | nil =>
      cases hrun
      exact h
  | append_singleton moves m ih =>
      rw [run, List.foldlM_append] at hrun
      obtain ⟨k, hk, hm⟩ := Option.bind_eq_some_iff.mp hrun
      have hm : k.step m = some l' := by simpa using hm
      obtain ⟨w, -, hw, -, rfl⟩ := exists_of_step hm
      exact stays_step (ih hk (World.isClosed_step hw hopen)) hm hopen

end Lull

namespace World

/-- From the copying of the data on, an open view asks for no further pass by itself, in whatever order its worker, the
owner of its consumer and the hooks of what he applies go on. -/
theorem never_wakes_itself {source : Source Unit} {config : Config} {v : View} {history : List Move} {w : World}
    {asked : Bool} {moves : List (Bool × Move)} {l : Lull} (hstart : View.start source config = .ok v)
    (hrun : run ⟨v, [], none, []⟩ history = some w) (hcopying : w.view.worker.phase = .pass asked .copying)
    (hclean : w.view.tracker.isDirty = false) (hearlier : w.IsOver)
    (hmoves : Lull.run ⟨w, w.calls.map fun _ => false⟩ moves = some l) (hopen : l.world.view.isClosed = false) :
    l.world.view.tracker.isDirty = false := by
  have hstays : Lull.Stays w.view.live ⟨w, w.calls.map fun _ => false⟩ := by
    refine ⟨isHushed_run hstart hrun, ⟨by simp, ?_, by simp⟩, hclean, rfl, ?_,
      seen_of_isOver hearlier (lags_run hstart hrun), fun r hr => hearlier.errand _ hr,
      fun structural hs => hearlier.errand _ hs⟩
    · intro i c hi _
      rw [List.getElem?_map] at hi
      obtain ⟨_, -, hfalse⟩ := Option.map_eq_some_iff.mp hi
      cases hfalse
    · simp only [hcopying]
      trivial
  exact (Lull.stays_run hstays hmoves hopen).clean

theorem never_wakes_itself_behind_hook :
    let source : Source Unit := (Source.produce (.ofSchema ⟨[⟨"x", .native, some 0⟩, ⟨"f", .formula, none⟩]⟩)
      (.batch [.pushRow [.number 1], .setFormula 0 (.index 1) "=A1"])).1
    let history : List Move := List.replicate 4 (.work .ascending none)
    let working (steps : Nat) : List (Bool × Move) := List.replicate steps (false, .work .ascending none)
    let attending (steps : Nat) : List (Bool × Move) := List.replicate steps (false, .attend)
    let moves : List (Bool × Move) := working 14 ++ (false, .drain) :: attending 4 ++
      [(true, .change (.fire .layout)), (false, .proceed 0), (true, .adjustFilter)] ++ working 1 ++
      [(false, .proceed 1), (false, .proceed 0)] ++ attending 3 ++ working 4 ++ attending 1
    ∃ v w l, View.start source {} = .ok v ∧ run ⟨v, [], none, []⟩ history = some w ∧
      w.view.worker.phase = .pass true .copying ∧ w.view.tracker.isDirty = false ∧ w.IsOver ∧
      Lull.run ⟨w, w.calls.map fun _ => false⟩ moves = some l ∧ l.world.view.isClosed = false ∧
      l.world.view.counts.publications = 1 ∧ l.world.view.tracker.isDirty = false := by
  intro source history working attending moves
  let v := View.opened source {}
  have hstart : View.start source {} = .ok v := View.start_of_valid (by decide +kernel)
  let w := (run ⟨v, [], none, []⟩ history).get (by decide +kernel)
  have hrun : run ⟨v, [], none, []⟩ history = some w := (Option.some_get _).symm
  have hcopying : w.view.worker.phase = .pass true .copying := rfl
  have hclean : w.view.tracker.isDirty = false := by decide +kernel
  have hearlier : w.IsOver :=
    { handed := by
        rw [List.isEmpty_iff.mp (show (w.tasks ++ w.view.consumer.queue).isEmpty = true by decide +kernel)]
        simp
      errand := by
        rw [Option.isNone_iff_eq_none.mp (show w.errand?.isNone = true by decide +kernel)]
        simp }
  let l := (Lull.run ⟨w, w.calls.map fun _ => false⟩ moves).get (by decide +kernel)
  have hmoves : Lull.run ⟨w, w.calls.map fun _ => false⟩ moves = some l := (Option.some_get _).symm
  have hopen : l.world.view.isClosed = false := by decide +kernel
  exact ⟨v, w, l, hstart, hrun, hcopying, hclean, hearlier, hmoves, hopen, by decide +kernel,
    never_wakes_itself hstart hrun hcopying hclean hearlier hmoves hopen⟩

end World

end LiveSheet
