import LiveSheet.Proofs.Data.Revisions
import LiveSheet.Proofs.View.Standing

/-!
How a view follows its source. `seen` runs behind the revisions of the source; what the worker found and what it
handed over carry it, and where the worker rests without being asked for more, the source is at `seen` too, or
somebody is on his way who will notice that it is not. Silence is kept by the worker and by the errand of the
owner, never by both for one.
-/

namespace LiveSheet

def Finding.revisions (f : Finding) : Revisions := f.update.table.revisions

def Publication.revisions (p : Publication) : Revisions := p.update.table.revisions

namespace Errand

def unapplied : Errand → List Publication
  | .called p | .silencing p | .applying p => [p]
  | _ => []

def isSilent : Errand → Bool
  | .applying _ | .applied _ => true
  | _ => false

end Errand

namespace Call

def isNotice : Call → Bool
  | .telling _ | .hearing _ | .marking _ => true
  | _ => false

def isOrdinary : Call → Bool
  | .telling _ | .hearing _ | .marking _ | .resetting | .closing .marking => true
  | _ => false

end Call

def Phase.isSilent : Phase → Bool
  | .pass _ s => s.isSilent
  | _ => false

namespace World

def publications (w : World) : List Publication :=
  w.errand?.toList.flatMap Errand.unapplied ++ w.batch ++ w.view.consumer.queue

def trail (w : World) : List Revisions :=
  w.view.consumer.latest?.toList.map (·.table.revisions) ++ w.publications.map Publication.revisions

def Shows (w : World) (r : Revisions) : Prop :=
  w.view.latest?.map (·.revisions) = some r ∧ w.trail.getLast? = some r

/-- If the source is ahead of the last snapshot, somebody will notice. -/
def IsWatched (w : World) : Prop :=
  w.view.live = w.view.seen ∨ (∃ c ∈ w.calls, c.isNotice = true) ∨ w.errand?.isSome = true

/-- Either there is a pass to come, or it would find nothing that is not shown or watched. -/
def IsCovered (w : World) : Prop :=
  w.view.tracker.isDirty = true ∨ w.Shows w.view.seen ∧ w.IsWatched

def Reaches (w : World) : Stage → Prop
  | .copied s => w.view.seen ≤ s.revisions ∧ s.revisions ≤ w.view.live
  | .noted s | .preparing s | .rebuilding s | .computing s _ => s.revisions = w.view.seen
  | .computed f | .silencing f | .storing f | .telling f _ | .showing f => f.revisions = w.view.seen
  | .publishing f | .handing f | .scheduling f =>
      f.revisions = w.view.seen ∧ w.view.latest?.map (·.revisions) = some w.view.seen
  | .serving f | .comparing f => f.revisions = w.view.seen ∧ w.Shows w.view.seen
  | .succeeding => w.IsCovered
  | _ => True

def Stands (w : World) : Phase → Prop
  | .pass _ s => w.view.tracker.inFlight = true ∧ w.Reaches s
  | .finishing => w.view.tracker.inFlight = true ∧ w.IsCovered
  | .turning | .waiting => w.IsCovered
  | .stopping | .stopped => False

structure Follows (w : World) (p : Phase) : Prop where
  ordinary : ∀ c ∈ w.calls, c.isOrdinary = true
  listened : w.view.source.listeners ≠ []
  depth : w.view.silence.depth = p.isSilent.toNat + (w.errand?.any Errand.isSilent).toNat
  seen : w.view.seen ≤ w.view.live
  compared : ∀ r, w.errand? = some (.comparing r) → r ≤ w.view.seen
  stands : w.Stands p

variable {w w' : World} {p : Phase}

structure Beside (w w' : World) (p : Phase) : Prop where
  seen : w'.view.seen = w.view.seen
  live : w.view.live ≤ w'.view.live
  latest : w'.view.latest? = w.view.latest?
  trail : w'.trail.getLast? = w.trail.getLast?
  inFlight : w'.view.tracker.inFlight = w.view.tracker.inFlight
  dirty : w.view.tracker.isDirty = true → w'.view.tracker.isDirty = true
  watched : p.isSilent = false → w.IsWatched → w'.view.tracker.isDirty = true ∨ w'.IsWatched

theorem Beside.shows (h : Beside w w' p) {r : Revisions} (hs : w.Shows r) : w'.Shows r := by
  unfold Shows
  rw [h.latest, h.trail]
  exact hs

theorem Beside.isCovered (h : Beside w w' p) (hp : p.isSilent = false) (hc : w.IsCovered) : w'.IsCovered := by
  rcases hc with hdirty | ⟨hshows, hwatched⟩
  · exact .inl (h.dirty hdirty)
  · rcases h.watched hp hwatched with hdirty | hwatched'
    · exact .inl hdirty
    · refine .inr ⟨?_, hwatched'⟩
      rw [h.seen]
      exact h.shows hshows

theorem Beside.reaches {asked : Bool} {s : Stage} (h : Beside w w' (.pass asked s)) (hr : w.Reaches s) :
    w'.Reaches s := by
  cases s with
  | copied s =>
      refine ⟨?_, le_trans hr.2 h.live⟩
      rw [h.seen]
      exact hr.1
  | noted s | preparing s | rebuilding s => exact hr.trans h.seen.symm
  | computing s rebuilt => exact hr.trans h.seen.symm
  | computed f | silencing f | storing f | showing f => exact hr.trans h.seen.symm
  | telling f notice? => exact hr.trans h.seen.symm
  | publishing f | handing f | scheduling f =>
      refine ⟨hr.1.trans h.seen.symm, ?_⟩
      rw [h.latest, h.seen]
      exact hr.2
  | serving f | comparing f =>
      refine ⟨hr.1.trans h.seen.symm, ?_⟩
      rw [h.seen]
      exact h.shows hr.2
  | succeeding => exact h.isCovered rfl hr
  | _ => trivial

theorem Beside.stands (h : Beside w w' p) (hs : w.Stands p) : w'.Stands p := by
  cases p with
  | pass asked s => exact ⟨h.inFlight.trans hs.1, h.reaches hs.2⟩
  | finishing => exact ⟨h.inFlight.trans hs.1, h.isCovered rfl hs.2⟩
  | turning => exact h.isCovered rfl hs
  | waiting => exact h.isCovered rfl hs
  | stopping => exact hs
  | stopped => exact hs

theorem Follows.beside (h : Follows w p) (hb : Beside w w' p) (hcalls : ∀ c ∈ w'.calls, c.isOrdinary = true)
    (hlisteners : w'.view.source.listeners = w.view.source.listeners)
    (hdepth : w'.view.silence.depth = p.isSilent.toNat + (w'.errand?.any Errand.isSilent).toNat)
    (hcompared : ∀ r, w'.errand? = some (.comparing r) → r ≤ w.view.seen) : Follows w' p := by
  refine ⟨hcalls, hlisteners ▸ h.listened, hdepth, ?_, fun r hr => ?_, hb.stands h.stands⟩
  · rw [hb.seen]
    exact le_trans h.seen hb.live
  · rw [hb.seen]
    exact hcompared r hr

theorem follows_drain (h : Follows w p) (hm : w.step .drain = some w') : Follows w' p := by
  simp only [step] at hm
  split at hm
  · next hbatch herrand =>
      cases hm
      refine h.beside ⟨rfl, le_refl _, rfl, ?_, rfl, id, fun _ hw => .inr hw⟩ h.ordinary rfl h.depth h.compared
      simp [trail, publications, hbatch, herrand, Consumer.drain]
  · cases hm

theorem Follows.call (h : Follows w p) {c? : Option Call} (hc : ∀ c ∈ c?, c.isOrdinary = true) :
    Follows (w.call c?) p := by
  refine h.beside ⟨rfl, le_refl _, rfl, rfl, rfl, id, fun _ hw => .inr ?_⟩ (fun c hmem => ?_) rfl h.depth h.compared
  · rcases hw with hsame | ⟨c, hc, hn⟩ | herrand
    · exact .inl hsame
    · exact .inr (.inl ⟨c, List.mem_append_left _ hc, hn⟩)
    · exact .inr (.inr herrand)
  · rcases List.mem_append.mp hmem with hmem | hmem
    · exact h.ordinary c hmem
    · exact hc c (by simpa using hmem)

theorem follows_change (h : Follows w p) (q : Production) (hm : w.step (.change q) = some w') : Follows w' p := by
  cases hm
  have hlive : w.view.live ≤ (w.view.change q).1.live := w.view.source.revisions_produce q
  refine h.beside ⟨rfl, hlive, rfl, rfl, rfl, id, fun _ hw => .inr ?_⟩ (fun c hmem => ?_)
    (w.view.source.listeners_produce q) h.depth h.compared
  · cases hn : (w.view.source.produce q).2.2 with
    | none =>
        have hsame : (w.view.change q).1.live = w.view.live := w.view.source.revisions_of_no_notice q hn
        rcases hw with hw | ⟨c, hc, hcn⟩ | herrand
        · exact .inl (hsame.trans hw)
        · exact .inr (.inl ⟨c, List.mem_append_left _ hc, hcn⟩)
        · exact .inr (.inr herrand)
    | some n =>
        refine .inr (.inl ⟨.telling n, List.mem_append_right _ ?_, rfl⟩)
        change _ ∈ ((w.view.source.produce q).2.2.map Call.telling).toList
        simp [hn]
  · rcases List.mem_append.mp hmem with hmem | hmem
    · exact h.ordinary c hmem
    · simp only [Option.mem_toList, Option.map_eq_some_iff] at hmem
      obtain ⟨n, -, rfl⟩ := hmem
      rfl

theorem follows_attend (h : Follows w p) (hopen : w.view.isClosed = false) (hm : w.step .attend = some w') :
    Follows w' p := by
  simp only [step] at hm
  split at hm
  · next e herrand =>
      have hdepth := h.depth
      have hwatched (t : World) (ht : t.errand?.isSome = true) : p.isSilent = false → w.IsWatched →
          t.view.tracker.isDirty = true ∨ t.IsWatched := fun _ _ => .inr (.inr (.inr ht))
      rw [herrand] at hdepth
      cases hm
      cases e with
      | called q =>
          rw [show w.view.attend (.called q) = (w.view, some (.silencing q)) by simp [View.attend, hopen]]
          refine h.beside ⟨rfl, le_refl _, rfl, ?_, rfl, id, hwatched _ rfl⟩ h.ordinary rfl hdepth (by simp)
          simp [trail, publications, herrand, Errand.unapplied]
      | silencing q =>
          refine h.beside ⟨rfl, le_refl _, rfl, ?_, rfl, id, hwatched _ rfl⟩ h.ordinary rfl ?_ (by simp [View.attend])
          · simp [trail, publications, herrand, Errand.unapplied, View.attend, View.enterSilence]
          · exact congrArg (· + 1) hdepth
      | applying q =>
          refine h.beside ⟨rfl, le_refl _, rfl, ?_, rfl, id, hwatched _ rfl⟩ h.ordinary rfl hdepth
            (by simp [View.attend])
          simp [trail, publications, herrand, Errand.unapplied, View.attend, Consumer.apply, Update.over,
            Publication.revisions, List.getLast?_append, List.getLast?_cons]
      | applied q =>
          refine h.beside ⟨rfl, le_refl _, rfl, ?_, rfl, id, hwatched _ rfl⟩ h.ordinary rfl ?_ (by simp [View.attend])
          · simp [trail, publications, herrand, Errand.unapplied, View.attend, View.leaveSilence]
          · exact congrArg (· - 1) hdepth
      | counting q =>
          obtain ⟨i, hi⟩ := View.exists_setIndicator
            { w.view with counts := { w.view.counts with publications := w.view.counts.publications + 1 } } q.pass .idle
          simp only [View.attend, hi]
          refine h.beside ⟨rfl, le_refl _, rfl, ?_, rfl, id, hwatched _ rfl⟩ h.ordinary rfl hdepth (by simp)
          simp [trail, publications, herrand, Errand.unapplied]
      | reading =>
          refine h.beside ⟨rfl, le_refl _, rfl, ?_, rfl, id, hwatched _ rfl⟩ h.ordinary rfl hdepth ?_
          · simp [trail, publications, herrand, Errand.unapplied, View.attend]
          · intro r hr
            cases hr
            exact le_refl _
      | comparing r =>
          have hr := h.compared r herrand
          by_cases hlive : w.view.live = r
          · rw [show w.view.attend (.comparing r) = (w.view, none) by simp [View.attend, hlive]]
            refine h.beside ⟨rfl, le_refl _, rfl, ?_, rfl, id, fun _ _ => .inr (.inl ?_)⟩ h.ordinary rfl hdepth
              (by simp)
            · simp [trail, publications, herrand, Errand.unapplied]
            · exact le_antisymm (hlive ▸ hr) h.seen
          · rw [show w.view.attend (.comparing r) = (w.view, some (.requesting (w.view.live.layout != r.layout))) by
              simp [View.attend, hlive]]
            refine h.beside ⟨rfl, le_refl _, rfl, ?_, rfl, id, hwatched _ rfl⟩ h.ordinary rfl hdepth (by simp)
            simp [trail, publications, herrand, Errand.unapplied]
      | requesting structural =>
          refine h.beside ⟨rfl, le_refl _, rfl, ?_, rfl, fun _ => rfl, fun _ _ => .inl rfl⟩ h.ordinary rfl hdepth
            (by simp [View.attend])
          simp [trail, publications, herrand, Errand.unapplied, View.attend, View.mark]
  · next q batch herrand hbatch =>
      cases hm
      refine h.beside ⟨rfl, le_refl _, rfl, ?_, rfl, id, fun _ hw => .inr (.inr (.inr rfl))⟩ h.ordinary rfl ?_ ?_
      · simp [trail, publications, herrand, hbatch, Errand.unapplied]
      · simpa [herrand, Errand.isSilent] using h.depth
      · simp
  · cases hm

theorem mem_calls_proceed {i : Nat} {c : Call} {c? : Option Call} (hc : w.calls[i]? = some c) {d : Call}
    (hd : d ∈ w.calls) : d = c ∨ d ∈ w.calls.take i ++ c?.toList ++ w.calls.drop (i + 1) := by
  rw [← List.take_append_drop i w.calls, List.mem_append] at hd
  rcases hd with hd | hd
  · exact .inr (List.mem_append_left _ (List.mem_append_left _ hd))
  · obtain ⟨hi, hget⟩ := List.getElem?_eq_some_iff.mp hc
    rw [List.drop_eq_getElem_cons hi, List.mem_cons, hget] at hd
    rcases hd with rfl | hd
    · exact .inl rfl
    · exact .inr (List.mem_append_right _ hd)

/-- A notice on its way is not lost while the worker rests: it is dropped only in the silence of an errand, and
that will find out by itself. -/
theorem follows_proceed (h : Follows w p) {i : Nat} (hm : w.step (.proceed i) = some w')
    (hserving : w'.view.IsServing) : Follows w' p := by
  simp only [step] at hm
  split at hm
  · cases hm
  · next c hc =>
      obtain ⟨⟨v, c?⟩, hstep, hw⟩ := Option.map_eq_some_iff.mp hm
      have hmem := List.mem_of_getElem? hc
      have hcalls (hc? : ∀ d ∈ c?, d.isOrdinary = true) (d : Call)
          (hd : d ∈ w.calls.take i ++ c?.toList ++ w.calls.drop (i + 1)) : d.isOrdinary = true := by
        rcases List.mem_append.mp hd with hd | hd
        · rcases List.mem_append.mp hd with hd | hd
          · exact h.ordinary d (List.mem_of_mem_take hd)
          · exact hc? d (by simpa using hd)
        · exact h.ordinary d (List.mem_of_mem_drop hd)
      have hwatched (hlive : v.live = w.view.live) (hseen : v.seen = w.view.seen)
          (hnext : c.isNotice = true → ∃ d ∈ c?, d.isNotice = true) (hw : w.IsWatched) :
          World.IsWatched { w with view := v, calls := w.calls.take i ++ c?.toList ++ w.calls.drop (i + 1) } := by
        rcases hw with hsame | ⟨d, hd, hdn⟩ | herrand
        · exact .inl (hlive.trans (hsame.trans hseen.symm))
        · rcases mem_calls_proceed hc hd with rfl | hd
          · obtain ⟨d', hd', hdn'⟩ := hnext hdn
            refine .inr (.inl ⟨d', ?_, hdn'⟩)
            exact List.mem_append_left _ (List.mem_append_right _ (by simpa using hd'))
          · exact .inr (.inl ⟨d, hd, hdn⟩)
        · exact .inr (.inr herrand)
      have hordinary := h.ordinary c hmem
      subst hw
      cases c with
      | telling n =>
          have hlisteners : w.view.source.listeners.isEmpty = false := by
            simpa using h.listened
          simp only [Call.step, hlisteners, Bool.false_eq_true, if_false] at hstep
          cases hstep
          refine h.beside ⟨rfl, le_refl _, rfl, rfl, rfl, id, fun _ hw => .inr ?_⟩ (hcalls ?_) rfl h.depth h.compared
          · exact hwatched rfl rfl (fun _ => ⟨_, rfl, rfl⟩) hw
          · intro d hd
            cases hd
            rfl
      | hearing structural =>
          simp only [Call.step] at hstep
          split at hstep
          · next hkept =>
              cases hstep
              refine h.beside ⟨rfl, le_refl _, rfl, rfl, rfl, id, fun hp _ => .inr ?_⟩ (hcalls (by simp)) rfl h.depth
                h.compared
              have hdepth := h.depth
              rw [hp] at hdepth
              cases herrand : w.errand? with
              | none => simp [Silence.isKept, hdepth, herrand] at hkept
              | some e => exact .inr (.inr (by simp))
          · cases hstep
            refine h.beside ⟨rfl, le_refl _, rfl, rfl, rfl, id, fun _ hw => .inr ?_⟩ (hcalls ?_) rfl h.depth h.compared
            · exact hwatched rfl rfl (fun _ => ⟨_, rfl, rfl⟩) hw
            · intro d hd
              cases hd
              rfl
      | marking structural =>
          cases hstep
          exact h.beside ⟨rfl, le_refl _, rfl, rfl, rfl, fun _ => rfl, fun _ _ => .inl rfl⟩ (hcalls (by simp)) rfl
            h.depth h.compared
      | resetting =>
          cases hstep
          refine h.beside ⟨rfl, le_refl _, rfl, rfl, rfl, id, fun _ hw => .inr ?_⟩ (hcalls ?_) rfl h.depth h.compared
          · exact hwatched rfl rfl (by simp [Call.isNotice]) hw
          · intro d hd
            cases hd
            rfl
      | closing k =>
          cases k with
          | marking =>
              cases hstep
              cases hserving.1
          | _ => cases hordinary
      | _ => cases hordinary

end World

end LiveSheet
