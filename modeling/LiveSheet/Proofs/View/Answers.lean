import LiveSheet.Proofs.View.Requests

namespace LiveSheet

namespace World

variable {start w w' : World} {history : List Move} {m : Move}

/-- The history ends with a request. Opening a view makes the first one. -/
def Asks (start : World) (history : List Move) (structural : Bool) : Prop :=
  history = [] ∧ structural = true ∨
    ∃ before m u, history = before ++ [m] ∧ start.run before = some u ∧ structural ∈ u.requests m

def AsksWithin (start : World) (since history : List Move) (structural : Bool) : Prop :=
  ∃ made, since <+: made ∧ made <+: history ∧ Asks start made structural

def Takes (start : World) (history : List Move) (asked : Bool) : Prop :=
  ∃ before m u w, history = before ++ [m] ∧ start.run before = some u ∧ u.view.worker.phase = .waiting ∧
    start.run history = some w ∧ w.view.worker.phase = .pass asked .woken

def Quiet (start : World) (since history : List Move) : Prop :=
  ∀ between asked, since <+: between → between ≠ since → between <+: history → ¬Takes start between asked

def TakesNext (start : World) (since history : List Move) (asked : Bool) : Prop :=
  ∃ before m, history = before ++ [m] ∧ since <+: before ∧ Quiet start since before ∧ Takes start history asked

inductive Serves (start : World) (taken : List Move) (asked : Bool) : List Move → Prop
  | begun (h : Takes start taken asked) : Serves start taken asked taken
  | since {history : List Move} {m : Move} {w : World} (h : Serves start taken asked history)
      (hrun : start.run (history ++ [m]) = some w) (hphase : w.view.worker.phase.asked? = some asked) :
      Serves start taken asked (history ++ [m])

/-- The pass that takes at the end of `taken` has made the step of this stage: it has succeeded with it, or failed and
asked for itself again. -/
def Passes (start : World) (taken : List Move) (asked : Bool) (s : Stage) (history : List Move) : Prop :=
  ∃ before visit u, Serves start taken asked before ∧ start.run before = some u ∧
    u.view.worker.phase = .pass asked s ∧ before ++ [.work visit none] <+: history

/-- The pass that takes at the end of `taken` takes the request made at the end of `made`: no pass took it before, or
the last one that did has failed and asked for itself again. -/
inductive Answers (start : World) (made : List Move) : List Move → Bool → Prop
  | first {taken : List Move} {asked : Bool} (h : TakesNext start made taken asked) : Answers start made taken asked
  | again {taken next : List Move} {asked asked' : Bool} (h : Answers start made taken asked)
      (hfailed : Passes start taken asked .retrying next) (hnext : TakesNext start taken next asked') :
      Answers start made next asked'

variable {made next : List Move} {asked asked' structural : Bool} {s : Stage}

theorem Quiet.refl (start : World) (since : List Move) : Quiet start since since :=
  fun _ _ hsince hne hbetween => absurd (hbetween.eq_of_length_le hsince.length_le) hne

theorem Quiet.concat {since : List Move} (h : Quiet start since history)
    (hm : ∀ asked, ¬Takes start (history ++ [m]) asked) : Quiet start since (history ++ [m]) := by
  intro between asked hsince hne hbetween
  rcases List.prefix_concat_iff.mp hbetween with rfl | hbetween
  · exact hm asked
  · exact h between asked hsince hne hbetween

theorem Quiet.of_concat {since : List Move} (h : Quiet start since (history ++ [m])) : Quiet start since history :=
  fun between asked hsince hne hbetween =>
    h between asked hsince hne (hbetween.trans (List.prefix_append history [m]))

theorem Serves.isPrefix (h : Serves start taken asked history) : taken <+: history := by
  induction h with
  | begun h => exact List.prefix_refl _
  | @since before m _ _ _ _ ih => exact ih.trans (List.prefix_append before [m])

theorem Serves.phase (h : Serves start taken asked history) (hrun : start.run history = some w) :
    w.view.worker.phase.asked? = some asked := by
  cases h with
  | begun h =>
      obtain ⟨_, _, _, w', _, _, _, hrun', hphase⟩ := h
      obtain rfl := Option.some.inj (hrun.symm.trans hrun')
      rw [hphase]
      rfl
  | since _ hrun' hphase =>
      obtain rfl := Option.some.inj (hrun.symm.trans hrun')
      exact hphase

theorem Passes.isPrefix (h : Passes start taken asked s history) : taken <+: history := by
  obtain ⟨before, visit, _, hserves, _, _, hbefore⟩ := h
  exact hserves.isPrefix.trans ((List.prefix_append before _).trans hbefore)

theorem Passes.longer (h : Passes start taken asked s history) : Passes start taken asked s (history ++ [m]) := by
  obtain ⟨before, visit, u, hserves, hu, hphase, hbefore⟩ := h
  exact ⟨before, visit, u, hserves, hu, hphase, hbefore.trans (List.prefix_append history [m])⟩

theorem Passes.asksWithin (h : Passes start taken asked .retrying history) : AsksWithin start taken history asked := by
  obtain ⟨before, visit, u, hserves, hu, hphase, hbefore⟩ := h
  refine ⟨_, hserves.isPrefix.trans (List.prefix_append before _), hbefore, .inr ⟨before, _, u, rfl, hu, ?_⟩⟩
  simp [requests, hphase, Stage.requests]

theorem takes_concat (hrun : start.run history = some w) (hm : w.step m = some w')
    (h : Takes start (history ++ [m]) asked) :
    w.view.worker.phase = .waiting ∧ w'.view.worker.phase = .pass asked .woken := by
  obtain ⟨before, m', u, u', heq, hu, hwaits, hu', hphase⟩ := h
  obtain ⟨rfl, -⟩ := List.append_singleton_inj.mp heq
  obtain rfl := Option.some.inj (hrun.symm.trans hu)
  obtain rfl := Option.some.inj ((run_append hrun hm).symm.trans hu')
  exact ⟨hwaits, hphase⟩

theorem asks_concat (hrun : start.run history = some w) :
    Asks start (history ++ [m]) structural ↔ structural ∈ w.requests m := by
  refine ⟨?_, fun h => .inr ⟨history, m, w, rfl, hrun, h⟩⟩
  rintro (⟨hnil, -⟩ | ⟨before, m', u, heq, hu, h⟩)
  · simp at hnil
  · obtain ⟨rfl, rfl⟩ := List.append_singleton_inj.mp heq
    obtain rfl := Option.some.inj (hrun.symm.trans hu)
    exact h

theorem Adds.not_takes (h : Adds w w' m) (hrun : start.run history = some w) (hm : w.step m = some w') (asked : Bool) :
    ¬Takes start (history ++ [m]) asked := by
  intro htakes
  obtain ⟨hwaits, hphase⟩ := takes_concat hrun hm htakes
  have hnone : w'.view.worker.phase.asked? = none := by
    rcases h.asked with ⟨hsame, -⟩ | ⟨hnone, -⟩
    · rw [hsame, hwaits]
      rfl
    · exact hnone
  rw [hphase] at hnone
  cases hnone

theorem TakesAll.takes (h : TakesAll w w' m) (hrun : start.run history = some w) (hm : w.step m = some w') :
    Takes start (history ++ [m]) w.view.tracker.isStructural :=
  ⟨history, m, w, w', rfl, hrun, h.waits, run_append hrun hm, h.begins⟩

theorem TakesAll.requests (h : TakesAll w w' m) : w.requests m = [] := by
  obtain ⟨visit, rfl⟩ := h.work
  simp [World.requests, h.waits]

theorem serves_quiet (h : Serves start taken asked history) : Quiet start taken history := by
  induction h with
  | begun h => exact .refl start taken
  | @since before m w' h hrun hphase ih =>
      obtain ⟨w, hw, hm⟩ := Option.bind_eq_some_iff.mp ((run_concat start before m).symm.trans hrun)
      refine ih.concat fun asked' htakes => ?_
      have hnone : some asked = none := by
        rw [← h.phase hw, (takes_concat hw hm htakes).1]
        rfl
      cases hnone

theorem serves_adds (hrun : start.run history = some w) (hm : w.step m = some w') (hadds : Adds w w' m)
    (h : Serves start taken asked history) : Serves start taken asked (history ++ [m]) ∨
      Passes start taken asked .succeeding (history ++ [m]) ∨
      Passes start taken asked .retrying (history ++ [m]) ∧ w.requests m = [asked] := by
  have hasked := h.phase hrun
  rcases hadds.asked with ⟨hsame, -⟩ | ⟨-, hnone | ⟨asked', visit, s, hphase, rfl, hs⟩⟩
  · exact .inl (h.since (run_append hrun hm) (hsame.trans hasked))
  · rw [hnone] at hasked
    cases hasked
  · rw [hphase] at hasked
    obtain rfl := Option.some.inj hasked
    have hpasses : Passes start taken asked' s (history ++ [.work visit none]) :=
      ⟨history, visit, w, h, hrun, hphase, List.prefix_refl _⟩
    rcases hs with rfl | rfl
    · exact .inr (.inl hpasses)
    · exact .inr (.inr ⟨hpasses, by simp [requests, hphase, Stage.requests]⟩)

structure Waits (start : World) (history : List Move) (w : World) (made : List Move) (structural : Bool) : Prop where
  untaken : Quiet start made history ∨ ∃ taken asked, Answers start made taken asked ∧
    Passes start taken asked .retrying history ∧ Quiet start taken history
  dirty : w.view.tracker.isDirty = true
  structural : structural = true → w.view.tracker.isStructural = true

/-- The request is held by the tracker, by the pass under way, or by none as a pass has answered it. -/
def Accounted (start : World) (history : List Move) (w : World) (made : List Move) (structural : Bool) : Prop :=
  Waits start history w made structural ∨
    ∃ taken asked, Answers start made taken asked ∧ (structural = true → asked = true) ∧
      (Serves start taken asked history ∨ Passes start taken asked .succeeding history)

theorem accounted_made (hrun : start.run history = some w) (hm : w.step m = some w')
    (hopen : w'.view.isClosed = false) (hasks : Asks start (history ++ [m]) structural) :
    Accounted start (history ++ [m]) w' (history ++ [m]) structural := by
  have hmem := (asks_concat hrun).mp hasks
  rcases adds_or_takes hm hopen with hadds | htakes
  · refine .inl ⟨.inl (.refl start _), ?_, fun hs => ?_⟩
    · rw [hadds.dirty]
      simp [List.ne_nil_of_mem hmem]
    · rw [hadds.structural, Bool.or_eq_true, List.any_eq_true]
      exact .inr ⟨structural, hmem, hs⟩
  · rw [htakes.requests] at hmem
    cases hmem

theorem accounted_step (hrun : start.run history = some w) (hm : w.step m = some w')
    (hopen : w'.view.isClosed = false) (hmade : made <+: history) (h : Accounted start history w made structural) :
    Accounted start (history ++ [m]) w' made structural := by
  rcases h with hwaits | ⟨taken, asked, hanswers, hs, hserves | hpasses⟩
  case inr.inr => exact .inr ⟨taken, asked, hanswers, hs, .inr hpasses.longer⟩
  all_goals rcases adds_or_takes hm hopen with hadds | htakes
  case inl.inl =>
    -- nothing was taken: the tracker still holds the request
    refine .inl ⟨?_, ?_, fun hs => ?_⟩
    · rcases hwaits.untaken with hquiet | ⟨taken, asked, hanswers, hpasses, hquiet⟩
      · exact .inl (hquiet.concat (hadds.not_takes hrun hm))
      · exact .inr ⟨taken, asked, hanswers, hpasses.longer, hquiet.concat (hadds.not_takes hrun hm)⟩
    · rw [hadds.dirty, hwaits.dirty, Bool.true_or]
    · rw [hadds.structural, hwaits.structural hs, Bool.true_or]
  case inl.inr =>
    have htaken := htakes.takes hrun hm
    refine .inr ⟨history ++ [m], w.view.tracker.isStructural, ?_, hwaits.structural, .inl (.begun htaken)⟩
    rcases hwaits.untaken with hquiet | ⟨taken, asked, hanswers, hpasses, hquiet⟩
    · exact .first ⟨history, m, rfl, hmade, hquiet, htaken⟩
    · exact hanswers.again hpasses.longer ⟨history, m, rfl, hpasses.isPrefix, hquiet, htaken⟩
  case inr.inl.inl =>
    rcases serves_adds hrun hm hadds hserves with hserves' | hpasses | ⟨hpasses, hrequests⟩
    · exact .inr ⟨taken, asked, hanswers, hs, .inl hserves'⟩
    · exact .inr ⟨taken, asked, hanswers, hs, .inr hpasses⟩
    · -- the pass has failed, and the request is back in the tracker with that of the pass
      refine .inl ⟨.inr ⟨taken, asked, hanswers, hpasses, ?_⟩, ?_, fun hstructural => ?_⟩
      · exact (serves_quiet hserves).concat (hadds.not_takes hrun hm)
      · simp [hadds.dirty, hrequests]
      · simp [hadds.structural, hrequests, hs hstructural]
  case inr.inl.inr =>
    have hasked := hserves.phase hrun
    rw [htakes.waits] at hasked
    cases hasked

section Started

variable {source : Source Unit} {config : Config} {v : View}

theorem tracker_start (h : View.start source config = .ok v) :
    v.tracker.isDirty = true ∧ v.tracker.isStructural = true ∧ v.worker.phase.asked? = none := by
  obtain rfl := View.opened_of_start h
  exact ⟨rfl, rfl, rfl⟩

theorem accounted_run (hstart : View.start source config = .ok v)
    (hrun : run ⟨v, [], none, []⟩ history = some w) (hopen : w.view.isClosed = false) (hmade : made <+: history)
    (hasks : Asks ⟨v, [], none, []⟩ made structural) : Accounted ⟨v, [], none, []⟩ history w made structural := by
  refine run_induction (motive := fun history w => w.view.isClosed = false → made <+: history →
    Accounted ⟨v, [], none, []⟩ history w made structural) hrun (fun _ hmade => ?_)
    (fun before u m u' hu hm ih hopen hmade => ?_) hopen hmade
  · obtain rfl := List.prefix_nil.mp hmade
    obtain ⟨hdirty, hstructural, -⟩ := tracker_start hstart
    exact .inl ⟨.inl (.refl _ _), hdirty, fun _ => hstructural⟩
  · rcases List.prefix_concat_iff.mp hmade with rfl | hmade
    · exact accounted_made hu hm hopen hasks
    · exact accounted_step hu hm hopen hmade (ih (isClosed_step hm hopen) hmade)

theorem inFlight_run (hstart : View.start source config = .ok v) (hrun : run ⟨v, [], none, []⟩ history = some w)
    (hopen : w.view.isClosed = false) (hasked : w.view.worker.phase.asked? = some asked) :
    w.view.tracker.inFlight = true := by
  refine run_induction (motive := fun _ w => w.view.isClosed = false → ∀ asked,
    w.view.worker.phase.asked? = some asked → w.view.tracker.inFlight = true) hrun (fun _ asked hasked => ?_)
    (fun before u m u' hu hm ih hopen asked hasked => ?_) hopen asked hasked
  · rw [(tracker_start hstart).2.2] at hasked
    cases hasked
  · rcases adds_or_takes hm hopen with hadds | htakes
    · rcases hadds.asked with ⟨hsame, hinFlight⟩ | ⟨hnone, -⟩
      · exact hinFlight.trans (ih (isClosed_step hm hopen) asked (hsame.symm.trans hasked))
      · rw [hnone] at hasked
        cases hasked
    · exact htakes.inFlight

end Started

structure Gathers (start : World) (taken : List Move) (asked : Bool) (history : List Move) (w : World) : Prop where
  structural : w.view.tracker.isStructural = true ↔ AsksWithin start taken history true
  ends : Serves start taken asked history ∨ Passes start taken asked .succeeding history ∨
    Passes start taken asked .retrying history

theorem asksWithin_concat (hrun : start.run history = some w) (htaken : taken <+: history) :
    AsksWithin start taken (history ++ [m]) structural ↔
      AsksWithin start taken history structural ∨ structural ∈ w.requests m := by
  constructor
  · rintro ⟨made, hsince, hmade, hasks⟩
    rcases List.prefix_concat_iff.mp hmade with rfl | hmade
    · exact .inr ((asks_concat hrun).mp hasks)
    · exact .inl ⟨made, hsince, hmade, hasks⟩
  · rintro (⟨made, hsince, hmade, hasks⟩ | hmem)
    · exact ⟨made, hsince, hmade.trans (List.prefix_append history [m]), hasks⟩
    · exact ⟨_, htaken.trans (List.prefix_append history [m]), List.prefix_refl _, (asks_concat hrun).mpr hmem⟩

theorem gathers_taken (hrun : start.run history = some w) (hm : w.step m = some w') (hopen : w'.view.isClosed = false)
    (htakes : Takes start (history ++ [m]) asked) : Gathers start (history ++ [m]) asked (history ++ [m]) w' := by
  refine ⟨?_, .inl (.begun htakes)⟩
  rcases adds_or_takes hm hopen with hadds | hall
  · exact absurd htakes (hadds.not_takes hrun hm asked)
  · refine iff_of_false (by simp [hall.clear.2]) ?_
    rintro ⟨made, hsince, hmade, hasks⟩
    obtain rfl := hmade.eq_of_length_le hsince.length_le
    rw [asks_concat hrun, hall.requests] at hasks
    cases hasks

theorem gathers_step (hrun : start.run history = some w) (hm : w.step m = some w')
    (hadds : Adds w w' m) (htaken : taken <+: history) (h : Gathers start taken asked history w) :
    Gathers start taken asked (history ++ [m]) w' := by
  refine ⟨?_, ?_⟩
  · rw [hadds.structural, Bool.or_eq_true, asksWithin_concat hrun htaken, h.structural, List.any_eq_true]
    simp
  · rcases h.ends with hserves | hpasses | hpasses
    · exact (serves_adds hrun hm hadds hserves).imp_right (Or.imp_right And.left)
    · exact .inr (.inl hpasses.longer)
    · exact .inr (.inr hpasses.longer)

theorem gathers_run (hrun : start.run history = some w) (hopen : w.view.isClosed = false) (htaken : taken <+: history)
    (htakes : Takes start taken asked) (hquiet : Quiet start taken history) : Gathers start taken asked history w := by
  refine run_induction (motive := fun history w => w.view.isClosed = false → taken <+: history →
    Quiet start taken history → Gathers start taken asked history w) hrun (fun _ htaken _ => ?_)
    (fun before u m u' hu hm ih hopen htaken hquiet => ?_) hopen htaken hquiet
  · obtain rfl := List.prefix_nil.mp htaken
    obtain ⟨before, m, _, _, hnil, _⟩ := htakes
    simp at hnil
  · rcases List.prefix_concat_iff.mp htaken with rfl | htaken'
    · exact gathers_taken hu hm hopen htakes
    · have hgathers := ih (isClosed_step hm hopen) htaken' hquiet.of_concat
      rcases adds_or_takes hm hopen with hadds | hall
      · exact gathers_step hu hm hadds htaken' hgathers
      · refine absurd (hall.takes hu hm) (hquiet _ _ htaken (fun heq => ?_) (List.prefix_refl _))
        have hlength := htaken'.length_le
        simp only [← heq, List.length_append, List.length_singleton] at hlength
        omega

theorem takesNext_gathers (hrun : start.run history = some w) (hopen : w.view.isClosed = false)
    (hnext : next <+: history) (htakes : Takes start taken asked) (h : TakesNext start taken next asked') :
    (Passes start taken asked .succeeding next ∨
      Passes start taken asked .retrying next ∧ AsksWithin start taken next asked) ∧
    (∀ made structural, taken <+: made → made <+: next → Asks start made structural →
      TakesNext start made next asked') ∧
    (asked' = true ↔ AsksWithin start taken next true) := by
  obtain ⟨before, m, rfl, htaken, hquiet, hnexttakes⟩ := h
  obtain ⟨w', hw', hopen'⟩ := isClosed_run hrun hopen hnext
  obtain ⟨u, hu, hm⟩ := Option.bind_eq_some_iff.mp ((run_concat start before m).symm.trans hw')
  have hgathers := gathers_run hu (isClosed_step hm hopen') htaken htakes hquiet
  rcases adds_or_takes hm hopen' with hadds | hall
  · exact absurd hnexttakes (hadds.not_takes hu hm asked')
  have hphase := (takes_concat hu hm hnexttakes).2
  obtain rfl : u.view.tracker.isStructural = asked' := by
    rw [hall.begins] at hphase
    cases hphase
    rfl
  refine ⟨?_, fun made structural hsince hmade hasks => ?_, ?_⟩
  · rcases hgathers.ends with hserves | hpasses | hpasses
    · have hasked := hserves.phase hu
      rw [hall.waits] at hasked
      cases hasked
    · exact .inl hpasses.longer
    · exact .inr ⟨hpasses.longer, hpasses.longer.asksWithin⟩
  · rcases List.prefix_concat_iff.mp hmade with rfl | hmade
    · rw [asks_concat hu, hall.requests] at hasks
      cases hasks
    · refine ⟨before, m, rfl, hmade, fun between asked hbetween hne hbefore => ?_, hnexttakes⟩
      refine hquiet between asked (hsince.trans hbetween) (fun heq => hne ?_) hbefore
      subst heq
      exact hsince.eq_of_length_le hbetween.length_le
  · rw [asksWithin_concat hu htaken, hall.requests, hgathers.structural]
    simp

/-- Each request is held by the tracker, by the pass under way that took it, or was taken by a pass that succeeded. So
a settled view has answered them all. What was asked for since a pass took its requests is taken at once by the next
one, which is structural if one of these requests was, the failed pass's own included. -/
theorem requests_accounted {source : Source Unit} {config : Config} {v : View}
    (hstart : View.start source config = .ok v) (hrun : run ⟨v, [], none, []⟩ history = some w)
    (hopen : w.view.isClosed = false) :
    let start : World := ⟨v, [], none, []⟩
    (∀ made structural, made <+: history → Asks start made structural →
      w.view.tracker.isDirty = true ∧ (structural = true → w.view.tracker.isStructural = true) ∨
      ∃ taken asked, Answers start made taken asked ∧ (structural = true → asked = true) ∧
        (Serves start taken asked history ∧ w.view.tracker.inFlight = true ∨
          Passes start taken asked .succeeding history)) ∧
    (w.view.tracker.isSettled = true → ∀ made structural, made <+: history → Asks start made structural →
      ∃ taken asked, Answers start made taken asked ∧ (structural = true → asked = true) ∧
        Passes start taken asked .succeeding history) ∧
    ∀ taken asked next asked', next <+: history → Takes start taken asked → TakesNext start taken next asked' →
      (Passes start taken asked .succeeding next ∨
        Passes start taken asked .retrying next ∧ AsksWithin start taken next asked) ∧
      (∀ made structural, taken <+: made → made <+: next → Asks start made structural →
        TakesNext start made next asked') ∧
      (asked' = true ↔ AsksWithin start taken next true) := by
  intro start
  have haccounted (made : List Move) (structural : Bool) (hmade : made <+: history)
      (hasks : Asks start made structural) :
      w.view.tracker.isDirty = true ∧ (structural = true → w.view.tracker.isStructural = true) ∨
      ∃ taken asked, Answers start made taken asked ∧ (structural = true → asked = true) ∧
        (Serves start taken asked history ∧ w.view.tracker.inFlight = true ∨
          Passes start taken asked .succeeding history) := by
    rcases accounted_run hstart hrun hopen hmade hasks with hwaits | ⟨taken, asked, hanswers, hs, hheld⟩
    · exact .inl ⟨hwaits.dirty, hwaits.structural⟩
    · refine .inr ⟨taken, asked, hanswers, hs, hheld.imp_left fun hserves => ⟨hserves, ?_⟩⟩
      exact inFlight_run hstart hrun hopen (hserves.phase hrun)
  refine ⟨haccounted, fun hsettled made structural hmade hasks => ?_, fun taken asked next asked' hnext htakes h => ?_⟩
  · simp only [Tracker.isSettled, Bool.and_eq_true, Bool.not_eq_true'] at hsettled
    rcases haccounted made structural hmade hasks with ⟨hdirty, -⟩ | ⟨taken, asked, hanswers, hs, hheld⟩
    · rw [hsettled.1] at hdirty
      cases hdirty
    · rcases hheld with ⟨-, hinFlight⟩ | hpasses
      · rw [hsettled.2] at hinFlight
        cases hinFlight
      · exact ⟨taken, asked, hanswers, hs, hpasses⟩
  · exact takesNext_gathers hrun hopen hnext htakes h

/-- The first pass fails while the data are copied, and a request comes while it rests. The second pass answers this one
and that of the opening. -/
theorem requests_accounted_behind_failure :
    let source : Source Unit := .ofSchema { columns := [⟨"x", .native, some 0⟩] }
    let failing : List Move := List.replicate 4 (.work .ascending none) ++
      .work .ascending (some (.snapshot .detached)) :: List.replicate 2 (.work .ascending none)
    let asking : List Move := [.recompute false, .proceed 0]
    let history : List Move := failing ++ asking ++ List.replicate 26 (.work .ascending none)
    ∃ v w, View.start source {} = .ok v ∧ run ⟨v, [], none, []⟩ history = some w ∧ w.view.isClosed = false ∧
      w.view.tracker.isSettled = true ∧ w.view.counts.failures = 1 ∧
      Asks ⟨v, [], none, []⟩ (failing ++ asking) false ∧
      ∃ taken asked, Answers ⟨v, [], none, []⟩ (failing ++ asking) taken asked ∧
        Passes ⟨v, [], none, []⟩ taken asked .succeeding history := by
  intro source failing asking history
  let v := View.opened source {}
  have hstart : View.start source {} = .ok v := View.start_of_valid (by decide +kernel)
  let u := (run ⟨v, [], none, []⟩ (failing ++ [.recompute false])).get (by decide +kernel)
  have hbefore : run ⟨v, [], none, []⟩ (failing ++ [.recompute false]) = some u := (Option.some_get _).symm
  let w := (run ⟨v, [], none, []⟩ history).get (by decide +kernel)
  have hrun : run ⟨v, [], none, []⟩ history = some w := (Option.some_get _).symm
  have hopen : w.view.isClosed = false := by decide +kernel
  have hsettled : w.view.tracker.isSettled = true := by decide +kernel
  have hasks : Asks ⟨v, [], none, []⟩ (failing ++ asking) false :=
    .inr ⟨failing ++ [.recompute false], .proceed 0, u, rfl, hbefore, by decide +kernel⟩
  obtain ⟨taken, asked, hanswers, -, hpasses⟩ := (requests_accounted hstart hrun hopen).2.1 hsettled (failing ++ asking)
    false (List.prefix_append _ _) hasks
  exact ⟨v, w, hstart, hrun, hopen, hsettled, by decide +kernel, hasks, taken, asked, hanswers, hpasses⟩

end World

end LiveSheet
