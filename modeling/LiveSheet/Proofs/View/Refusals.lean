import LiveSheet.Proofs.View.Coverage
import LiveSheet.Proofs.View.Told

namespace LiveSheet

def Phase.offers : Phase → Bool
  | .pass _ (.scheduling _) => true
  | _ => false

theorem Phase.exists_of_offers {p : Phase} (h : p.offers = true) : ∃ asked f, p = .pass asked (.scheduling f) := by
  rcases p with _ | _ | ⟨asked, s⟩ | _ | _ | _
  case pass =>
    cases s with
    | scheduling f => exact ⟨asked, f, rfl⟩
    | _ => cases h
  all_goals cases h

def Phase.refuses (asked : Bool) : Phase → Bool
  | .pass asked' (.refused _ _) => asked' == asked
  | _ => false

theorem Phase.exists_of_refuses {asked : Bool} {p : Phase} (h : p.refuses asked = true) :
    ∃ f e, p = .pass asked (.refused f e) := by
  rcases p with _ | _ | ⟨asked', s⟩ | _ | _ | _
  case pass =>
    cases s with
    | refused f e =>
        obtain rfl : asked' = asked := eq_of_beq h
        exact ⟨f, e, rfl⟩
    | _ => cases h
  all_goals cases h

def Phase.handsOver : Phase → Bool
  | .pass _ (.serving _) => true
  | _ => false

def Phase.Owes (structural : Bool) : Phase → Prop
  | .pass _ (.serving _) | .pass _ (.comparing _) | .pass _ (.requesting _) | .pass _ .succeeding => False
  | .pass asked _ => asked = true
  | .turning | .waiting | .finishing => structural = true
  | .stopping | .stopped => True

theorem Phase.Owes.asked {structural asked : Bool} {s : Stage} (h : Phase.Owes structural (.pass asked s)) :
    asked = true := by
  cases s with
  | serving | comparing | requesting | succeeding => exact h.elim
  | _ => exact h

theorem Phase.Owes.mono {structural structural' : Bool} {p : Phase} (h : p.Owes structural)
    (hs : structural = true → structural' = true) : p.Owes structural' := by
  cases p with
  | pass asked s => cases s <;> exact h
  | turning | waiting | finishing => exact hs h
  | stopping | stopped => trivial

namespace World

variable {start w w' : World} {history : List Move} {m : Move} {asked structural : Bool} {visit : VisitOrder}

theorem run_concat (start : World) (history : List Move) (m : Move) :
    start.run (history ++ [m]) = (start.run history).bind (·.step m) := by
  rw [run, run, List.foldlM_append]
  simp [Option.bind_eq_bind]

theorem run_append (hrun : start.run history = some w) (hm : w.step m = some w') :
    start.run (history ++ [m]) = some w' := by
  rw [run_concat, hrun]
  exact hm

/-- The publication of a pass that was asked to rebuild was refused, and nothing was handed over since. -/
inductive Owing (start : World) : List Move → Prop
  | refused {history : List Move} {w : World} {f : Finding} {e : PublishError} (hrun : start.run history = some w)
      (hphase : w.view.worker.phase = .pass true (.refused f e)) : Owing start history
  | since {history : List Move} {m : Move} {w : World} (h : Owing start history)
      (hrun : start.run (history ++ [m]) = some w) (hphase : w.view.worker.phase.handsOver = false) :
      Owing start (history ++ [m])

theorem owes_perform {v : View} {s : Stage} (hopen : v.isClosed = false) (h : Phase.Owes structural (.pass asked s))
    (hserving : (v.perform visit asked s).worker.phase.handsOver = false) :
    (v.perform visit asked s).worker.phase.Owes (v.perform visit asked s).tracker.isStructural := by
  cases s with
  | noted s | publishing f =>
      simp only [View.perform, View.checkOpen_of_open hopen]
      exact h
  | preparing s =>
      simp only [View.perform]
      split <;> exact h
  | computed f =>
      simp only [View.perform, View.checkOpen_of_open hopen]
      split <;> exact h
  | scheduling f =>
      simp only [View.perform] at hserving ⊢
      split
      · next heq =>
          rw [heq] at hserving
          cases hserving
      · exact h
  | refused f e | recovering | resting =>
      simp only [View.perform, hopen, Bool.false_eq_true, if_false]
      exact h
  | retrying =>
      obtain rfl : asked = true := h
      simp [View.perform, View.stand, View.mark, Tracker.mark, Phase.Owes]
  | serving f | comparing f | requesting structural | succeeding => exact h.elim
  | _ => exact h

theorem owes_work {v v' : View} {fault? : Option PassError} (hopen : v.isClosed = false)
    (h : v.worker.phase.Owes v.tracker.isStructural) (hv : v.work visit fault? = some v')
    (hserving : v'.worker.phase.handsOver = false) : v'.worker.phase.Owes v'.tracker.isStructural := by
  unfold View.work at hv
  split at hv
  · next hphase =>
      cases hv
      rw [hphase] at h
      exact h
  · next hphase =>
      rw [hphase] at h
      simp only [Tracker.take] at hv
      split at hv
      · cases hv
      · cases hv
        trivial
      · next heq =>
          cases hv
          split at heq
          · cases heq
          · split at heq <;> cases heq
            exact h
  · next hphase =>
      cases hv
      rw [hphase] at h
      exact owes_perform hopen h hserving
  · next asked s fault hphase =>
      rw [hphase] at h
      have hasked : asked = true := h.asked
      unfold View.disturb at hv
      split at hv
      · cases hv
        exact hasked
      · cases hv
        exact hasked
      · cases hv
        exact hasked
      · split at hv <;> cases hv
        exact hasked
      · cases hv
  · next hphase =>
      cases hv
      rw [hphase] at h
      exact h
  · cases hv
    trivial
  · cases hv

theorem owes_of_owing (h : Owing start history) (hrun : start.run history = some w) (hserving : w.view.IsServing) :
    w.view.worker.phase.Owes w.view.tracker.isStructural := by
  induction h generalizing w with
  | refused hrun' hphase =>
      obtain rfl := Option.some.inj (hrun.symm.trans hrun')
      rw [hphase]
      rfl
  | @since history m w' h hrun' hphase ih =>
      obtain rfl := Option.some.inj (hrun.symm.trans hrun')
      obtain ⟨u, hu, hm⟩ := Option.bind_eq_some_iff.mp ((run_concat start history m).symm.trans hrun)
      have hbefore := isServing_step hm hserving
      by_cases hwork : ∃ visit fault?, m = .work visit fault?
      · obtain ⟨visit, fault?, rfl⟩ := hwork
        obtain ⟨v, hv, rfl⟩ := Option.map_eq_some_iff.mp hm
        exact owes_work hbefore.1 (ih hu hbefore) hv hphase
      · have hother : ∀ visit fault?, m ≠ .work visit fault? := fun visit fault? hm => hwork ⟨visit, fault?, hm⟩
        rw [worker_step hm hother]
        exact (ih hu hbefore).mono (ages_step hm hother).structural

theorem owing_take {n : Nat} (hrun : start.run (history.take n) = some w)
    (hrefuses : w.view.worker.phase.refuses true = true) :
    ∀ k, (∀ i ≤ k, (start.run (history.take (n + i))).any fun u => !u.view.worker.phase.handsOver) →
      Owing start (history.take (n + k))
  | 0, _ => by
      obtain ⟨f, e, hphase⟩ := Phase.exists_of_refuses hrefuses
      exact .refused hrun hphase
  | k + 1, hquiet => by
      have ih := owing_take hrun hrefuses k fun i hi => hquiet i (Nat.le_succ_of_le hi)
      obtain ⟨u, hu, hphase⟩ := (Option.any_eq_true _ _).mp (hquiet (k + 1) (Nat.le_refl _))
      rw [← Nat.add_assoc] at hu ⊢
      by_cases h : n + k < history.length
      · rw [List.take_succ_eq_append_getElem h] at hu ⊢
        exact ih.since hu (by simpa using hphase)
      · rw [List.take_of_length_le (by omega)] at ih ⊢
        exact ih

end World

end LiveSheet
