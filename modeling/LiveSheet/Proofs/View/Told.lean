import LiveSheet.Proofs.Data.Stamps
import LiveSheet.Proofs.View.Following

namespace LiveSheet

namespace View

structure Ages (v v' : View) : Prop where
  config : v'.config = v.config
  closed : v.isClosed = true → v'.isClosed = true
  structural : v.tracker.isStructural = true → v'.tracker.isStructural = true
  data : v.source.data.Advances v'.source.data

variable {v v' v'' : View}

theorem ages_of_same (hconfig : v'.config = v.config) (htracker : v'.tracker = v.tracker)
    (hdata : v'.source.data = v.source.data) : v.Ages v' := by
  refine ⟨hconfig, ?_, ?_, ?_⟩
  · rw [isClosed, isClosed, htracker]
    exact id
  · rw [htracker]
    exact id
  · rw [hdata]
    exact .refl _

theorem Ages.refl (v : View) : v.Ages v := ages_of_same rfl rfl rfl

theorem Ages.trans (h : v.Ages v') (k : v'.Ages v'') : v.Ages v'' :=
  ⟨k.config.trans h.config, k.closed ∘ h.closed, k.structural ∘ h.structural, h.data.trans k.data⟩

variable (v)

theorem ages_mark (structural : Bool) : v.Ages (v.mark structural) :=
  ⟨rfl, id, fun h => by simp [mark, Tracker.mark, h], .refl _⟩

theorem ages_hear (structural : Bool) : v.Ages (v.hear structural).1 := by
  simp only [hear, Tracker.hear]
  split
  · exact .refl v
  · exact v.ages_mark structural

theorem ages_tellAny (notice? : Option Notice) : v.Ages (v.tellAny notice?) := by
  have htell (n : Notice) : v.Ages (v.tell n) := by
    unfold tell
    induction v.source.observers generalizing v with
    | nil => exact .refl v
    | cons o os ih => exact (v.ages_hear n.isStructural).trans (ih _)
  cases notice? with
  | none => exact .refl v
  | some n => exact htell n

theorem ages_change (p : Production) : v.Ages (v.change p).1 :=
  ⟨rfl, id, id, v.source.advances_produce p⟩

theorem ages_setIndicator (pass : Nat) (b : Busy) : v.Ages (v.setIndicator pass b) := by
  obtain ⟨i, hi⟩ := v.exists_setIndicator pass b
  rw [hi]
  exact ages_of_same rfl rfl rfl

theorem ages_perform (visit : VisitOrder) (asked : Bool) (s : Stage) : v.Ages (v.perform visit asked s) := by
  cases s with
  | noted s | computed f | publishing f =>
      simp only [perform, checkOpen]
      split <;> exact ages_of_same rfl rfl rfl
  | preparing s =>
      simp only [perform]
      split <;> exact ages_of_same rfl rfl rfl
  | storing f => exact ⟨rfl, id, id, v.source.data.advances_storeResults f.update.table⟩
  | telling f notice? => exact (v.ages_tellAny notice?).trans (ages_of_same rfl rfl rfl)
  | handing f => exact (v.ages_setIndicator v.worker.pass .applying).trans (ages_of_same rfl rfl rfl)
  | scheduling f =>
      simp only [perform]
      split <;> exact ages_of_same rfl rfl rfl
  | refused f e =>
      simp only [perform]
      split <;> exact ages_of_same rfl rfl rfl
  | comparing f =>
      simp only [perform]
      split <;> exact ages_of_same rfl rfl rfl
  | requesting structural => exact (v.ages_mark structural).trans (ages_of_same rfl rfl rfl)
  | failing =>
      obtain ⟨i, hi⟩ := exists_setIndicator
        { v with counts := { v.counts with failures := v.counts.failures + 1 } } v.worker.pass .idle
      simp only [perform, hi]
      exact ages_of_same rfl rfl rfl
  | recovering | resting =>
      simp only [perform]
      split <;> exact ages_of_same rfl rfl rfl
  | retrying => exact (v.ages_mark asked).trans (ages_of_same rfl rfl rfl)
  | _ => exact ages_of_same rfl rfl rfl

theorem ages_attend (e : Errand) : v.Ages (v.attend e).1 := by
  cases e with
  | counting p =>
      obtain ⟨i, hi⟩ := exists_setIndicator
        { v with counts := { v.counts with publications := v.counts.publications + 1 } } p.pass .idle
      simp only [attend, hi]
      exact ages_of_same rfl rfl rfl
  | requesting structural => exact v.ages_mark structural
  | _ => exact ages_of_same rfl rfl rfl

theorem ages_closeStep {byWorker : Bool} {c c' : Closing} (h : v.closeStep byWorker c = some (v', c')) : v.Ages v' := by
  cases c with
  | marking =>
      cases h
      exact ⟨rfl, fun _ => rfl, id, .refl _⟩
  | releasing =>
      cases h
      refine ages_of_same rfl rfl ?_
      simp only
      split <;> rfl
  | awaiting =>
      simp only [closeStep] at h
      split at h <;> cases h
      exact .refl v
  | done => cases h
  | _ =>
      cases h
      exact ages_of_same rfl rfl rfl

end View

theorem Call.ages_step {v v' : View} {c : Call} {c? : Option Call} (h : c.step v = some (v', c?)) : v.Ages v' := by
  cases c with
  | marking structural =>
      cases h
      exact v.ages_mark structural
  | writing x =>
      simp only [step] at h
      split at h
      · cases h
        exact .refl v
      · next row rows _ =>
          have hchange := v.ages_change (.edit (.setFormula row (.index x.column) (x.textFor row)))
          split at h
          · next heq =>
              cases h
              rw [heq] at hchange
              exact hchange
          · next heq =>
              cases h
              rw [heq] at hchange
              exact hchange
  | noticing x notice? =>
      cases h
      exact v.ages_tellAny notice?
  | closing c =>
      simp only [step, Option.map_eq_some_iff] at h
      obtain ⟨⟨u, c'⟩, hstep, heq⟩ := h
      cases heq
      exact v.ages_closeStep hstep
  | _ =>
      cases h
      exact View.ages_of_same rfl rfl rfl

theorem World.ages_step {w w' : World} {m : Move} (hm : w.step m = some w')
    (hwork : ∀ visit fault?, m ≠ .work visit fault?) : w.view.Ages w'.view := by
  cases m with
  | work visit fault? => exact absurd rfl (hwork visit fault?)
  | change p =>
      cases hm
      exact w.view.ages_change p
  | recompute structural | resetFilters | extend row column =>
      simp only [step, callOpen] at hm
      split at hm
      · cases hm
      · cases hm
        exact .refl _
  | proceed i =>
      simp only [step] at hm
      split at hm
      · cases hm
      · obtain ⟨⟨v, c?⟩, hv, rfl⟩ := Option.map_eq_some_iff.mp hm
        exact Call.ages_step hv
  | drain =>
      simp only [step] at hm
      split at hm
      · cases hm
        exact View.ages_of_same rfl rfl rfl
      · cases hm
  | attend =>
      simp only [step] at hm
      split at hm
      · next e _ =>
          cases hm
          exact w.view.ages_attend e
      · cases hm
        exact .refl _
      · cases hm
  | shutDown =>
      cases hm
      exact View.ages_of_same rfl rfl rfl
  | _ =>
      cases hm
      exact .refl _

def Errand.begun : Errand → List Publication
  | .silencing p | .applying p => [p]
  | _ => []

namespace World

/-- The publications that are going to be applied. A closed view ends the errand that has entered silence and begins no
other. -/
def due (w : World) : List Publication :=
  if w.view.isClosed then w.errand?.toList.flatMap Errand.begun else w.publications

def showing (shown? : Option Update) (ps : List Publication) : Option Update :=
  ps.foldl (fun u? p => some (p.update.over u?)) shown?

def told (w : World) : Option Update := showing w.view.consumer.latest? w.due

variable {w w' : World} {m : Move}

theorem due_of_open (h : w.view.isClosed = false) : w.due = w.publications := by simp [due, h]

theorem due_of_closed (h : w.view.isClosed = true) : w.due = w.errand?.toList.flatMap Errand.begun := by simp [due, h]

theorem begun_isPrefix (w : World) : w.errand?.toList.flatMap Errand.begun <+: w.publications := by
  unfold publications
  cases w.errand? with
  | none => exact List.nil_prefix
  | some e => cases e <;> simp [Errand.begun, Errand.unapplied]

theorem due_isPrefix (herrand : w'.errand? = w.errand?) (hbatch : w'.batch = w.batch)
    (hqueue : w'.view.consumer.queue <+: w.view.consumer.queue)
    (hclosed : w.view.isClosed = true → w'.view.isClosed = true) : w'.due <+: w.due := by
  have hpublications : w'.publications <+: w.publications := by
    rw [publications, publications, herrand, hbatch]
    exact (List.prefix_append_right_inj _).mpr hqueue
  cases hbefore : w.view.isClosed with
  | true =>
      have hsame : w'.due = w.due := by rw [due_of_closed hbefore, due_of_closed (hclosed hbefore), herrand]
      exact hsame ▸ List.prefix_refl _
  | false =>
      rw [due_of_open hbefore]
      cases hafter : w'.view.isClosed with
      | true =>
          rw [due_of_closed hafter, herrand]
          exact w.begun_isPrefix
      | false => exact due_of_open hafter ▸ hpublications

variable {v : View} {p : Publication}

theorem due_queued_of_open (hqueue : v.consumer.queue = w.view.consumer.queue ++ [p]) (hw : w.view.isClosed = false)
    (hv : v.isClosed = false) : due { w with view := v } = w.due ++ [p] := by
  rw [due_of_open hw, due_of_open hv, publications, publications, hqueue, List.append_assoc _ _ [p]]

theorem due_queued_of_closed (hw : w.view.isClosed = true) (hv : v.isClosed = true) :
    due { w with view := v } = w.due := by
  rw [due_of_closed hw, due_of_closed hv]

theorem due_drain (h : w.step .drain = some w') :
    w'.due = w.due ∧ w'.view.consumer.latest? = w.view.consumer.latest? := by
  simp only [step] at h
  split at h
  · next hbatch herrand =>
      cases h
      refine ⟨?_, rfl⟩
      simp [due, publications, hbatch, herrand, Consumer.drain, View.isClosed]
  · cases h

theorem due_attend (h : w.step .attend = some w') :
    w'.due = w.due ∧ w'.view.consumer.latest? = w.view.consumer.latest? ∨
      ∃ p, w.due = p :: w'.due ∧ w'.view.consumer.latest? = some (p.update.over w.view.consumer.latest?) := by
  have hdue (u : World) : u.due = if u.view.tracker.isClosed then u.errand?.toList.flatMap Errand.begun else
      u.errand?.toList.flatMap Errand.unapplied ++ u.batch ++ u.view.consumer.queue := rfl
  simp only [step] at h
  split at h
  · next e herrand =>
      cases h
      cases e with
      | called p =>
          refine .inl ⟨?_, rfl⟩
          cases hclosed : w.view.tracker.isClosed <;>
            simp [hdue, View.attend, View.isClosed, herrand, hclosed, Errand.begun, Errand.unapplied]
      | applying p =>
          refine .inr ⟨p, ?_, rfl⟩
          cases hclosed : w.view.tracker.isClosed <;>
            simp [hdue, View.attend, herrand, hclosed, Consumer.apply, Errand.begun, Errand.unapplied]
      | counting p =>
          obtain ⟨i, hi⟩ := View.exists_setIndicator
            { w.view with counts := { w.view.counts with publications := w.view.counts.publications + 1 } } p.pass .idle
          refine .inl ⟨?_, ?_⟩
          · simp [hdue, View.attend, herrand, hi, Errand.begun, Errand.unapplied]
          · simp [View.attend, hi]
      | comparing seen =>
          refine .inl ⟨?_, rfl⟩
          by_cases hlive : w.view.live = seen <;>
            simp [hdue, View.attend, herrand, hlive, Errand.begun, Errand.unapplied]
      | _ =>
          refine .inl ⟨?_, rfl⟩
          simp [hdue, View.attend, View.enterSilence, View.leaveSilence, View.mark, Tracker.mark, herrand, Errand.begun,
            Errand.unapplied]
  · next p batch herrand hbatch =>
      cases h
      refine .inl ⟨?_, rfl⟩
      simp [hdue, herrand, hbatch, Errand.begun, Errand.unapplied]
  · cases h

end World

end LiveSheet
