import LiveSheet.Proofs.Sheet.Pass
import LiveSheet.Proofs.View.Following

namespace LiveSheet

def Stage.finding? : Stage → Option Finding
  | .computed f | .silencing f | .storing f | .telling f _ | .showing f | .publishing f | .handing f => some f
  | .scheduling f | .refused f _ | .serving f | .comparing f => some f
  | _ => none

namespace Phase

def finding? : Phase → Option Finding
  | .pass _ s => s.finding?
  | _ => none

def isRebuilt : Phase → Bool
  | .pass _ (.computing _ rebuilt) => rebuilt
  | _ => false

end Phase

namespace View

structure Onward (v v' : View) : Prop where
  config : v'.config = v.config
  sheet : v'.worker.sheet = .empty ∨ v'.worker.sheet = v.worker.sheet ∧ v'.worker.phase.isRebuilt = false
  finding : ∀ f, v'.worker.phase.finding? = some f → v.worker.phase.finding? = some f
  latest : v'.latest? = v.latest? ∨ ∃ f, v.worker.phase.finding? = some f ∧ v'.latest? = some f.update.table
  queue : v'.consumer.queue = v.consumer.queue ∨
    ∃ f p, v.worker.phase.finding? = some f ∧ v'.consumer.queue = v.consumer.queue ++ [p] ∧ p.update = f.update
  shown : v'.consumer.latest? = v.consumer.latest?

variable {v u : View} {p : Phase} {asked : Bool} {visit : VisitOrder}

theorem onward_stand (hconfig : u.config = v.config) (hsheet : u.worker.sheet = v.worker.sheet)
    (hlatest : u.latest? = v.latest?) (hconsumer : u.consumer = v.consumer) (hrebuilt : p.isRebuilt = false)
    (hfinding : ∀ f, p.finding? = some f → v.worker.phase.finding? = some f) : v.Onward (u.stand p) := by
  refine ⟨hconfig, .inr ⟨hsheet, hrebuilt⟩, hfinding, .inl hlatest, .inl ?_, ?_⟩
  · exact congrArg Consumer.queue hconsumer
  · exact congrArg Consumer.latest? hconsumer

theorem onward_checkOpen {s : Stage} (hrebuilt : (Phase.pass asked s).isRebuilt = false)
    (hfinding : ∀ f, (Phase.pass asked s).finding? = some f → v.worker.phase.finding? = some f) :
    v.Onward (v.checkOpen asked s) := by
  unfold checkOpen
  split
  · exact onward_stand rfl rfl rfl rfl rfl (by simp [Phase.finding?, Stage.finding?])
  · exact onward_stand rfl rfl rfl rfl hrebuilt hfinding

theorem onward_perform {s : Stage} (hphase : v.worker.phase = .pass asked s)
    (hs : ∀ snapshot rebuilt, s ≠ .computing snapshot rebuilt) : v.Onward (v.perform visit asked s) := by
  have hlost {p : Phase} (hp : p.finding? = none) (f : Finding) (hf : p.finding? = some f) :
      v.worker.phase.finding? = some f := by simp [hp] at hf
  have hkept {p : Phase} (hp : p.finding? = s.finding?) (f : Finding) (hf : p.finding? = some f) :
      v.worker.phase.finding? = some f := by
    rw [hphase]
    exact hp.symm.trans hf
  cases s with
  | woken | beginning | copying | copied =>
      exact onward_stand rfl rfl rfl rfl rfl (hlost rfl)
  | noted s => exact onward_checkOpen rfl (hlost rfl)
  | preparing s =>
      simp only [perform]
      split
      · exact onward_stand rfl rfl rfl rfl rfl (hlost rfl)
      · exact onward_stand rfl rfl rfl rfl rfl (hlost rfl)
  | rebuilding s => exact ⟨rfl, .inl rfl, hlost rfl, .inl rfl, .inl rfl, rfl⟩
  | computing s rebuilt => exact absurd rfl (hs s rebuilt)
  | computed f =>
      refine onward_checkOpen ?_ (hkept ?_)
      · split <;> rfl
      · split <;> rfl
  | silencing f | storing f | serving f =>
      exact onward_stand rfl rfl rfl rfl rfl (hkept rfl)
  | telling f notice? =>
      have hcore := v.core_tellAny notice?
      simp only [core, Prod.mk.injEq] at hcore
      obtain ⟨hconfig, hworker, hlatest, hconsumer⟩ := hcore
      exact onward_stand hconfig (congrArg Worker.sheet hworker) hlatest hconsumer rfl (hkept rfl)
  | showing f =>
      have hfinding : v.worker.phase.finding? = some f := by
        rw [hphase]
        rfl
      exact ⟨rfl, .inr ⟨rfl, rfl⟩, hkept rfl, .inr ⟨f, hfinding, rfl⟩, .inl rfl, rfl⟩
  | publishing f => exact onward_checkOpen rfl (hkept rfl)
  | handing f =>
      obtain ⟨i, hi⟩ := v.exists_setIndicator v.worker.pass .applying
      simp only [perform, hi]
      exact onward_stand rfl rfl rfl rfl rfl (hkept rfl)
  | scheduling f =>
      simp only [perform, Consumer.schedule]
      cases hconsumer : v.consumer.isShutDown with
      | true =>
          exact onward_stand rfl rfl rfl rfl rfl (hkept rfl)
      | false =>
          have hfinding : v.worker.phase.finding? = some f := by
            rw [hphase]
            rfl
          exact ⟨rfl, .inr ⟨rfl, rfl⟩, hkept rfl, .inl rfl,
            .inr ⟨f, ⟨v.worker.pass, f.update⟩, hfinding, rfl, rfl⟩, rfl⟩
  | refused f e =>
      simp only [perform]
      split
      · exact onward_stand rfl rfl rfl rfl rfl (hkept rfl)
      · exact onward_stand rfl rfl rfl rfl rfl (hlost rfl)
  | comparing f =>
      simp only [perform]
      split
      · exact onward_stand rfl rfl rfl rfl rfl (hlost rfl)
      · exact onward_stand rfl rfl rfl rfl rfl (hlost rfl)
  | failing =>
      obtain ⟨i, hi⟩ := exists_setIndicator
        { v with counts := { v.counts with failures := v.counts.failures + 1 } } v.worker.pass .idle
      simp only [perform, hi]
      exact onward_stand rfl rfl rfl rfl rfl (hlost rfl)
  | recovering =>
      simp only [perform]
      split
      · exact onward_stand rfl rfl rfl rfl rfl (hlost rfl)
      · exact onward_stand rfl rfl rfl rfl rfl (hlost rfl)
  | resting =>
      simp only [perform]
      split
      · exact onward_stand rfl rfl rfl rfl rfl (hlost rfl)
      · exact onward_stand rfl rfl rfl rfl rfl (hlost rfl)
  | requesting | succeeding | retrying =>
      exact onward_stand rfl rfl rfl rfl rfl (hlost rfl)

theorem onward_disturb {v' : View} {s : Stage} {fault : PassError} (hphase : v.worker.phase = .pass asked s)
    (h : v.disturb asked s fault = some v') : v.Onward v' := by
  unfold disturb at h
  split at h
  · cases h
    exact onward_stand rfl rfl rfl rfl rfl (by simp [Phase.finding?, Stage.finding?])
  · cases h
    exact onward_stand rfl rfl rfl rfl rfl (by simp [Phase.finding?, Stage.finding?])
  · cases h
    refine onward_stand rfl rfl rfl rfl rfl fun f hf => ?_
    rw [hphase]
    exact hf
  · split at h
    · cases h
      have hlost (f : Finding) (hf : (Phase.pass asked .failing).finding? = some f) :
          v.worker.phase.finding? = some f := by simp [Phase.finding?, Stage.finding?] at hf
      split
      · exact ⟨rfl, .inl rfl, hlost, .inl rfl, .inl rfl, rfl⟩
      · exact ⟨rfl, .inl rfl, hlost, .inl rfl, .inl rfl, rfl⟩
    · cases h
  · cases h

theorem onward_work {v' : View} {fault? : Option PassError} (h : v.work visit fault? = some v') : v.Onward v' ∨
    ∃ asked s rebuilt, v.worker.phase = .pass asked (.computing s rebuilt) ∧
      v' = (v.compute visit s rebuilt).1.onto asked (.computed (v.compute visit s rebuilt).2) := by
  unfold work at h
  split at h
  · cases h
    exact .inl (onward_stand rfl rfl rfl rfl rfl (by simp [Phase.finding?]))
  · split at h
    · cases h
    · cases h
      exact .inl (onward_stand rfl rfl rfl rfl rfl (by simp [Phase.finding?]))
    · cases h
      exact .inl (onward_stand rfl rfl rfl rfl rfl (by simp [Phase.finding?, Stage.finding?]))
  · next asked s hphase =>
      cases h
      by_cases hs : ∃ snapshot rebuilt, s = .computing snapshot rebuilt
      · obtain ⟨snapshot, rebuilt, rfl⟩ := hs
        exact .inr ⟨asked, snapshot, rebuilt, hphase, rfl⟩
      · exact .inl (onward_perform hphase fun snapshot rebuilt hs' => hs ⟨snapshot, rebuilt, hs'⟩)
  · next hphase => exact .inl (onward_disturb hphase h)
  · cases h
    exact .inl (onward_stand rfl rfl rfl rfl rfl (by simp [Phase.finding?]))
  · cases h
    exact .inl (onward_stand rfl rfl rfl rfl rfl (by simp [Phase.finding?]))
  · cases h

end View

namespace World

inductive Carries (w : World) : Table → Prop
  | found {f : Finding} (h : w.view.worker.phase.finding? = some f) : Carries w f.update.table
  | stored {t : Table} (h : w.view.latest? = some t) : Carries w t
  | published {p : Publication} (h : p ∈ w.publications) : Carries w p.update.table
  | shown {u : Update} (h : w.view.consumer.latest? = some u) : Carries w u.table

def Computes (w : World) (t : Table) : Prop :=
  ∃ asked s rebuilt visit, w.view.worker.phase = .pass asked (.computing s rebuilt) ∧
    t = (w.view.worker.sheet.runPass visit s w.view.config.formulaCeiling?).2.1

structure Accounts (config : Config) (P : Table → Prop) (w : World) : Prop where
  config : w.view.config = config
  settled : w.view.worker.sheet.Settled
  rebuilt : w.view.worker.phase.isRebuilt = true → w.view.worker.sheet = .empty
  carried : ∀ t, w.Carries t → P t

variable {w w' : World} {config : Config} {P : Table → Prop}

theorem accounts_work {v : View} {visit : VisitOrder} {fault? : Option PassError} (h : Accounts config P w)
    (hcomputes : ∀ t, w.Computes t → P t) (hv : w.view.work visit fault? = some v) :
    Accounts config P { w with view := v } := by
  rcases View.onward_work hv with honward | ⟨asked, s, rebuilt, hphase, rfl⟩
  · refine ⟨honward.config.trans h.config, ?_, fun hrebuilt => ?_, fun t ht => ?_⟩
    · rcases honward.sheet with hsheet | ⟨hsheet, -⟩
      · rw [hsheet]
        exact Sheet.settled_empty
      · rw [hsheet]
        exact h.settled
    · rcases honward.sheet with hsheet | ⟨-, hphase⟩
      · exact hsheet
      · rw [hphase] at hrebuilt
        cases hrebuilt
    · cases ht with
      | found hf => exact h.carried _ (.found (honward.finding _ hf))
      | stored ht =>
          rcases honward.latest with hlatest | ⟨f, hf, hlatest⟩
          · exact h.carried _ (.stored (hlatest.symm.trans ht))
          · obtain rfl := Option.some.inj (hlatest.symm.trans ht)
            exact h.carried _ (.found hf)
      | published hp =>
          rcases honward.queue with hqueue | ⟨f, q, hf, hqueue, hq⟩
          · exact h.carried _ (.published (by simpa [publications, hqueue] using hp))
          · rw [publications, hqueue, ← List.append_assoc] at hp
            rcases List.mem_append.mp hp with hp | hp
            · exact h.carried _ (.published hp)
            · obtain rfl := List.mem_singleton.mp hp
              rw [hq]
              exact h.carried _ (.found hf)
      | shown hu => exact h.carried _ (.shown (honward.shown.symm.trans hu))
  · refine ⟨h.config, Sheet.settled_runPass s h.settled visit _, fun hrebuilt => ?_, fun t ht => ?_⟩
    · cases hrebuilt
    · cases ht with
      | found hf =>
          obtain rfl := Option.some.inj hf
          exact hcomputes _ ⟨asked, s, rebuilt, visit, hphase, rfl⟩
      | stored ht => exact h.carried _ (.stored ht)
      | published hp => exact h.carried _ (.published hp)
      | shown hu => exact h.carried _ (.shown hu)

theorem Accounts.beside (h : Accounts config P w) (hconfig : w'.view.config = w.view.config)
    (hworker : w'.view.worker = w.view.worker) (hlatest : w'.view.latest? = w.view.latest?)
    (hpublications : ∀ p ∈ w'.publications, p ∈ w.publications)
    (hshown : ∀ u, w'.view.consumer.latest? = some u → w.Carries u.table) : Accounts config P w' := by
  refine ⟨hconfig.trans h.config, ?_, ?_, fun t ht => ?_⟩
  · rw [hworker]
    exact h.settled
  · rw [hworker]
    exact h.rebuilt
  · cases ht with
    | found hf =>
        rw [hworker] at hf
        exact h.carried _ (.found hf)
    | stored ht => exact h.carried _ (.stored (hlatest.symm.trans ht))
    | published hp => exact h.carried _ (.published (hpublications _ hp))
    | shown hu => exact h.carried _ (hshown _ hu)

theorem accounts_attend (h : Accounts config P w) (hm : w.step .attend = some w') : Accounts config P w' := by
  simp only [step] at hm
  split at hm
  · next e herrand =>
      cases hm
      have hkept {v : View} {e? : Option Errand} (hqueue : v.consumer.queue = w.view.consumer.queue)
          (hunapplied : ∀ e' ∈ e?, e'.unapplied ⊆ e.unapplied) (p : Publication)
          (hp : p ∈ World.publications { w with view := v, errand? := e? }) : p ∈ w.publications := by
        simp only [publications, hqueue, herrand, List.append_assoc, List.mem_append] at hp ⊢
        refine hp.imp_left fun hp => ?_
        obtain ⟨e', he', hp⟩ := List.mem_flatMap.mp hp
        simpa using hunapplied e' (by simpa using he') hp
      cases e with
      | called q =>
          refine h.beside rfl rfl rfl (hkept rfl fun e' he' => ?_) fun u hu => .shown hu
          simp only [View.attend] at he'
          split at he' <;> cases he'
          exact List.Subset.refl _
      | silencing q =>
          refine h.beside rfl rfl rfl (hkept rfl fun e' he' => ?_) fun u hu => .shown hu
          cases he'
          exact List.Subset.refl _
      | applying q =>
          refine h.beside rfl rfl rfl (hkept rfl fun e' he' => ?_) fun u hu => ?_
          · cases he'
            exact List.nil_subset _
          · obtain rfl := Option.some.inj hu
            exact .published (p := q) (by simp [publications, herrand, Errand.unapplied])
      | counting q =>
          obtain ⟨i, hi⟩ := View.exists_setIndicator
            { w.view with counts := { w.view.counts with publications := w.view.counts.publications + 1 } } q.pass .idle
          simp only [View.attend, hi]
          refine h.beside rfl rfl rfl (hkept rfl fun e' he' => ?_) fun u hu => .shown hu
          cases he'
          exact List.Subset.refl _
      | comparing r =>
          refine h.beside rfl rfl rfl (hkept rfl fun e' he' => ?_) fun u hu => .shown hu
          simp only [View.attend] at he'
          split at he' <;> cases he'
          exact List.Subset.refl _
      | applied q | reading =>
          refine h.beside rfl rfl rfl (hkept rfl fun e' he' => ?_) fun u hu => .shown hu
          cases he'
          exact List.Subset.refl _
      | requesting structural =>
          refine h.beside rfl rfl rfl (hkept rfl fun e' he' => ?_) fun u hu => .shown hu
          cases he'
  · next q batch herrand hbatch =>
      cases hm
      refine h.beside rfl rfl rfl (fun p hp => ?_) fun u hu => .shown hu
      simpa [publications, herrand, hbatch, Errand.unapplied] using hp
  · cases hm

theorem accounts_step {m : Move} (h : Accounts config P w) (hcomputes : ∀ t, w.Computes t → P t)
    (hm : w.step m = some w') : Accounts config P w' := by
  cases m with
  | work visit fault? =>
      obtain ⟨v, hv, rfl⟩ := Option.map_eq_some_iff.mp hm
      exact accounts_work h hcomputes hv
  | drain =>
      simp only [step] at hm
      split at hm
      · next hbatch herrand =>
          cases hm
          refine h.beside rfl rfl rfl (fun p hp => ?_) fun u hu => .shown hu
          simpa [publications, hbatch, herrand, Consumer.drain] using hp
      · cases hm
  | attend => exact accounts_attend h hm
  | shutDown =>
      cases hm
      refine h.beside rfl rfl rfl (fun p hp => ?_) fun u hu => .shown hu
      simp only [publications, Consumer.shutDown, List.append_nil] at hp
      exact List.mem_append_left _ hp
  | _ =>
      obtain ⟨hcore, hbatch, herrand⟩ := core_step hm (by simp) (by simp) (by simp) (by simp)
      simp only [View.core, Prod.mk.injEq] at hcore
      obtain ⟨hconfig, hworker, hlatest, hconsumer⟩ := hcore
      refine h.beside hconfig hworker hlatest (fun p hp => ?_) fun u hu => .shown (hconsumer ▸ hu)
      simpa [publications, hbatch, herrand, hconsumer] using hp

theorem accounts_start {source : Source Unit} {v : View} (h : View.start source config = .ok v) :
    Accounts config P ⟨v, [], none, []⟩ := by
  unfold View.start at h
  split at h
  · cases h
  · cases h
    refine ⟨rfl, Sheet.settled_empty, fun hrebuilt => ?_, fun t ht => ?_⟩
    · cases hrebuilt
    · cases ht with
      | found hf => cases hf
      | stored ht => cases ht
      | published hp => simp [publications] at hp
      | shown hu => cases hu

def Origin (start : World) (history : List Move) (t : Table) : Prop :=
  ∃ before u, before <+: history ∧ start.run before = some u ∧ u.Computes t

theorem accounts_run {source : Source Unit} {v : View} {history : List Move}
    (hstart : View.start source config = .ok v) (hrun : World.run ⟨v, [], none, []⟩ history = some w) :
    Accounts config (Origin ⟨v, [], none, []⟩ history) w := by
  refine run_induction (motive := fun history w => Accounts config (Origin ⟨v, [], none, []⟩ history) w) hrun
    (accounts_start hstart) fun before u m u' hu hm h => ?_
  have hlonger (t : Table) (ht : Origin ⟨v, [], none, []⟩ before t) : Origin ⟨v, [], none, []⟩ (before ++ [m]) t := by
    obtain ⟨before', u, hbefore, hu, ht⟩ := ht
    exact ⟨before', u, hbefore.trans (List.prefix_append before [m]), hu, ht⟩
  refine accounts_step ⟨h.config, h.settled, h.rebuilt, fun t ht => hlonger t (h.carried t ht)⟩ (fun t ht => ?_) hm
  exact ⟨before, u, List.prefix_append before [m], hu, ht⟩

end World

end LiveSheet
