import LiveSheet.Proofs.View.Computed
import LiveSheet.Proofs.View.Refusals

namespace LiveSheet

def Update.LaysOut (config : Config) (P : Table → Prop) (u : Update) (columns : Stamped Schema) : Prop :=
  u.schema? = some columns ∧ ∃ t, P t ∧ t.schema = columns ∧ u.ranges? = some (config.rangesOf t)

def Phase.handed? : Phase → Option (Stamped Schema)
  | .pass _ (.serving f) => f.update.schema?
  | _ => none

namespace World

/-- A pass that was not asked to rebuild had adopted the columns when its publication was refused, and nothing that
carries columns was handed over since. -/
inductive Slipped (start : World) (columns : Stamped Schema) : List Move → Prop
  | refused {history : List Move} {w : World} {f : Finding} {e : PublishError} (hrun : start.run history = some w)
      (hphase : w.view.worker.phase = .pass false (.refused f e)) (hcolumns : f.update.schema? = some columns) :
      Slipped start columns history
  | since {history : List Move} {m : Move} {w : World} (h : Slipped start columns history)
      (hrun : start.run (history ++ [m]) = some w) (hphase : w.view.worker.phase.handed? = none) :
      Slipped start columns (history ++ [m])

/-- A pass was about to hand over a table without its columns, which had slipped. -/
def HandsBare (start : World) (history : List Move) (columns : Stamped Schema) : Prop :=
  ∃ before u asked f, before <+: history ∧ start.run before = some u ∧
    u.view.worker.phase = .pass asked (.scheduling f) ∧ f.update.schema? = none ∧ f.update.table.schema = columns ∧
    Slipped start columns before

def Fits (start : World) (history : List Move) (u : Update) : Prop :=
  u.LaysOut start.view.config (Origin start history) u.table.schema ∨ HandsBare start history u.table.schema

variable {start w w' : World} {history : List Move} {m : Move} {columns : Stamped Schema}

theorem Slipped.quiet (h : Slipped start columns history) (hrun : start.run history = some w) :
    w.view.worker.phase.handed? = none := by
  cases h with
  | refused hrun' hphase =>
      obtain rfl := Option.some.inj (hrun.symm.trans hrun')
      rw [hphase]
      rfl
  | since _ hrun' hphase =>
      obtain rfl := Option.some.inj (hrun.symm.trans hrun')
      exact hphase

theorem Slipped.exists_refuses (h : Slipped start columns history) :
    ∃ before w, before <+: history ∧ start.run before = some w ∧ w.view.worker.phase.refuses false = true := by
  induction h with
  | refused hrun hphase _ => exact ⟨_, _, List.prefix_refl _, hrun, by rw [hphase]; rfl⟩
  | since _ _ _ ih =>
      obtain ⟨before, w, hbefore, h⟩ := ih
      exact ⟨before, w, hbefore.trans (List.prefix_append _ _), h⟩

theorem Origin.longer {t : Table} (h : Origin start history t) : Origin start (history ++ [m]) t := by
  obtain ⟨before, u, hbefore, hu, ht⟩ := h
  exact ⟨before, u, hbefore.trans (List.prefix_append history [m]), hu, ht⟩

theorem LaysOut.longer {u : Update} (h : u.LaysOut start.view.config (Origin start history) columns) :
    u.LaysOut start.view.config (Origin start (history ++ [m])) columns := by
  obtain ⟨hschema, t, ht, hcolumns, hranges⟩ := h
  exact ⟨hschema, t, ht.longer, hcolumns, hranges⟩

theorem Fits.longer {u : Update} (h : Fits start history u) : Fits start (history ++ [m]) u := by
  rcases h with h | ⟨before, v, asked, f, hbefore, h⟩
  · exact .inl (LaysOut.longer h)
  · exact .inr ⟨before, v, asked, f, hbefore.trans (List.prefix_append history [m]), h⟩

def Tells (start : World) (history : List Move) (w : World) (columns : Stamped Schema) : Prop :=
  ∃ u, w.told = some u ∧ u.LaysOut start.view.config (Origin start history) columns

/-- The consumer is told of the columns that the worker adopted, or a pass will be asked to rebuild, or they slipped. -/
def Knows (start : World) (history : List Move) (w : World) (asked : Bool) : Prop :=
  ∀ columns, w.view.worker.schema? = some columns →
    Tells start history w columns ∨ asked = true ∨ Slipped start columns history

structure Finds (start : World) (history : List Move) (w : World) (asked : Bool) (f : Finding) : Prop where
  adopted : w.view.worker.schema? = some f.update.table.schema
  origin : Origin start history f.update.table
  ranges : ∀ rs ∈ f.update.ranges?, rs = start.view.config.rangesOf f.update.table
  carried : f.update.schema? = some f.update.table.schema ∧ f.update.ranges?.isSome = true ∨
    f.update.schema? = none ∧ asked = false ∧
      (Tells start history w f.update.table.schema ∨ Slipped start f.update.table.schema history)

def Copies (w : World) (s : Snapshot) : Prop :=
  (∀ columns, w.view.worker.schema? = some columns → columns.Precedes s.schema) ∧
    s.schema.Precedes w.view.source.data.schema

def Keeps (start : World) (history : List Move) (w : World) (asked : Bool) : Stage → Prop
  | .copied s | .noted s | .preparing s => Knows start history w asked ∧ w.Copies s
  | .rebuilding s => s.schema.Precedes w.view.source.data.schema
  | .computing s rebuilt => w.view.worker.schema? = some s.schema ∧
      (rebuilt = true ∨ asked = false ∧ (Tells start history w s.schema ∨ Slipped start s.schema history))
  | .computed f | .silencing f | .storing f | .telling f _ | .showing f => Finds start history w asked f
  | .publishing f | .handing f | .scheduling f | .refused f _ => Finds start history w asked f
  | .serving _ | .comparing _ | .requesting _ | .succeeding => Knows start history w false
  | _ => Knows start history w asked

def Agrees (start : World) (history : List Move) (w : World) (structural : Bool) : Phase → Prop
  | .pass asked s => Keeps start history w asked s
  | .turning | .waiting | .finishing => Knows start history w structural
  | .stopping | .stopped => True

structure Lays (start : World) (history : List Move) (w : World) : Prop where
  config : w.view.config = start.view.config
  stamped : w.view.source.data.IsStamped
  fits : ∀ ps, ps <+: w.due → ∀ u, showing w.view.consumer.latest? ps = some u → Fits start history u
  known : w.view.IsServing → ∀ columns, w.view.worker.schema? = some columns →
    columns.Precedes w.view.source.data.schema
  agrees : w.view.IsServing → Agrees start history w w.view.tracker.isStructural w.view.worker.phase

theorem Lays.keeps {start w : World} {history : List Move} {asked : Bool} {s : Stage} (h : Lays start history w)
    (hphase : w.view.worker.phase = .pass asked s) (hserving : w.view.IsServing) : Keeps start history w asked s := by
  have hagrees := h.agrees hserving
  rw [hphase] at hagrees
  exact hagrees

structure Alongside (start : World) (history : List Move) (m : Move) (w w' : World) : Prop where
  adopted : w'.view.worker.schema? = w.view.worker.schema?
  told : w'.told = w.told
  live : w.view.source.data.schema.Precedes w'.view.source.data.schema
  slipped : ∀ columns, Slipped start columns history → Slipped start columns (history ++ [m])

variable {asked structural structural' : Bool} {f : Finding}

theorem Tells.alongside (h : Tells start history w columns) (ha : Alongside start history m w w') :
    Tells start (history ++ [m]) w' columns := by
  obtain ⟨u, hu, hlayout⟩ := h
  exact ⟨u, ha.told.trans hu, LaysOut.longer hlayout⟩

theorem Knows.alongside (h : Knows start history w asked) (ha : Alongside start history m w w') :
    Knows start (history ++ [m]) w' asked := by
  intro columns hcolumns
  rw [ha.adopted] at hcolumns
  rcases h columns hcolumns with h | h | h
  · exact .inl (h.alongside ha)
  · exact .inr (.inl h)
  · exact .inr (.inr (ha.slipped columns h))

theorem Knows.mono (h : Knows start history w structural) (hs : structural = true → structural' = true) :
    Knows start history w structural' := fun columns hcolumns => (h columns hcolumns).imp_right (.imp_left hs)

theorem Finds.alongside (h : Finds start history w asked f) (ha : Alongside start history m w w') :
    Finds start (history ++ [m]) w' asked f := by
  refine ⟨ha.adopted.trans h.adopted, h.origin.longer, h.ranges, h.carried.imp_right fun ⟨hbare, hasked, htold⟩ => ?_⟩
  exact ⟨hbare, hasked, htold.imp (·.alongside ha) (ha.slipped _)⟩

theorem Copies.alongside {s : Snapshot} (h : w.Copies s) (ha : Alongside start history m w w') : w'.Copies s := by
  refine ⟨fun columns hcolumns => h.1 columns (ha.adopted ▸ hcolumns), h.2.trans ha.live⟩

theorem Keeps.alongside {s : Stage} (h : Keeps start history w asked s) (ha : Alongside start history m w w') :
    Keeps start (history ++ [m]) w' asked s := by
  cases s with
  | copied s | noted s | preparing s => exact ⟨Knows.alongside h.1 ha, Copies.alongside h.2 ha⟩
  | rebuilding s => exact Stamped.Precedes.trans h ha.live
  | computing s rebuilt =>
      refine ⟨ha.adopted.trans h.1, h.2.imp_right fun ⟨hasked, htold⟩ => ⟨hasked, ?_⟩⟩
      exact htold.imp (·.alongside ha) (ha.slipped _)
  | computed f | silencing f | storing f | showing f | publishing f | handing f | scheduling f =>
      exact Finds.alongside h ha
  | telling f notice? => exact Finds.alongside h ha
  | refused f e => exact Finds.alongside h ha
  | _ => exact Knows.alongside h ha

theorem Agrees.alongside {p : Phase} (h : Agrees start history w structural p) (ha : Alongside start history m w w') :
    Agrees start (history ++ [m]) w' structural p := by
  cases p with
  | pass asked s => exact Keeps.alongside h ha
  | turning | waiting | finishing => exact Knows.alongside h ha
  | stopping | stopped => trivial

theorem Agrees.mono {p : Phase} (h : Agrees start history w structural p)
    (hs : structural = true → structural' = true) : Agrees start history w structural' p := by
  cases p with
  | pass asked s => exact h
  | turning | waiting | finishing => exact Knows.mono h hs
  | stopping | stopped => trivial

theorem adopted_perform (v : View) (visit : VisitOrder) (asked : Bool) {s : Stage} (hrebuild : ∀ c, s ≠ .rebuilding c)
    (hschedule : ∀ f, s ≠ .scheduling f) : (v.perform visit asked s).worker.schema? = v.worker.schema? ∧
      (v.perform visit asked s).consumer = v.consumer ∧ (v.perform visit asked s).config = v.config := by
  cases s with
  | noted s | computed f | publishing f =>
      simp only [View.perform, View.checkOpen]
      split <;> exact ⟨rfl, rfl, rfl⟩
  | preparing s =>
      simp only [View.perform]
      split <;> exact ⟨rfl, rfl, rfl⟩
  | rebuilding s => exact absurd rfl (hrebuild s)
  | telling f notice? =>
      have hcore := v.core_tellAny notice?
      simp only [View.core, Prod.mk.injEq] at hcore
      obtain ⟨hconfig, hworker, -, hconsumer⟩ := hcore
      exact ⟨congrArg (·.schema?) hworker, hconsumer, hconfig⟩
  | handing f =>
      obtain ⟨i, hi⟩ := v.exists_setIndicator v.worker.pass .applying
      simp only [View.perform, hi]
      exact ⟨rfl, rfl, rfl⟩
  | scheduling f => exact absurd rfl (hschedule f)
  | refused f e =>
      simp only [View.perform]
      split <;> exact ⟨rfl, rfl, rfl⟩
  | comparing f =>
      simp only [View.perform]
      split <;> exact ⟨rfl, rfl, rfl⟩
  | failing =>
      obtain ⟨i, hi⟩ := View.exists_setIndicator
        { v with counts := { v.counts with failures := v.counts.failures + 1 } } v.worker.pass .idle
      simp only [View.perform, hi]
      exact ⟨rfl, rfl, rfl⟩
  | recovering | resting =>
      simp only [View.perform]
      split <;> exact ⟨rfl, rfl, rfl⟩
  | _ => exact ⟨rfl, rfl, rfl⟩

variable {visit : VisitOrder}

theorem schema_runPass (sheet : Sheet) (s : Snapshot) (ceiling? : Option Nat) :
    (sheet.runPass visit s ceiling?).2.1.schema = s.schema := by
  unfold Sheet.runPass
  split <;> rfl

theorem finds_compute {s : Snapshot} {rebuilt : Bool} (hrun : start.run history = some w)
    (hphase : w.view.worker.phase = .pass asked (.computing s rebuilt)) (hconfig : w.view.config = start.view.config)
    (h : Keeps start history w asked (.computing s rebuilt)) :
    Finds start history w asked (w.view.compute visit s rebuilt).2 := by
  have hschema : (w.view.compute visit s rebuilt).2.update.table.schema = s.schema := schema_runPass ..
  have horigin : Origin start history (w.view.compute visit s rebuilt).2.update.table :=
    ⟨history, w, List.prefix_refl history, hrun, asked, s, rebuilt, visit, hphase, rfl⟩
  have hcarried : (w.view.compute visit s rebuilt).2.update.schema? = if rebuilt then some s.schema else none := rfl
  have hranges : (w.view.compute visit s rebuilt).2.update.ranges? =
      if rebuilt || w.view.resets != w.view.worker.served then
        some (w.view.config.rangesOf (w.view.compute visit s rebuilt).2.update.table)
      else none := rfl
  obtain ⟨hadopted, htold⟩ := h
  generalize (w.view.compute visit s rebuilt).2 = f at hschema horigin hcarried hranges
  rw [← hschema] at hadopted htold hcarried
  refine ⟨hadopted, horigin, fun rs hrs => ?_, ?_⟩
  · rw [hranges, hconfig] at hrs
    split at hrs
    · exact (Option.some.inj hrs).symm
    · cases hrs
  · cases rebuilt with
    | true => exact .inl ⟨hcarried, by rw [hranges]; rfl⟩
    | false => exact .inr ⟨hcarried, by simpa using htold⟩

theorem agrees_perform {s : Stage} (hrun : start.run history = some w) (hphase : w.view.worker.phase = .pass asked s)
    (h : Lays start history w) (hserving : w.view.IsServing) (hrebuild : ∀ c, s ≠ .rebuilding c)
    (hschedule : ∀ f, s ≠ .scheduling f) :
    Agrees start history w (w.view.perform visit asked s).tracker.isStructural
      (w.view.perform visit asked s).worker.phase := by
  have hopen := hserving.1
  have hkeeps := h.keeps hphase hserving
  cases s with
  | copying => exact ⟨hkeeps, h.known hserving, .refl _⟩
  | noted s =>
      simp only [View.perform, View.checkOpen_of_open hopen]
      exact hkeeps
  | preparing s =>
      obtain ⟨hknows, hcopies⟩ := hkeeps
      simp only [View.perform]
      split
      · exact hcopies.2
      · next hsame =>
          simp only [Bool.or_eq_true, not_or, Bool.not_eq_true] at hsame
          obtain ⟨rfl, hforeign⟩ := hsame
          cases hadopted : w.view.worker.schema? with
          | none => simp [Worker.isForeign, hadopted] at hforeign
          | some columns =>
              have hstamp : columns.stamp = s.schema.stamp := by simpa [Worker.isForeign, hadopted] using hforeign
              obtain rfl := (hcopies.1 columns hadopted).eq_of_stamp hstamp
              exact ⟨hadopted, .inr ⟨rfl, by simpa using hknows _ hadopted⟩⟩
  | rebuilding s => exact absurd rfl (hrebuild s)
  | computing s rebuilt => exact finds_compute hrun hphase h.config hkeeps
  | computed f =>
      simp only [View.perform, View.checkOpen_of_open hopen]
      split <;> exact hkeeps
  | telling f notice? => exact hkeeps
  | publishing f =>
      simp only [View.perform, View.checkOpen_of_open hopen]
      exact hkeeps
  | handing f =>
      obtain ⟨i, hi⟩ := w.view.exists_setIndicator w.view.worker.pass .applying
      simp only [View.perform, hi]
      exact hkeeps
  | scheduling f => exact absurd rfl (hschedule f)
  | refused f e =>
      simp only [View.perform, hopen, Bool.false_eq_true, if_false]
      intro columns hcolumns
      obtain rfl := Option.some.inj (hcolumns.symm.trans hkeeps.adopted)
      rcases hkeeps.carried with ⟨hcarried, -⟩ | ⟨-, -, htold⟩
      · cases asked with
        | true => exact .inr (.inl rfl)
        | false => exact .inr (.inr (.refused hrun hphase hcarried))
      · exact htold.imp_right .inr
  | comparing f =>
      simp only [View.perform]
      split <;> exact hkeeps
  | succeeding => exact Knows.mono hkeeps (by simp)
  | failing =>
      obtain ⟨i, hi⟩ := View.exists_setIndicator
        { w.view with counts := { w.view.counts with failures := w.view.counts.failures + 1 } } w.view.worker.pass .idle
      simp only [View.perform, hi]
      exact hkeeps
  | recovering | resting =>
      simp only [View.perform, hopen, Bool.false_eq_true, if_false]
      exact hkeeps
  | retrying =>
      refine Knows.mono hkeeps fun hasked => ?_
      simp [View.perform, View.stand, View.mark, Tracker.mark, hasked]
  | _ => exact hkeeps

theorem handed?_perform {v : View} {s : Stage} (hopen : v.isClosed = false) (hschedule : ∀ f, s ≠ .scheduling f) :
    (v.perform visit asked s).worker.phase.handed? = none := by
  cases s with
  | noted s | publishing f =>
      simp only [View.perform, View.checkOpen_of_open hopen]
      rfl
  | computed f =>
      simp only [View.perform, View.checkOpen_of_open hopen]
      split <;> rfl
  | preparing s =>
      simp only [View.perform]
      split <;> rfl
  | scheduling f => exact absurd rfl (hschedule f)
  | refused f e =>
      simp only [View.perform, hopen, Bool.false_eq_true, if_false]
      rfl
  | comparing f =>
      simp only [View.perform]
      split <;> rfl
  | recovering | resting =>
      simp only [View.perform, hopen, Bool.false_eq_true, if_false]
      rfl
  | _ => rfl

theorem told_eq (hopen : w.view.isClosed = false) (hopen' : w'.view.isClosed = false)
    (hlatest : w'.view.consumer.latest? = w.view.consumer.latest?) (hpublications : w'.publications = w.publications) :
    w'.told = w.told := by
  rw [told, told, due_of_open hopen, due_of_open hopen', hlatest, hpublications]

theorem Lays.alongside (h : Lays start history w) (hconfig : w'.view.config = w.view.config)
    (hdata : w.view.source.data.Advances w'.view.source.data)
    (hlatest : w'.view.consumer.latest? = w.view.consumer.latest?) (hdue : w'.due <+: w.due)
    (hserving : w'.view.IsServing → w.view.IsServing)
    (hagrees : w'.view.IsServing → Alongside start history m w w' ∧
      Agrees start history w w'.view.tracker.isStructural w'.view.worker.phase) : Lays start (history ++ [m]) w' where
  config := hconfig.trans h.config
  stamped := hdata.stamped h.stamped
  fits ps hps u hu := (h.fits ps (hps.trans hdue) u (hlatest ▸ hu)).longer
  known hw columns hcolumns := by
    rw [(hagrees hw).1.adopted] at hcolumns
    exact (h.known (hserving hw) columns hcolumns).trans (hdata.precedes h.stamped)
  agrees hw := (hagrees hw).2.alongside (hagrees hw).1

theorem Lays.stand {v : View} (h : Lays start history w)
    (hrun' : start.run (history ++ [m]) = some { w with view := v }) (hconfig : v.config = w.view.config)
    (hdata : w.view.source.data.Advances v.source.data) (hclosed : w.view.isClosed = true → v.isClosed = true)
    (hserving : v.IsServing → w.view.IsServing) (hconsumer : v.consumer = w.view.consumer)
    (hadopted : v.worker.schema? = w.view.worker.schema?) (hagrees : w.view.IsServing →
      v.worker.phase.handed? = none ∧ Agrees start history w v.tracker.isStructural v.worker.phase) :
    Lays start (history ++ [m]) { w with view := v } := by
  have hpublications : publications { w with view := v } = w.publications := by
    rw [publications, hconsumer, publications]
  have hlatest : v.consumer.latest? = w.view.consumer.latest? := congrArg Consumer.latest? hconsumer
  refine h.alongside hconfig hdata hlatest ?_ hserving fun hv => ?_
  · exact due_isPrefix rfl rfl (congrArg Consumer.queue hconsumer ▸ List.prefix_refl _) hclosed
  · have hw := hserving hv
    exact ⟨⟨hadopted, told_eq hw.1 hv.1 hlatest hpublications, hdata.precedes h.stamped,
      fun columns hslipped => .since hslipped hrun' (hagrees hw).1⟩, (hagrees hw).2⟩

theorem Finds.over_told (h : Finds start history w asked f) :
    (f.update.over w.told).LaysOut start.view.config (Origin start history) f.update.table.schema ∨
      f.update.schema? = none ∧ Slipped start f.update.table.schema history := by
  have hown (rs : List FilterRange) (hrs : f.update.ranges? = some rs) :
      ∃ t, Origin start history t ∧ t.schema = f.update.table.schema ∧ some rs = some (start.view.config.rangesOf t) :=
    ⟨f.update.table, h.origin, rfl, congrArg some (h.ranges rs hrs)⟩
  rcases h.carried with ⟨hcarried, hranges⟩ | ⟨hbare, -, ⟨u, hu, hcolumns, htable⟩ | hslipped⟩
  · obtain ⟨rs, hrs⟩ := Option.isSome_iff_exists.mp hranges
    refine .inl ⟨?_, ?_⟩
    · rw [Update.over, hcarried]
      rfl
    · rw [Update.over, hrs]
      exact hown rs hrs
  · refine .inl ⟨?_, ?_⟩
    · rw [Update.over, hbare, hu]
      exact hcolumns
    · rw [Update.over, hu]
      cases hrs : f.update.ranges? with
      | none => exact htable
      | some rs => exact hown rs hrs
  · exact .inr ⟨hbare, hslipped⟩

theorem Lays.handed {p : Publication} (h : Lays start history w) (hrun : start.run history = some w)
    (hphase : w.view.worker.phase = .pass asked (.scheduling f)) (hserving : w.view.IsServing)
    (hrun' : start.run (history ++ [m]) = some w') (hconfig : w'.view.config = w.view.config)
    (hdata : w'.view.source.data = w.view.source.data) (hlatest : w'.view.consumer.latest? = w.view.consumer.latest?)
    (hdue : w'.due = w.due ++ [p]) (hp : p.update = f.update)
    (hadopted : w'.view.worker.schema? = w.view.worker.schema?)
    (hphase' : w'.view.worker.phase = .pass asked (.serving f)) : Lays start (history ++ [m]) w' := by
  have hfinds : Finds start history w asked f := h.keeps hphase hserving
  have htold : w'.told = some (f.update.over w.told) := by
    rw [told, hdue, hlatest, showing, List.foldl_append, ← hp]
    rfl
  refine ⟨hconfig.trans h.config, hdata ▸ h.stamped, fun ps hps u hu => ?_, fun _ columns hcolumns => ?_, fun _ => ?_⟩
  · rw [hdue, List.prefix_concat_iff] at hps
    rcases hps with rfl | hps
    · have hshown : w'.told = some u := by
        rw [told, hdue]
        exact hu
      obtain rfl := Option.some.inj (htold.symm.trans hshown)
      refine Fits.longer ?_
      rcases hfinds.over_told with hlayout | ⟨hbare, hslipped⟩
      · exact .inl hlayout
      · exact .inr ⟨history, w, asked, f, List.prefix_refl history, hrun, hphase, hbare, rfl, hslipped⟩
    · exact (h.fits ps hps u (hlatest ▸ hu)).longer
  · rw [hadopted] at hcolumns
    exact hdata ▸ h.known hserving columns hcolumns
  · rw [hphase']
    intro columns hcolumns
    rw [hadopted] at hcolumns
    obtain rfl := Option.some.inj (hcolumns.symm.trans hfinds.adopted)
    rcases hfinds.over_told with hlayout | ⟨hbare, hslipped⟩
    · exact .inl ⟨_, htold, LaysOut.longer hlayout⟩
    · refine .inr (.inr (.since hslipped hrun' ?_))
      rw [hphase']
      exact hbare

theorem lays_scheduling (hrun : start.run history = some w) (hphase : w.view.worker.phase = .pass asked (.scheduling f))
    (h : Lays start history w)
    (hrun' : start.run (history ++ [m]) = some { w with view := w.view.perform visit asked (.scheduling f) }) :
    Lays start (history ++ [m]) { w with view := w.view.perform visit asked (.scheduling f) } := by
  simp only [View.perform, Consumer.schedule] at hrun' ⊢
  cases hshut : w.view.consumer.isShutDown with
  | true =>
      have hgone (hw : w.view.IsServing) : False := by simp [View.IsServing, hshut] at hw
      simp only [if_true]
      exact h.alongside rfl (.refl _) rfl (List.prefix_refl _) id fun hserving' => (hgone hserving').elim
  | false =>
      simp only [hshut, Bool.false_eq_true, if_false] at hrun' ⊢
      cases hclosed : w.view.isClosed with
      | true =>
          have hgone (hw : w.view.IsServing) : False := by simp [View.IsServing, hclosed] at hw
          refine h.alongside rfl (.refl _) rfl ?_ (fun hserving' => ⟨hserving'.1, hshut⟩)
            fun hserving' => (hgone ⟨hserving'.1, hshut⟩).elim
          exact ⟨[], (List.append_nil _).trans (due_queued_of_closed hclosed hclosed)⟩
      | false =>
          exact h.handed (p := ⟨w.view.worker.pass, f.update⟩) hrun hphase ⟨hclosed, hshut⟩ hrun' rfl rfl rfl
            (due_queued_of_open rfl hclosed hclosed) rfl rfl rfl

theorem lays_perform {s : Stage} (hrun : start.run history = some w) (hphase : w.view.worker.phase = .pass asked s)
    (h : Lays start history w)
    (hrun' : start.run (history ++ [m]) = some { w with view := w.view.perform visit asked s }) :
    Lays start (history ++ [m]) { w with view := w.view.perform visit asked s } := by
  have hages := w.view.ages_perform visit asked s
  have hserves := w.view.isServing_perform visit asked s
  by_cases hquiet : (∀ c, s ≠ .rebuilding c) ∧ ∀ f, s ≠ .scheduling f
  · obtain ⟨hadopted, hconsumer, hconfig⟩ := adopted_perform w.view visit asked hquiet.1 hquiet.2
    refine h.stand hrun' hconfig hages.data hages.closed hserves.mp hconsumer hadopted fun hserving => ⟨?_, ?_⟩
    · exact handed?_perform hserving.1 hquiet.2
    · exact agrees_perform hrun hphase h hserving hquiet.1 hquiet.2
  · cases s with
    | rebuilding c =>
        refine ⟨h.config, h.stamped, fun ps hps u hu => (h.fits ps hps u hu).longer,
          fun hserving' columns hcolumns => ?_, fun _ => ⟨rfl, .inl rfl⟩⟩
        obtain rfl := Option.some.inj hcolumns
        exact h.keeps hphase (hserves.mp hserving')
    | scheduling f => exact lays_scheduling hrun hphase h hrun'
    | _ => exact absurd ⟨by simp, by simp⟩ hquiet

theorem lays_disturb {s : Stage} {fault : PassError} {v : View} (hphase : w.view.worker.phase = .pass asked s)
    (h : Lays start history w) (hv : w.view.disturb asked s fault = some v)
    (hrun' : start.run (history ++ [m]) = some { w with view := v }) :
    Lays start (history ++ [m]) { w with view := v } := by
  have hkeeps (hserving : w.view.IsServing) : Keeps start history w asked s := h.keeps hphase hserving
  unfold View.disturb at hv
  split at hv
  · cases hv
    exact h.stand hrun' rfl (.refl _) id id rfl rfl fun hserving => ⟨rfl, hkeeps hserving⟩
  · cases hv
    exact h.stand hrun' rfl (.refl _) id id rfl rfl fun hserving => ⟨rfl, (hkeeps hserving).1⟩
  · cases hv
    exact h.stand hrun' rfl (.refl _) id id rfl rfl fun hserving => ⟨rfl, hkeeps hserving⟩
  · -- a pass that breaks forgets what it adopted
    split at hv
    · cases hv
      cases s.isSilent <;>
        exact ⟨h.config, h.stamped, fun ps hps u hu => (h.fits ps hps u hu).longer,
          fun _ _ hcolumns => (nomatch hcolumns), fun _ _ hcolumns => (nomatch hcolumns)⟩
    · cases hv
  · cases hv

theorem lays_work {fault? : Option PassError} (hrun : start.run history = some w) (h : Lays start history w)
    (hm : w.step (.work visit fault?) = some w') :
    Lays start (history ++ [.work visit fault?]) w' := by
  have hrun' := run_append hrun hm
  obtain ⟨v, hv, rfl⟩ := Option.map_eq_some_iff.mp hm
  have hagrees (p : Phase) (hphase : w.view.worker.phase = p) (hserving : w.view.IsServing) :
      Agrees start history w w.view.tracker.isStructural p := hphase ▸ h.agrees hserving
  unfold View.work at hv
  split at hv
  · next hphase =>
      cases hv
      exact h.stand hrun' rfl (.refl _) id id rfl rfl fun hserving => ⟨rfl, hagrees .turning hphase hserving⟩
  · next hphase =>
      simp only [Tracker.take] at hv
      split at hv
      · cases hv
      · next tracker htake =>
          cases hv
          split at htake
          · cases htake
            exact h.stand hrun' rfl (.refl _) id id rfl rfl fun _ => ⟨rfl, trivial⟩
          · split at htake <;> cases htake
      · next tracker asked htake =>
          cases hv
          split at htake
          · cases htake
          · split at htake
            · cases htake
              exact h.stand hrun' rfl (.refl _) id id rfl rfl fun hserving => ⟨rfl, hagrees _ hphase hserving⟩
            · cases htake
  · next hphase =>
      cases hv
      exact lays_perform hrun hphase h hrun'
  · next hphase => exact lays_disturb hphase h hv hrun'
  · next hphase =>
      cases hv
      exact h.stand hrun' rfl (.refl _) id id rfl rfl fun hserving => ⟨rfl, hagrees .finishing hphase hserving⟩
  · next hphase =>
      cases hv
      exact h.stand hrun' rfl (.refl _) id id rfl rfl fun _ => ⟨rfl, trivial⟩
  · cases hv

theorem Lays.beside (h : Lays start history w) (hrun : start.run history = some w) (hm : w.step m = some w')
    (hwork : ∀ visit fault?, m ≠ .work visit fault?)
    (hfits : ∀ ps, ps <+: w'.due → ∀ u, showing w'.view.consumer.latest? ps = some u → Fits start history u)
    (htold : w'.view.IsServing → w'.told = w.told) : Lays start (history ++ [m]) w' := by
  have hages := ages_step hm hwork
  have hworker := worker_step hm hwork
  have hadopted : w'.view.worker.schema? = w.view.worker.schema? := congrArg Worker.schema? hworker
  have hslipped (columns : Stamped Schema) (hslipped : Slipped start columns history) :
      Slipped start columns (history ++ [m]) :=
    .since hslipped (run_append hrun hm) (by rw [hworker]; exact hslipped.quiet hrun)
  refine ⟨hages.config.trans h.config, hages.data.stamped h.stamped, fun ps hps u hu => (hfits ps hps u hu).longer,
    fun hserving columns hcolumns => ?_, fun hserving => ?_⟩
  · rw [hadopted] at hcolumns
    exact (h.known (isServing_step hm hserving) columns hcolumns).trans (hages.data.precedes h.stamped)
  · rw [hworker]
    exact ((h.agrees (isServing_step hm hserving)).mono hages.structural).alongside
      ⟨hadopted, htold hserving, hages.data.precedes h.stamped, hslipped⟩

theorem lays_attend (hrun : start.run history = some w) (h : Lays start history w) (hm : w.step .attend = some w') :
    Lays start (history ++ [.attend]) w' := by
  rcases due_attend hm with ⟨hdue, hlatest⟩ | ⟨p, hdue, hlatest⟩
  · refine h.beside hrun hm (by simp) (fun ps hps u hu => ?_) fun _ => ?_
    · exact h.fits ps (hdue ▸ hps) u (hlatest ▸ hu)
    · rw [told, told, hdue, hlatest]
  · refine h.beside hrun hm (by simp) (fun ps hps u hu => ?_) fun _ => ?_
    · refine h.fits (p :: ps) (hdue ▸ (List.prefix_cons_inj p).mpr hps) u ?_
      rw [hlatest] at hu
      exact hu
    · rw [told, told, hdue, hlatest]
      rfl

theorem lays_step (hrun : start.run history = some w) (h : Lays start history w) (hm : w.step m = some w') :
    Lays start (history ++ [m]) w' := by
  cases m with
  | work visit fault? => exact lays_work hrun h hm
  | drain =>
      obtain ⟨hdue, hlatest⟩ := due_drain hm
      refine h.beside hrun hm (by simp) (fun ps hps u hu => ?_) fun _ => ?_
      · exact h.fits ps (hdue ▸ hps) u (hlatest ▸ hu)
      · rw [told, told, hdue, hlatest]
  | attend => exact lays_attend hrun h hm
  | shutDown =>
      have hshut := hm
      cases hshut
      refine h.beside hrun hm (by simp) (fun ps hps u hu => ?_) fun hserving => ?_
      · exact h.fits ps (hps.trans (due_isPrefix rfl rfl List.nil_prefix id)) u hu
      · cases hserving.2
  | _ =>
      obtain ⟨hcore, hbatch, herrand⟩ := core_step hm (by simp) (by simp) (by simp) (by simp)
      simp only [View.core, Prod.mk.injEq] at hcore
      obtain ⟨-, -, -, hconsumer⟩ := hcore
      have hlatest : w'.view.consumer.latest? = w.view.consumer.latest? := congrArg Consumer.latest? hconsumer
      refine h.beside hrun hm (by simp) (fun ps hps u hu => ?_) fun hserving => ?_
      · refine h.fits ps (hps.trans ?_) u (hlatest ▸ hu)
        exact due_isPrefix herrand hbatch (congrArg Consumer.queue hconsumer ▸ List.prefix_refl _)
          (ages_step hm (by simp)).closed
      · refine told_eq (isServing_step hm hserving).1 hserving.1 hlatest ?_
        rw [publications, publications, herrand, hbatch, hconsumer]

theorem lays_start {source : Source Unit} {config : Config} {v : View} (hsource : source.data.IsStamped)
    (hstart : View.start source config = .ok v) : Lays ⟨v, [], none, []⟩ [] ⟨v, [], none, []⟩ := by
  unfold View.start at hstart
  split at hstart
  · cases hstart
  · cases hstart
    refine ⟨rfl, hsource, fun ps hps u hu => ?_, fun _ _ hcolumns => (nomatch hcolumns),
      fun _ _ hcolumns => (nomatch hcolumns)⟩
    obtain rfl : ps = [] := List.prefix_nil.mp hps
    cases hu

theorem lays_run {source : Source Unit} {config : Config} {v : View} (hsource : source.data.IsStamped)
    (hstart : View.start source config = .ok v) (hrun : World.run ⟨v, [], none, []⟩ history = some w) :
    Lays ⟨v, [], none, []⟩ history w :=
  run_induction (motive := fun history w => Lays ⟨v, [], none, []⟩ history w) hrun (lays_start hsource hstart)
    fun _ _ _ _ hbefore hm h => lays_step hbefore h hm

theorem config_start {source : Source Unit} {config : Config} {v : View} (h : View.start source config = .ok v) :
    v.config = config := by
  unfold View.start at h
  split at h <;> cases h
  rfl

/-- What the consumer shows fits, unless a table was handed over bare: the columns are those of the table, and the
filter ranges were computed from a table with these columns. Behind the refusal of a structural pass the next table is
handed over with its columns and with ranges of its own. -/
theorem shown_layout {source : Source Unit} {config : Config} {v : View} (hsource : source.data.IsStamped)
    (hstart : View.start source config = .ok v) (hrun : World.run ⟨v, [], none, []⟩ history = some w) :
    (∀ u, w.view.consumer.latest? = some u → ¬HandsBare ⟨v, [], none, []⟩ history u.table.schema →
      u.schema? = some u.table.schema ∧
        ∃ t, Origin ⟨v, [], none, []⟩ history t ∧ t.schema = u.table.schema ∧ u.ranges? = some (config.rangesOf t)) ∧
    ∀ asked f, w.view.worker.phase = .pass asked (.scheduling f) → w.view.IsServing →
      Owing ⟨v, [], none, []⟩ history →
      f.update.schema? = some f.update.table.schema ∧ f.update.ranges? = some (config.rangesOf f.update.table) := by
  have hlays := lays_run hsource hstart hrun
  rw [← config_start hstart]
  refine ⟨fun u hshown hbare => (hlays.fits [] List.nil_prefix u hshown).resolve_right hbare, ?_⟩
  intro asked f hphase hserving howing
  have hfinds : Finds _ history w asked f := hlays.keeps hphase hserving
  have howes := owes_of_owing howing hrun hserving
  rw [hphase] at howes
  rcases hfinds.carried with ⟨hcolumns, hranges⟩ | ⟨-, hasked, -⟩
  · obtain ⟨rs, hrs⟩ := Option.isSome_iff_exists.mp hranges
    exact ⟨hcolumns, hrs.trans (congrArg some (hfinds.ranges rs hrs))⟩
  · exact absurd (howes.symm.trans hasked) (by simp)

theorem shown_layout_behind_refusal :
    let source : Source Unit :=
      (Source.produce (.ofSchema ⟨[⟨"x", .native, some 0⟩]⟩) (.edit (.pushRow [.number 1]))).1
    let history : List Move := List.flatten
      [List.replicate 23 (.work .ascending none),
        .change (.edit (.addColumn "y" .native)) :: List.replicate 3 (.proceed 0),
        List.replicate 16 (.work .ascending none),
        .work .ascending (some (.publish (.rejected "busy"))) :: List.replicate 24 (.work .ascending none),
        .drain :: List.replicate 12 .attend]
    ∃ v, View.start source {} = .ok v ∧
      (∃ w u, World.run ⟨v, [], none, []⟩ history = some w ∧ w.view.consumer.latest? = some u ∧
        u.table.schema.value.columns.length = 2 ∧ u.schema? = some u.table.schema ∧
        ∃ t, Origin ⟨v, [], none, []⟩ history t ∧ t.schema = u.table.schema ∧
          u.ranges? = some (Config.rangesOf {} t)) ∧
      ∃ w asked f, World.run ⟨v, [], none, []⟩ (history.take 67) = some w ∧
        w.view.worker.phase = .pass asked (.scheduling f) ∧ f.update.schema? = some f.update.table.schema ∧
        f.update.ranges? = some (Config.rangesOf {} f.update.table) := by
  intro source history
  let start : World := ⟨View.opened source {}, [], none, []⟩
  have hsource : source.data.IsStamped := (Source.advances_produce _ _).stamped (Dataset.isStamped_ofSchema _)
  have hstart : View.start source {} = .ok (View.opened source {}) := View.start_of_valid (by decide +kernel)
  refine ⟨_, hstart, ?_, ?_⟩
  · have hend : ((start.run history).any fun w => w.view.consumer.latest?.any fun u =>
        u.table.schema.value.columns.length = 2) = true := by
      decide +kernel
    -- every pass that is refused in the history was asked to rebuild
    have hasked : ∀ n ≤ history.length, ∀ w ∈ start.run (history.take n),
        w.view.worker.phase.refuses false = false := by
      decide +kernel
    obtain ⟨w, hrun, hw⟩ := (Option.any_eq_true _ _).mp hend
    obtain ⟨u, hu, hcolumns⟩ := (Option.any_eq_true _ _).mp hw
    refine ⟨w, u, hrun, hu, of_decide_eq_true hcolumns, (shown_layout hsource hstart hrun).1 u hu ?_⟩
    rintro ⟨before, _, _, _, hbefore, -, -, -, -, hslipped⟩
    obtain ⟨before', w', hbefore', hrun', hrefuses⟩ := hslipped.exists_refuses
    have hprefix := hbefore'.trans hbefore
    have hasked' := hasked before'.length hprefix.length_le w' (by rwa [← List.prefix_iff_eq_take.mp hprefix])
    rw [hrefuses] at hasked'
    cases hasked'
  · have hrefused : ((start.run (history.take 44)).any fun w => w.view.worker.phase.refuses true) = true := by
      decide +kernel
    -- nothing is handed over until the retry
    have hquiet : ∀ i ≤ 23,
        ((start.run (history.take (44 + i))).any fun w => !w.view.worker.phase.handsOver) = true := by
      decide +kernel
    have hretry : ((start.run (history.take 67)).any fun w => w.view.worker.phase.offers &&
        !w.view.isClosed && !w.view.consumer.isShutDown) = true := by
      decide +kernel
    obtain ⟨w', hrun', hrefuses⟩ := (Option.any_eq_true _ _).mp hrefused
    obtain ⟨w, hrun, hw⟩ := (Option.any_eq_true _ _).mp hretry
    simp only [Bool.and_eq_true, Bool.not_eq_true'] at hw
    obtain ⟨⟨hoffers, hopen⟩, hconsumer⟩ := hw
    obtain ⟨asked, f, hphase⟩ := Phase.exists_of_offers hoffers
    exact ⟨w, asked, f, hrun, hphase,
      (shown_layout hsource hstart hrun).2 asked f hphase ⟨hopen, hconsumer⟩ (owing_take hrun' hrefuses 23 hquiet)⟩

/-- A pass that was woken by a value finds the new column and is refused. The retry takes the columns for known. -/
theorem shown_other_columns : ¬∀ (source : Source Unit) (config : Config) (v : View) (history : List Move) (w : World)
    (u : Update), source.data.IsStamped → View.start source config = .ok v →
    World.run ⟨v, [], none, []⟩ history = some w → w.view.consumer.latest? = some u →
    u.schema? = some u.table.schema ∧
      ∃ t, Origin ⟨v, [], none, []⟩ history t ∧ t.schema = u.table.schema ∧ u.ranges? = some (config.rangesOf t) := by
  intro h
  let source : Source Unit :=
    (Source.produce (.ofSchema ⟨[⟨"x", .native, some 0⟩]⟩) (.edit (.pushRow [.number 1]))).1
  -- the owner is about to count the first publication, so the notice of the column is dropped
  let history : List Move := List.flatten
    [List.replicate 23 (.work .ascending none),
      .change (.edit (.setValue 0 (.index 0) (.number 5))) :: List.replicate 3 (.proceed 0),
      List.replicate 3 (.work .ascending none),
      .drain :: List.replicate 4 .attend,
      .change (.edit (.addColumn "y" .native)) :: List.replicate 2 (.proceed 0),
      List.replicate 13 (.work .ascending none),
      .work .ascending (some (.publish (.rejected "busy"))) :: List.replicate 24 (.work .ascending none),
      List.replicate 4 .attend,
      .drain :: List.replicate 4 .attend]
  have hsource : source.data.IsStamped := (Source.advances_produce _ _).stamped (Dataset.isStamped_ofSchema _)
  have hstart : View.start source {} = .ok (View.opened source {}) := View.start_of_valid (by decide +kernel)
  have hend : ((World.run ⟨View.opened source {}, [], none, []⟩ history).any fun w =>
      w.view.consumer.latest?.any fun u => u.table.schema.value.columns.length = 2 ∧
        u.schema?.map (·.value.columns.length) = some 1) = true := by
    decide +kernel
  obtain ⟨w, hrun, hw⟩ := (Option.any_eq_true _ _).mp hend
  obtain ⟨u, hu, hcolumns⟩ := (Option.any_eq_true _ _).mp hw
  obtain ⟨htable, hshown⟩ := of_decide_eq_true hcolumns
  rw [(h source {} _ history w u hsource hstart hrun hu).1, Option.map_some, htable] at hshown
  cases hshown

end World

end LiveSheet
