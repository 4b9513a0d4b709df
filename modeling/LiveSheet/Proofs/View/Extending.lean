import LiveSheet.Proofs.Data.Writing
import LiveSheet.Proofs.Formula.Moving
import LiveSheet.Proofs.View.Silence

namespace LiveSheet

/-- What a text becomes some rows further down. One that can be read, with an `=` or without, becomes the text of the
moved formula, behind an `=`, and reads as that formula just if it shows it. Any other text stays. -/
structure Formula.Copies (rows : Int) (t u : String) : Prop where
  moved : ∀ f, parse t = .ok f → u = "=" ++ (f.offset rows 0).text ∧ isFormula u = true ∧
    (parse u = .ok (f.offset rows 0) ↔ (f.offset rows 0).IsShown)
  same : ∀ e, parse t = .error e → u = t

namespace Extension

theorem copies_textFor (x : Extension) (row : Nat) :
    Formula.Copies ((row : Int) - (x.row : Int)) x.text (x.textFor row) := by
  refine ⟨fun f hf => ?_, fun e he => ?_⟩
  · have htext : x.textFor row = "=" ++ (f.offset ((row : Int) - (x.row : Int)) 0).text := by
      rw [textFor, Formula.shiftText_of_parse hf]
    refine ⟨htext, ?_, ?_⟩
    · rw [htext, Formula.isFormula, String.toList_append]
      rfl
    · rw [htext]
      exact Formula.parse_eq_ok_iff (Formula.isReading_of_parse hf).offset (Formula.body_shifted _)
  · rw [textFor, Formula.shiftText, he]

structure IsReady (x : Extension) (d : Dataset) : Prop where
  column : ∃ c, d.schema.value.column? x.column = some c ∧ c.kind = .formula
  nodup : x.left.Nodup
  within : ∀ i ∈ x.left, i < d.size

structure Fills (start x : Extension) (d d' : Dataset) : Prop where
  text : x.text = start.text
  row : x.row = start.row
  column : x.column = start.column
  left : x.left <:+ start.left
  written : x.written + x.left.length = start.written + start.left.length
  schema : d'.schema = d.schema
  records : d'.records = d.records
  filled : ∀ i ∈ start.left, i ∉ x.left →
    d'.bare? i start.column = some (.formula (some { formula? := some (start.textFor i) }))
  kept : ∀ i k, (k = start.column → i ∈ start.left → i ∈ x.left) → d'.bare? i k = d.bare? i k

variable {start x : Extension} {d d' : Dataset}

theorem Fills.refl (start : Extension) (d : Dataset) : start.Fills start d d :=
  ⟨rfl, rfl, rfl, List.suffix_refl _, rfl, rfl, rfl, fun _ hi hdone => absurd hi hdone, fun _ _ _ => rfl⟩

theorem Fills.store (h : start.Fills x d d') (t : Table) : start.Fills x d (d'.storeResults t).1 where
  text := h.text
  row := h.row
  column := h.column
  left := h.left
  written := h.written
  schema := (d'.schema_storeResults).trans h.schema
  records := (d'.records_storeResults t).trans h.records
  filled := fun i hi hdone => (d'.bare?_storeResults t i _).trans (h.filled i hi hdone)
  kept := fun i k hk => (d'.bare?_storeResults t i k).trans (h.kept i k hk)

theorem Fills.write (h : start.Fills x d d') (hready : start.IsReady d) {row : Nat} {rows : List Nat}
    (hleft : x.left = row :: rows) : (d'.setFormula row x.column (x.textFor row)).2 = .ok () ∧
      start.Fills { x with left := rows, written := x.written + 1 } d
        (d'.setFormula row x.column (x.textFor row)).1 := by
  obtain ⟨c, hcolumn, hkind⟩ := hready.column
  have hsuffix : row :: rows <:+ start.left := hleft ▸ h.left
  have hrow : row ∈ start.left := hsuffix.subset List.mem_cons_self
  have hnotin : row ∉ rows := (List.nodup_cons.mp (hsuffix.sublist.nodup hready.nodup)).1
  have hsize : row < d'.rows.length :=
    Nat.lt_of_lt_of_eq (hready.within row hrow) (Dataset.size_eq_of_records h.records).symm
  have htext : x.textFor row = start.textFor row := by rw [textFor, textFor, h.text, h.row]
  obtain ⟨hanswer, hschema, hrecords, hentry⟩ :=
    Dataset.writes_setFormula (x.textFor row) (h.column ▸ h.schema ▸ hcolumn) hkind hsize
  refine ⟨hanswer, h.text, h.row, h.column, (List.suffix_cons row rows).trans hsuffix, ?_, hschema.trans h.schema,
    hrecords.trans h.records, fun i hi hdone => ?_, fun i k hk => ?_⟩
  · have hwritten := h.written
    rw [hleft, List.length_cons] at hwritten
    simp only
    omega
  · rw [hentry, h.column, htext]
    split
    · next hcell => rw [hcell.1]
    · next hcell =>
        refine h.filled i hi ?_
        rw [hleft]
        exact List.not_mem_cons_of_ne_of_not_mem (fun hi => hcell ⟨hi, rfl⟩) hdone
  · rw [hentry, h.column, if_neg]
    · refine h.kept i k fun hcolumn hi => ?_
      rw [hleft]
      exact List.mem_cons_of_mem _ (hk hcolumn hi)
    · rintro ⟨rfl, rfl⟩
      exact hnotin (hk rfl hrow)

def fresh (d : Dataset) (row column : Nat) (t : String) : Extension :=
  { text := t, row := row, column := column, left := (List.range d.size).filter (· ≠ row) }

theorem ofSnapshot_eq {row column : Nat} {cell : FormulaCell} {t : String}
    (hcell : d.snapshot.content? row column = some (.formula (some cell))) (htext : cell.formula? = some t) :
    ofSnapshot d.snapshot row column = .ok (some (fresh d row column t)) := by
  rw [ofSnapshot, hcell]
  simp only [Option.bind_some, htext, Option.map_some]
  rfl

theorem isReady_fresh {row column : Nat} {cell? : Option FormulaCell} (t : String)
    (hcell : d.snapshot.content? row column = some (.formula cell?)) : (fresh d row column t).IsReady d where
  column := by
    obtain ⟨r, -, hcontent⟩ := Option.bind_eq_some_iff.mp hcell
    unfold Row.content? at hcontent
    split at hcontent
    · cases hcontent
    · next c hcolumn =>
        split at hcontent
        · obtain ⟨_, -, heq⟩ := Option.map_eq_some_iff.mp hcontent
          cases heq
        · next hkind => exact ⟨c, hcolumn, hkind⟩
  nodup := List.nodup_range.filter _
  within := fun i hi => List.mem_range.mp (List.mem_of_mem_filter hi)

theorem length_left_fresh {row column : Nat} {t : String} (hrow : row < d.size) :
    (fresh d row column t).left.length = d.size - 1 := by
  have herase : (fresh d row column t).left = (List.range d.size).erase row := by
    rw [List.nodup_range.erase_eq_filter]
    exact List.filter_congr fun i _ => by simp [bne, beq_eq_decide]
  rw [herase, List.length_erase_of_mem (List.mem_range.mpr hrow), List.length_range]

end Extension

namespace View

variable {v : View} {start x : Extension} {d : Dataset}

theorem data_tellAny (v : View) (notice? : Option Notice) : (v.tellAny notice?).source.data = v.source.data := by
  obtain ⟨t, ht⟩ := v.exists_tellAny notice?
  rw [ht]

theorem change_setFormula (v : View) (row column : Nat) (text : String) :
    ∃ notice?, v.change (.edit (.setFormula row (.index column) text)) =
      ({ v with source := { v.source with data := (v.source.data.setFormula row column text).1 } },
        [(v.source.data.setFormula row column text).2.map fun _ => none], notice?) := ⟨_, rfl⟩

theorem writeRows_fills (hready : start.IsReady d) {rows : List Nat} {written : Nat}
    (h : start.Fills { x with left := rows, written := written } d v.source.data) :
    ∃ v', v.writeRows x rows written = (v', .ok (start.written + start.left.length)) ∧
      start.Fills { x with left := [], written := start.written + start.left.length } d v'.source.data := by
  induction rows generalizing v written with
  | nil =>
      have hwritten : written = start.written + start.left.length := h.written
      subst hwritten
      exact ⟨v, rfl, h⟩
  | cons row rows ih =>
      obtain ⟨hanswer, hfills⟩ := h.write hready rfl
      obtain ⟨notice?, hchange⟩ := v.change_setFormula row x.column (x.textFor row)
      have hwrite : v.writeFormula row x.column (x.textFor row) = (View.tellAny { v with source := { v.source with
          data := (v.source.data.setFormula row x.column (x.textFor row)).1 } } notice?, .ok ()) := by
        rw [writeFormula, produce, hchange]
        simp only [show (v.source.data.setFormula row x.column (x.textFor row)).2 = .ok () from hanswer]
        rfl
      rw [writeRows, hwrite]
      exact ih ((data_tellAny _ notice?).symm ▸ hfills)

theorem writeExtension_fills (v : View) (hready : start.IsReady v.source.data) :
    ∃ v', v.writeExtension start = (v', .ok (start.written + start.left.length)) ∧
      ∃ x, x.left = [] ∧ start.Fills x v.source.data v'.source.data := by
  have hbegin : start.Fills { start with left := start.left, written := start.written } v.source.data
      v.enterSilence.source.data := .refl start v.source.data
  obtain ⟨v', hwrite, hfills⟩ := writeRows_fills hready hbegin
  refine ⟨v'.leaveSilence.requestReset, ?_, _, rfl, hfills⟩
  rw [writeExtension, hwrite]

variable {visit : VisitOrder} {P : Dataset → Prop} (hstore : ∀ d t, P d → P (d.storeResults t).1)

include hstore

theorem data_perform (asked : Bool) (s : Stage) (h : P v.source.data) : P (v.perform visit asked s).source.data := by
  cases s with
  | noted s | computed f | publishing f =>
      simp only [perform, checkOpen]
      split <;> exact h
  | preparing s | scheduling f | refused f e | comparing f | recovering | resting =>
      simp only [perform]
      split <;> exact h
  | storing f => exact hstore _ _ h
  | telling f notice? =>
      obtain ⟨t, ht⟩ := v.exists_tellAny notice?
      simp only [perform, ht]
      exact h
  | handing f =>
      obtain ⟨i, hi⟩ := v.exists_setIndicator v.worker.pass .applying
      simp only [perform, hi]
      exact h
  | failing =>
      obtain ⟨i, hi⟩ := exists_setIndicator
        { v with counts := { v.counts with failures := v.counts.failures + 1 } } v.worker.pass .idle
      simp only [perform, hi]
      exact h
  | _ => exact h

theorem data_work {v' : View} {fault? : Option PassError} (hv : v.work visit fault? = some v') (h : P v.source.data) :
    P v'.source.data := by
  unfold work at hv
  split at hv
  · cases hv
    exact h
  · split at hv <;> cases hv <;> exact h
  · cases hv
    exact data_perform hstore _ _ h
  · unfold disturb at hv
    split at hv
    · cases hv
      exact h
    · cases hv
      exact h
    · cases hv
      exact h
    · split at hv <;> cases hv
      split <;> exact h
    · cases hv
  · cases hv
    exact h
  · cases hv
    exact h
  · cases hv

omit hstore

theorem data_attend (v : View) (e : Errand) : (v.attend e).1.source.data = v.source.data := by
  cases e with
  | counting p =>
      obtain ⟨i, hi⟩ := exists_setIndicator
        { v with counts := { v.counts with publications := v.counts.publications + 1 } } p.pass .idle
      simp only [attend, hi]
  | _ => rfl

theorem data_closeStep {v' : View} {byWorker : Bool} {c c' : Closing} (h : v.closeStep byWorker c = some (v', c')) :
    v'.source.data = v.source.data := by
  cases c with
  | releasing =>
      cases h
      simp only
      split <;> rfl
  | awaiting =>
      simp only [closeStep] at h
      split at h <;> cases h
      rfl
  | done => cases h
  | _ =>
      cases h
      rfl

end View

def Move.isEdit : Move → Bool
  | .change (.fire _) => false
  | .change _ | .extend _ _ => true
  | _ => false

namespace Call

def extension? : Call → Option Extension
  | .hushing x | .writing x | .noticing x _ => some x
  | _ => none

variable {v v' : View} {c : Call} {c? : Option Call} {start x : Extension} {d : Dataset}

theorem data_step (hc : c.extension? = none) (hstep : c.step v = some (v', c?)) :
    v'.source.data = v.source.data ∧ c?.bind extension? = none := by
  cases c with
  | hushing x | writing x | noticing x notice? => cases hc
  | telling n | hearing structural =>
      cases hstep
      split <;> exact ⟨rfl, rfl⟩
  | leaving complete =>
      cases hstep
      split <;> exact ⟨rfl, rfl⟩
  | closing c =>
      obtain ⟨⟨u, c'⟩, hclose, heq⟩ := Option.map_eq_some_iff.mp hstep
      cases heq
      refine ⟨View.data_closeStep hclose, ?_⟩
      split <;> rfl
  | _ =>
      cases hstep
      exact ⟨rfl, rfl⟩

theorem fills_step (hready : start.IsReady d) (hc : c.extension? = some x) (h : start.Fills x d v.source.data)
    (hstep : c.step v = some (v', c?)) : ∃ x', start.Fills x' d v'.source.data ∧
      (c?.bind extension? = some x' ∨ c?.bind extension? = none ∧ x'.left = []) := by
  cases c with
  | hushing y =>
      cases hc
      cases hstep
      exact ⟨x, h, .inl rfl⟩
  | noticing y notice? =>
      cases hc
      cases hstep
      exact ⟨x, (v.data_tellAny notice?).symm ▸ h, .inl rfl⟩
  | writing y =>
      cases hc
      simp only [step] at hstep
      split at hstep
      · next hleft =>
          cases hstep
          exact ⟨x, h, .inr ⟨rfl, hleft⟩⟩
      · next row rows hleft =>
          obtain ⟨hanswer, hfills⟩ := h.write hready hleft
          obtain ⟨notice?, hchange⟩ := v.change_setFormula row x.column (x.textFor row)
          rw [hchange, hanswer] at hstep
          cases hstep
          exact ⟨_, hfills, .inl rfl⟩
  | _ => cases hc

end Call

namespace World

variable {w w' : World} {m : Move} {start x : Extension} {d : Dataset}

def IsExtending (start : Extension) (d : Dataset) (w : World) : Prop :=
  ∃ x, start.Fills x d w.view.source.data ∧ (w.calls.filterMap Call.extension? = [x] ∨
    w.calls.filterMap Call.extension? = [] ∧ x.left = [])

theorem filterMap_proceed {α : Type} {calls : List Call} {i : Nat} {c : Call} (hc : calls[i]? = some c) (c? : Option Call)
    (f : Call → Option α) : ∃ before behind, calls.filterMap f = before ++ (f c).toList ++ behind ∧
      (c?.elim (calls.eraseIdx i) (calls.set i)).filterMap f = before ++ (c?.bind f).toList ++ behind := by
  obtain ⟨hi, rfl⟩ := List.getElem?_eq_some_iff.mp hc
  refine ⟨(calls.take i).filterMap f, (calls.drop (i + 1)).filterMap f, ?_, ?_⟩
  · conv_lhs => rw [← List.take_append_drop i calls, List.drop_eq_getElem_cons hi]
    rw [List.filterMap_append, List.filterMap_cons, List.append_assoc]
    cases f calls[i] <;> rfl
  · cases c? with
    | none => simp [List.eraseIdx_eq_take_drop_succ]
    | some c' =>
        simp only [Option.elim_some, List.set_eq_take_append_cons_drop, hi, if_true, List.filterMap_append,
          List.filterMap_cons, Option.bind_some, List.append_assoc]
        cases f c' <;> rfl

theorem isExtending_proceed {i : Nat} (hready : start.IsReady d) (h : w.IsExtending start d)
    (hm : w.step (.proceed i) = some w') : w'.IsExtending start d := by
  obtain ⟨x, hfills, hcalls⟩ := h
  obtain ⟨c, c?, hc, hstep, hcalls'⟩ := calls_proceed hm
  obtain ⟨before, behind, heq, heq'⟩ := filterMap_proceed hc c? Call.extension?
  unfold IsExtending
  rw [hcalls', heq']
  rw [heq] at hcalls
  cases hext : c.extension? with
  | none =>
      obtain ⟨hdata, hnone⟩ := Call.data_step hext hstep
      rw [hext] at hcalls
      rw [hdata, hnone]
      exact ⟨x, hfills, hcalls⟩
  | some y =>
      -- the call is the one that extends, so there is no other before it or behind it
      have halone : y = x ∧ before = [] ∧ behind = [] := by
        rw [hext] at hcalls
        rcases hcalls with hcalls | ⟨hcalls, -⟩
        · cases before with
          | nil => simpa using hcalls
          | cons z zs => simp at hcalls
        · simp at hcalls
      obtain ⟨rfl, rfl, rfl⟩ := halone
      obtain ⟨x', hfills', hx'⟩ := Call.fills_step hready hext hfills hstep
      refine ⟨x', hfills', ?_⟩
      rcases hx' with hx' | ⟨hnone, hleft⟩
      · exact .inl (by rw [hx']; rfl)
      · exact .inr ⟨by rw [hnone]; rfl, hleft⟩

theorem isExtending_step (hready : start.IsReady d) (h : w.IsExtending start d) (hm : w.step m = some w')
    (hedit : m.isEdit = false) : w'.IsExtending start d := by
  have hbeside {v : View} {c? : Option Call} (hdata : v.source.data = w.view.source.data)
      (hc : c?.bind Call.extension? = none) : ({ w with view := v }.call c?).IsExtending start d := by
    obtain ⟨x, hfills, hcalls⟩ := h
    refine ⟨x, hdata ▸ hfills, ?_⟩
    cases c? with
    | none => simpa [World.call] using hcalls
    | some c =>
        have hc : c.extension? = none := hc
        simpa [World.call, List.filterMap_append, hc] using hcalls
  cases m with
  | work visit fault? =>
      obtain ⟨x, hfills, hcalls⟩ := h
      obtain ⟨v, hv, rfl⟩ := Option.map_eq_some_iff.mp hm
      exact ⟨x, View.data_work (P := start.Fills x d) (fun _ t h => h.store t) hv hfills, hcalls⟩
  | change p =>
      cases p with
      | fire n =>
          cases hm
          exact hbeside rfl rfl
      | _ => cases hedit
  | extend row column => cases hedit
  | proceed i => exact isExtending_proceed hready h hm
  | drain =>
      simp only [step] at hm
      split at hm <;> cases hm
      exact h
  | attend =>
      simp only [step] at hm
      split at hm
      · next e _ =>
          cases hm
          obtain ⟨x, hfills, hcalls⟩ := h
          exact ⟨x, (w.view.data_attend e).symm ▸ hfills, hcalls⟩
      · cases hm
        exact h
      · cases hm
  | recompute structural | resetFilters =>
      simp only [step, callOpen] at hm
      split at hm <;> cases hm
      exact hbeside rfl rfl
  | shutDown =>
      cases hm
      exact h
  | _ =>
      cases hm
      exact hbeside rfl rfl

theorem isExtending_run (hready : start.IsReady d) (h : w.IsExtending start d) {history : List Move}
    (hrun : w.run history = some w') (hedit : ∀ m ∈ history, m.isEdit = false) : w'.IsExtending start d := by
  have hall : (∀ m ∈ history, m.isEdit = false) → w'.IsExtending start d := by
    refine run_induction (motive := fun history w' => (∀ m ∈ history, m.isEdit = false) → w'.IsExtending start d) hrun
      (fun _ => h) fun before u m u' _ hm hu hedit => ?_
    exact isExtending_step hready (hu fun m hm => hedit m (List.mem_append_left _ hm)) hm (hedit m (by simp))
  exact hall hedit

theorem IsExtending.fills (h : w.IsExtending start d) (hx : .writing x ∈ w.calls) :
    start.Fills x d w.view.source.data := by
  obtain ⟨y, hfills, hcalls⟩ := h
  have hmem : x ∈ w.calls.filterMap Call.extension? := List.mem_filterMap.mpr ⟨_, hx, rfl⟩
  rcases hcalls with hcalls | ⟨hcalls, -⟩
  · rw [hcalls] at hmem
    exact List.mem_singleton.mp hmem ▸ hfills
  · rw [hcalls] at hmem
    exact absurd hmem List.not_mem_nil

theorem IsExtending.filled (h : w.IsExtending start d) (hdone : ∀ c ∈ w.calls, c.extension? = none) :
    ∃ x, x.left = [] ∧ start.Fills x d w.view.source.data := by
  obtain ⟨x, hfills, hcalls⟩ := h
  rw [List.filterMap_eq_nil_iff.mpr hdone] at hcalls
  rcases hcalls with hcalls | ⟨-, hleft⟩
  · cases hcalls
  · exact ⟨x, hleft, hfills⟩

end World

structure Dataset.Extended (d : Dataset) (row column : Nat) (t : String) (d' : Dataset) : Prop where
  schema : d'.schema = d.schema
  records : d'.records = d.records
  kept : ∀ i k, k ≠ column ∨ i = row → d'.bare? i k = d.bare? i k
  copied : ∀ i < d.size, i ≠ row → ∃ u, d'.bare? i column = some (.formula (some { formula? := some u })) ∧
    Formula.Copies ((i : Int) - (row : Int)) t u

theorem Extension.Fills.extended {d d' : Dataset} {x : Extension} {row column : Nat} {t : String}
    (h : (fresh d row column t).Fills x d d') (hleft : x.left = []) : d.Extended row column t d' where
  schema := h.schema
  records := h.records
  kept := fun i k hcell => h.kept i k fun hk hi => by
    rcases hcell with hcolumn | rfl
    · exact absurd hk hcolumn
    · simp [fresh] at hi
  copied := fun i hi hne =>
    ⟨_, h.filled i (by simp [fresh, hi, hne]) (hleft ▸ List.not_mem_nil), (fresh d row column t).copies_textFor i⟩

theorem Dataset.row_lt_of_content {d : Dataset} {row column : Nat} {c : Content}
    (hcell : d.snapshot.content? row column = some c) : row < d.size := by
  obtain ⟨r, hr, -⟩ := Option.bind_eq_some_iff.mp hcell
  exact (List.getElem?_eq_some_iff.mp hr).1

theorem View.extend_extended {v : View} {row column : Nat} {cell : FormulaCell} {t : String}
    (hopen : v.isClosed = false) (hcell : v.source.data.snapshot.content? row column = some (.formula (some cell)))
    (htext : cell.formula? = some t) : ∃ v', v.extend row column none = (v', .ok (v.source.data.size - 1)) ∧
      v.source.data.Extended row column t v'.source.data := by
  obtain ⟨v', hwrite, x, hleft, hfills⟩ := v.writeExtension_fills (Extension.isReady_fresh t hcell)
  refine ⟨v', ?_, hfills.extended hleft⟩
  rw [extend, whenOpen, hopen, Extension.ofSnapshot_eq hcell htext,
    ← Extension.length_left_fresh (Dataset.row_lt_of_content hcell), ← Nat.zero_add (List.length _)]
  exact hwrite

namespace World

/-- From a cell with a text, an extension always succeeds and answers with the number of the other rows, which then have
copies of the text; nothing else of the data changes. The same comes of it among any moves of others that edit nothing,
once it is written. -/
theorem extended_column {w : World} {row column : Nat} {cell : FormulaCell} {t : String}
    (hopen : w.view.isClosed = false)
    (hcell : w.view.source.data.snapshot.content? row column = some (.formula (some cell)))
    (htext : cell.formula? = some t) :
    (∃ v, w.view.extend row column none = (v, .ok (w.view.source.data.size - 1)) ∧
      w.view.source.data.Extended row column t v.source.data) ∧
    ((∀ c ∈ w.calls, c.extension? = none) → ∀ history w', (∀ m ∈ history, m.isEdit = false) →
      w.run (.extend row column :: history) = some w' →
        (∀ x, .writing x ∈ w'.calls → x.left = [] → x.written = w.view.source.data.size - 1) ∧
        ((∀ c ∈ w'.calls, c.extension? = none) →
          w.view.source.data.Extended row column t w'.view.source.data)) := by
  refine ⟨View.extend_extended hopen hcell htext, fun hcalls history w' hedit hrun => ?_⟩
  obtain ⟨u, hu, hrun⟩ := Option.bind_eq_some_iff.mp hrun
  have hbegin : u.IsExtending (.fresh w.view.source.data row column t) w.view.source.data := by
    simp only [step, callOpen, hopen, Extension.ofSnapshot_eq hcell htext] at hu
    cases hu
    refine ⟨_, .refl _ _, .inl ?_⟩
    rw [World.call, List.filterMap_append, List.filterMap_eq_nil_iff.mpr hcalls]
    rfl
  have hend := isExtending_run (Extension.isReady_fresh t hcell) hbegin hrun hedit
  refine ⟨fun x hx hleft => ?_, fun hdone => ?_⟩
  · have hwritten : x.written + x.left.length = 0 + _ := (hend.fills hx).written
    rw [hleft, List.length_nil, Extension.length_left_fresh (Dataset.row_lt_of_content hcell)] at hwritten
    omega
  · obtain ⟨x, hleft, hfills⟩ := hend.filled hdone
    exact hfills.extended hleft

theorem extended_column_sum :
    let schema : Schema := { columns := [⟨"x", .native, some 0⟩, ⟨"f", .formula, none⟩] }
    let edits : List Edit := [.pushRow [.number 1], .pushRow [.number 2], .pushRow [.number 3],
      .setFormula 1 (.index 1) "=SUM(A$1:A2)"]
    let source : Source Unit := { data := ((Dataset.ofSchema schema).editAll edits).1 }
    let history : List Move := (List.replicate 7 [.work .ascending none, .proceed 0]).flatten
    ∃ v w, View.start source {} = .ok v ∧ (v.extend 1 1 none).2 = .ok 2 ∧
      World.run ⟨v, [], none, []⟩ (.extend 1 1 :: history) = some w ∧
      w.view.source.data.bare? 2 1 = some (.formula (some { formula? := some "=SUM(A$1:A3)" })) := by
  intro schema edits source history
  let v := View.opened source {}
  have hstart : View.start source {} = .ok v := View.start_of_valid (by decide +kernel)
  have hcell : v.source.data.snapshot.content? 1 1 = some (.formula (some { formula? := some "=SUM(A$1:A2)" })) := rfl
  let w := (World.run ⟨v, [], none, []⟩ (.extend 1 1 :: history)).get (by decide +kernel)
  have hrun : World.run ⟨v, [], none, []⟩ (.extend 1 1 :: history) = some w := (Option.some_get _).symm
  have hparse : Formula.parse "=SUM(A$1:A2)" =
      .ok (.call "SUM" [.range ⟨⟨0, 0⟩, true, false⟩ ⟨⟨1, 0⟩, false, false⟩]) := by cbv
  obtain ⟨⟨v', hextend, -⟩, hbeside⟩ := extended_column (w := ⟨v, [], none, []⟩) rfl hcell rfl
  obtain ⟨-, hextended⟩ := hbeside (by decide +kernel) history w (by decide +kernel) hrun
  obtain ⟨u, hentry, hcopies⟩ := (hextended (by decide +kernel)).copied 2 (by decide +kernel) (by decide)
  obtain rfl : u = "=SUM(A$1:A3)" := (hcopies.moved _ hparse).1.trans (by decide +kernel)
  exact ⟨v, w, hstart, congrArg Prod.snd hextend, hrun, hentry⟩

/-- A text that is no formula but can be read as one becomes a formula. -/
theorem extended_literal_not_literal : ¬∀ (v v' : View) (row column n : Nat) (cell : FormulaCell) (t : String),
    v.isClosed = false → v.source.data.snapshot.content? row column = some (.formula (some cell)) →
    cell.formula? = some t → v.extend row column none = (v', .ok n) → Formula.isFormula t = false →
    ∀ i < v.source.data.size, i ≠ row →
      ∃ u, v'.source.data.bare? i column = some (.formula (some { formula? := some u })) ∧
        Formula.isFormula u = false ∧ Value.ofEntry u = Value.ofEntry t := by
  intro h
  let schema : Schema := { columns := [⟨"x", .native, some 0⟩, ⟨"f", .formula, none⟩] }
  let edits : List Edit := [.pushRow [.number 1], .pushRow [.number 2], .setFormula 0 (.index 1) "abc"]
  let v := View.opened { data := ((Dataset.ofSchema schema).editAll edits).1 } {}
  have hcell : v.source.data.snapshot.content? 0 1 = some (.formula (some { formula? := some "abc" })) := rfl
  have hparse : Formula.parse "abc" = .ok (.name "abc") := by cbv
  obtain ⟨v', hextend, hextended⟩ := View.extend_extended (v := v) rfl hcell rfl
  obtain ⟨u, hentry, hcopies⟩ := hextended.copied 1 (by decide +kernel) (by decide)
  obtain ⟨u', hentry', hliteral, -⟩ := h v v' 0 1 _ _ "abc" rfl hcell rfl hextend (by decide +kernel) 1
    (by decide +kernel) (by decide)
  rw [hentry] at hentry'
  cases hentry'
  rw [(hcopies.moved _ hparse).2.1] at hliteral
  cases hliteral

end World

end LiveSheet
