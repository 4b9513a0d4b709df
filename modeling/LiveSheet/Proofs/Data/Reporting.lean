import LiveSheet.Proofs.Data.Fitting

namespace LiveSheet

def Edit.natives : Edit → List Value
  | .pushRow native => native
  | .setValue _ _ v => [v]
  | _ => []

def Row.IsClean (r : Row) : Prop := ∀ v ∈ r.native, v.isNaN = false

namespace Dataset

def IsClean (d : Dataset) : Prop := ∀ r ∈ d.rows, r.value.IsClean

/-- A cell of a row and a column that are in both holds another value, or another formula, or one that was not there. -/
def Altered (d d' : Dataset) : Prop :=
  ∃ r ∈ d.rows, ∃ r' ∈ d'.rows, r.value.id = r'.value.id ∧
    ∃ column, column < d.schema.value.width ∧ column < d'.schema.value.width ∧
      (r.value.content? d.schema.value column).map Content.bare ≠
        (r'.value.content? d'.schema.value column).map Content.bare

structure Reports (d d' : Dataset) (answer : Receipt) : Prop where
  failed : answer.isOk = false → d'.schema.value = d.schema.value ∧
    d'.rows.map (·.value) = d.rows.map (·.value) ∧ d'.revisions = d.revisions
  layout : answer.isOk = true →
    (d'.revisions.layout ≠ d.revisions.layout ↔ d'.schema.value ≠ d.schema.value ∨ d'.ids ≠ d.ids)
  values : answer.isOk = true → (d'.revisions.values ≠ d.revisions.values ↔ d.Altered d')
  apart : d'.revisions.layout = d.revisions.layout ∨ d'.revisions.values = d.revisions.values

end Dataset

section Rows

variable {s s' : Schema} {r r' : Row} {e : Edit} {row : Nat}

theorem Edit.Reworks.alters (h : e.Reworks s r row (some r')) (hs : s.IsNumbered) (hr : r.Fits s) (hclean : r.IsClean) :
    ∃ column < s.width, (r.content? s column).map Content.bare ≠ (r'.content? s column).map Content.bare := by
  generalize hchanged : some r' = changed? at h
  cases h with
  | @field row column slot k v c hk hc hslot =>
      refine ⟨column, (List.getElem?_eq_some_iff.mp hc).1, fun hsame => ?_⟩
      have hkind : c.kind = .native := by
        cases hkind : c.kind with
        | native => rfl
        | formula =>
            have hnone := (hs.kinds c (List.mem_of_getElem? hc)).mp hkind
            exact absurd (hslot.symm.trans hnone) nofun
      have hlt : slot < r.native.length := hr.fields ▸ hs.slot_lt hc hslot
      unfold Row.setField? at hchanged
      split at hchanged
      · cases hchanged
      · next hold =>
          cases hchanged
          simp [Row.content?, hc, hkind, hslot, hlt, Content.bare] at hsame hold
          have hself : v.same v = true :=
            Value.same_iff.mpr ⟨.refl v, hsame ▸ hclean _ (List.getElem_mem hlt)⟩
          rw [hsame, hself] at hold
          cases hold
  | @entry row column k text c hk hc hkind =>
      refine ⟨column, (List.getElem?_eq_some_iff.mp hc).1, fun hsame => ?_⟩
      have hafter := Row.bare_setFormula (r := r) text hc hkind column
      rw [← hchanged, if_pos rfl, Option.getD_some, ← hsame] at hafter
      have htext : r.formulaText? column = some text := by
        cases hcell : r.formulas[column]? with
        | none => simp [Row.content?, hc, hkind, hcell, Content.bare] at hafter
        | some cell =>
            simp [Row.content?, hc, hkind, hcell, Content.bare] at hafter
            simp [Row.formulaText?, hcell, hafter]
      simp [Row.setFormula?, htext] at hchanged
  | @clearing row column c hc hkind =>
      refine ⟨column, (List.getElem?_eq_some_iff.mp hc).1, fun hsame => ?_⟩
      unfold Row.clearFormula? at hchanged
      split at hchanged
      · next hmem =>
          cases hchanged
          have hcell := Std.ExtTreeMap.getElem?_eq_some_getElem hmem
          simp [Row.content?, hc, hkind, hcell, Content.bare] at hsame
      · cases hchanged

theorem Edit.Reworks.clean {changed? : Option Row} (h : e.Reworks s r row changed?) (hchanged : changed? = some r')
    (hr : r.IsClean) (he : ∀ v ∈ e.natives, v.isNaN = false) : r'.IsClean := by
  cases h with
  | field =>
      unfold Row.setField? at hchanged
      split at hchanged
      · cases hchanged
      · cases hchanged
        intro v hv
        rcases List.mem_or_eq_of_mem_set hv with hv | rfl
        · exact hr v hv
        · exact he v (List.mem_singleton_self v)
  | entry =>
      unfold Row.setFormula? at hchanged
      split at hchanged <;> cases hchanged
      exact hr
  | clearing =>
      unfold Row.clearFormula? at hchanged
      split at hchanged <;> cases hchanged
      exact hr

theorem Row.Fits.content_of_append {name : String} {kind : ColumnKind} {more : List Value} {column : Nat}
    (hr : r.Fits s) (hs : s.IsNumbered) (happend : s.append name kind = .ok s') (hformulas : r'.formulas = r.formulas)
    (hfields : r'.native = r.native ++ more) (hcolumn : column < s.width) :
    r'.content? s' column = r.content? s column := by
  have hc : s.column? column = some s.columns[column] := List.getElem?_eq_getElem hcolumn
  unfold Row.content?
  rw [hc, Schema.column?_of_append happend hc, hformulas, hfields]
  dsimp only
  split
  · refine congrArg (Option.map Content.native) (Option.bind_congr fun slot hslot => ?_)
    have hlt : slot < r.native.length := hr.fields ▸ hs.slot_lt hc hslot
    exact List.getElem?_append_left hlt
  · rfl

end Rows

namespace Dataset

variable {d d' : Dataset} {e : Edit} {answer : Receipt}

theorem Fits.eq_of_id (h : d.Fits) {r r' : Stamped Row} (hr : r ∈ d.rows) (hr' : r' ∈ d.rows)
    (hid : r.value.id = r'.value.id) : r = r' := List.inj_on_of_nodup_map h.ids hr hr' hid

theorem Fits.ne_of_id (h : d.Fits) {r : Stamped Row} (hr : r ∈ d.rows) : r.value.id ≠ d.nextRow :=
  Nat.ne_of_lt (h.fresh _ (List.mem_map_of_mem hr))

theorem not_altered (h : ∀ r ∈ d.rows, ∀ r' ∈ d'.rows, r.value.id = r'.value.id → ∀ column < d.schema.value.width,
    r'.value.content? d'.schema.value column = r.value.content? d.schema.value column) : ¬d.Altered d' := by
  rintro ⟨r, hr, r', hr', hid, column, hcolumn, -, hcontent⟩
  exact hcontent (congrArg (Option.map Content.bare) (h r hr r' hr' hid column hcolumn).symm)

theorem Fits.not_altered_of_rows (h : d.Fits) (hschema : d'.schema = d.schema)
    (hrows : ∀ r' ∈ d'.rows, r' ∈ d.rows ∨ r'.value.id = d.nextRow) : ¬d.Altered d' := by
  refine not_altered fun r hr r' hr' hid column _ => ?_
  rcases hrows r' hr' with hold | hnew
  · rw [h.eq_of_id hr hold hid, hschema]
  · exact absurd (hid.trans hnew) (h.ne_of_id hr)

theorem Fits.not_altered_appendColumn (h : d.Fits) {name : String} {kind : ColumnKind} {s : Schema}
    (happend : d.schema.value.append name kind = .ok s) : ¬d.Altered (d.appendColumn s kind) := by
  refine not_altered fun r hr r' hr' hid column hcolumn => ?_
  cases kind with
  | formula =>
      obtain rfl := h.eq_of_id hr hr' hid
      exact (h.rows r hr).content_of_append h.columns happend rfl (List.append_nil _).symm hcolumn
  | native =>
      obtain ⟨old, hold, hvalue⟩ := mem_extendRows hr'
      rw [hvalue] at hid ⊢
      obtain rfl := h.eq_of_id hr hold hid
      exact (h.rows r hr).content_of_append h.columns happend rfl rfl hcolumn

theorem reports_of_same (hschema : d'.schema.value = d.schema.value)
    (hrows : d'.rows.map (·.value) = d.rows.map (·.value)) (hrevisions : d'.revisions = d.revisions) (h : d.Fits) :
    d.Reports d' answer := by
  have hids : d'.ids = d.ids := by rw [ids_eq, hrows, ← ids_eq]
  refine ⟨fun _ => ⟨hschema, hrows, hrevisions⟩, fun _ => ?_, fun _ => ?_, .inl (congrArg _ hrevisions)⟩
  · simp [hschema, hids, hrevisions]
  · refine iff_of_false (by simp [hrevisions]) (not_altered fun r hr r' hr' hid column _ => ?_)
    have hvalue : r'.value ∈ d.rows.map (·.value) := hrows ▸ List.mem_map_of_mem hr'
    obtain ⟨old, hold, hvalue⟩ := List.mem_map.mp hvalue
    obtain rfl := h.eq_of_id hr hold (hid.trans (congrArg Row.id hvalue.symm))
    rw [hschema, ← hvalue]

theorem reports_of_layout {receipt : Option Nat} (hlayout : d'.revisions.layout = d.revisions.layout + 1)
    (hvalues : d'.revisions.values = d.revisions.values) (hchange : d'.schema.value ≠ d.schema.value ∨ d'.ids ≠ d.ids)
    (h : ¬d.Altered d') : d.Reports d' (.ok receipt) :=
  ⟨nofun, fun _ => iff_of_true (by omega) hchange, fun _ => iff_of_false (by omega) h, .inr hvalues⟩

theorem reports_of_values {receipt : Option Nat} (hvalues : d'.revisions.values = d.revisions.values + 1)
    (hlayout : d'.revisions.layout = d.revisions.layout) (hschema : d'.schema.value = d.schema.value)
    (hids : d'.ids = d.ids) (h : d.Altered d') : d.Reports d' (.ok receipt) :=
  ⟨nofun, fun _ => iff_of_false (by omega) (by simp [hschema, hids]), fun _ => iff_of_true (by omega) h, .inl hlayout⟩

theorem Does.reports (hdoes : d.Does e d' answer) (h : d.Fits) (hclean : d.IsClean) : d.Reports d' answer := by
  cases hdoes with
  | refuse => exact reports_of_same rfl rfl rfl h
  | refuseColumn => exact reports_of_same rfl rfl rfl h
  | push =>
      refine reports_of_layout rfl rfl (.inr fun hids => ?_) (h.not_altered_of_rows rfl fun r hr => ?_)
      · have hlength := congrArg List.length hids
        simp [ids, appendRow] at hlength
      · refine (List.mem_append.mp hr).imp id fun hr => ?_
        rw [List.mem_singleton.mp hr]
  | @remove row r hr =>
      refine reports_of_layout rfl rfl (.inr fun hids => ?_)
        (h.not_altered_of_rows rfl fun r hr => .inl (List.mem_of_mem_eraseIdx hr))
      have hlength := congrArg List.length hids
      have hrow := (List.getElem?_eq_some_iff.mp hr).1
      simp [ids, eraseRow, List.length_eraseIdx_of_lt hrow] at hlength
      omega
  | @add name kind s happend =>
      refine reports_of_layout rfl rfl (.inl fun hschema => ?_) (h.not_altered_appendColumn happend)
      have hcolumns := congrArg List.length (Schema.columns_of_append happend).2
      rw [show s = d.schema.value from hschema] at hcolumns
      simp at hcolumns
  | @rework e row r changed? hr hwork =>
      cases changed? with
      | none =>
          refine reports_of_same rfl ?_ rfl h
          obtain ⟨hrow, rfl⟩ := List.getElem?_eq_some_iff.mp hr
          have hself := congrArg (List.map (·.value)) (List.set_getElem_self hrow)
          rw [List.map_set] at hself
          exact List.map_set.trans hself
      | some changed =>
          have hmem := List.mem_of_getElem? hr
          have hid : changed.id = r.value.id := hwork.id_eq rfl
          have hids : (d.reopen row r.value (some changed)).ids = d.ids :=
            ids_reopen hr fun row hrow => hwork.id_eq hrow
          obtain ⟨column, hcolumn, hcontent⟩ := hwork.alters h.columns (h.rows r hmem) (hclean r hmem)
          have hset : (⟨d.nextStamp, changed⟩ : Stamped Row) ∈ d.rows.set row ⟨d.nextStamp, changed⟩ :=
            List.mem_set (List.getElem?_eq_some_iff.mp hr).1 _
          exact reports_of_values rfl rfl rfl hids
            ⟨r, hmem, _, hset, hid.symm, column, hcolumn, hcolumn, hcontent⟩

theorem Does.clean (hdoes : d.Does e d' answer) (hclean : d.IsClean) (he : ∀ v ∈ e.natives, v.isNaN = false) :
    d'.IsClean := by
  cases hdoes with
  | refuse => exact hclean
  | refuseColumn => exact hclean
  | push =>
      intro r hr
      rcases List.mem_append.mp hr with hr | hr
      · exact hclean r hr
      · rw [List.mem_singleton.mp hr]
        exact he
  | remove => exact fun r hr => hclean r (List.mem_of_mem_eraseIdx hr)
  | @add name kind s happend =>
      cases kind with
      | formula => exact hclean
      | native =>
          intro r hr v hv
          obtain ⟨old, hold, hvalue⟩ := mem_extendRows hr
          rw [hvalue, List.mem_append] at hv
          rcases hv with hv | hv
          · exact hclean old hold v hv
          · rw [List.mem_singleton.mp hv]
            rfl
  | @rework e row r changed? hr hwork =>
      intro x hx
      rcases List.mem_or_eq_of_mem_set hx with hx | rfl
      · exact hclean x hx
      · cases hchanged : changed? with
        | none => exact hclean r (List.mem_of_getElem? hr)
        | some changed => exact hwork.clean hchanged (hclean r (List.mem_of_getElem? hr)) he

theorem clean_editAll (h : d.IsClean) {edits : List Edit} (hedits : ∀ e ∈ edits, ∀ v ∈ e.natives, v.isNaN = false) :
    (d.editAll edits).1.IsClean := by
  induction edits generalizing d with
  | nil => exact h
  | cons e edits ih =>
      exact ih ((d.does_edit e).clean h (hedits e List.mem_cons_self)) fun e he => hedits e (List.mem_cons_of_mem _ he)

theorem getElem?_editAll (d : Dataset) (before : List Edit) (e : Edit) (after : List Edit) :
    (d.editAll (before ++ e :: after)).2[before.length]? = some ((d.editAll before).1.edit e).2 := by
  induction before generalizing d with
  | nil => rfl
  | cons first before ih => exact ih (d.edit first).1

theorem moved_editAll {count : Revisions → Nat} (hcount : ∀ a b, a ≤ b → count a ≤ count b) (d : Dataset)
    (edits : List Edit) : count (d.editAll edits).1.revisions ≠ count d.revisions ↔
      ∃ before e after, edits = before ++ e :: after ∧
        count ((d.editAll before).1.edit e).1.revisions ≠ count (d.editAll before).1.revisions := by
  induction edits generalizing d with
  | nil =>
      refine iff_of_false (not_not.mpr rfl) ?_
      rintro ⟨before, e, after, hsplit, -⟩
      cases before <;> cases hsplit
  | cons first edits ih =>
      have hfirst := hcount _ _ (d.revisions_edit first)
      have hrest := hcount _ _ ((d.edit first).1.revisions_editAll edits)
      have hsum : count (d.editAll (first :: edits)).1.revisions ≠ count d.revisions ↔
          count (d.edit first).1.revisions ≠ count d.revisions ∨
            count ((d.edit first).1.editAll edits).1.revisions ≠ count (d.edit first).1.revisions := by
        have hrun : (d.editAll (first :: edits)).1 = ((d.edit first).1.editAll edits).1 := rfl
        rw [hrun]
        omega
      rw [hsum, ih]
      constructor
      · rintro (hmoved | ⟨before, e, after, rfl, hmoved⟩)
        · exact ⟨[], first, edits, rfl, hmoved⟩
        · exact ⟨first :: before, e, after, rfl, hmoved⟩
      · rintro ⟨before, e, after, hsplit, hmoved⟩
        cases before with
        | nil =>
            cases hsplit
            exact .inl hmoved
        | cons first' before =>
            cases hsplit
            exact .inr ⟨before, e, after, rfl, hmoved⟩

end Dataset

namespace Source

variable {Observer : Type}

inductive Reached : Source Observer → Prop
  | start {columns : List (String × ColumnKind)} {s : Schema} (h : Schema.ofColumns columns = .ok s) :
      Reached (.ofSchema s)
  | produce {s : Source Observer} (h : Reached s) (p : Production) : Reached (s.produce p).1
  | store {s : Source Observer} (h : Reached s) (t : Table) : Reached (s.storeResults t).1
  | listen {s : Source Observer} (h : Reached s) (o : Observer) : Reached (s.listen o).1
  | unlisten {s : Source Observer} (h : Reached s) (id : Nat) : Reached (s.unlisten id).1

def given (s : Source Observer) (notice? : Option Notice) : List (Nat × Notice) :=
  notice?.toList.flatMap fun n => s.listeners.map fun l => (l.1, n)

variable {s : Source Observer}

theorem Reached.data (h : s.Reached) : s.data.Reached := by
  induction h with
  | start hs => exact .start hs
  | produce _ p ih =>
      cases p with
      | edit e => exact ih.edit e
      | batch edits => exact ih.editAll edits
      | fire n => exact ih
  | store _ t ih => exact ih.store t
  | listen _ o ih => exact ih
  | unlisten _ id ih => exact ih

theorem Reached.registered (h : s.Reached) :
    (s.listeners.map Prod.fst).Nodup ∧ ∀ id ∈ s.listeners.map Prod.fst, id < s.nextListener := by
  induction h with
  | start => exact ⟨List.nodup_nil, nofun⟩
  | produce _ p ih => cases p <;> exact ih
  | store _ t ih => exact ih
  | @listen s _ o ih =>
      have hids : (s.listen o).1.listeners.map Prod.fst = s.listeners.map Prod.fst ++ [s.nextListener] := List.map_append
      rw [hids]
      refine ⟨List.nodup_append'.mpr ⟨ih.1, List.nodup_singleton _, fun id hid hnew => ?_⟩, fun id hid => ?_⟩
      · exact Nat.ne_of_lt (ih.2 id hid) (List.mem_singleton.mp hnew)
      · rw [List.mem_append, List.mem_singleton] at hid
        rcases hid with hid | rfl
        · exact Nat.lt_succ_of_lt (ih.2 id hid)
        · exact Nat.lt_succ_self _
  | @unlisten s _ id ih =>
      have hids : ((s.unlisten id).1.listeners.map Prod.fst).Sublist (s.listeners.map Prod.fst) :=
        List.filter_sublist.map _
      exact ⟨hids.nodup ih.1, fun id hid => ih.2 id (hids.subset hid)⟩

theorem filter_given (h : (s.listeners.map Prod.fst).Nodup) (notice? : Option Notice) {l : Nat × Observer}
    (hl : l ∈ s.listeners) : ((s.given notice?).filter (·.1 = l.1)).map Prod.snd = notice?.toList := by
  cases notice? with
  | none => rfl
  | some n =>
      have hgiven : s.given (some n) = (s.listeners.map Prod.fst).map fun id => (id, n) := by
        simp [given, Function.comp_def]
      have hid : l.1 ∈ s.listeners.map Prod.fst := List.mem_map_of_mem hl
      have honce : (s.listeners.map Prod.fst).filter (· = l.1) = [l.1] := by
        rw [List.filter_eq, List.count_eq_one_of_mem h hid]
        rfl
      rw [hgiven, List.filter_map, List.map_map]
      exact congrArg (List.map _) honce

/-- Each edit of a batch is told of by its answer and the revisions as what it did; and behind the batch every listener
is given one notice, of the layout if that moved, or of values if these did, or none if nothing moved. -/
theorem batch_reported (s : Source Observer) (edits : List Edit) (h : s.Reached) (hclean : s.data.IsClean)
    (hedits : ∀ e ∈ edits, ∀ v ∈ e.natives, v.isNaN = false) :
    let done := s.produce (.batch edits)
    let moved (count : Revisions → Nat) := count done.1.data.revisions ≠ count s.data.revisions
    (∀ before e after, edits = before ++ e :: after →
      let u := (s.data.editAll before).1
      done.2.1[before.length]? = some (u.edit e).2 ∧ u.Reports (u.edit e).1 (u.edit e).2) ∧
    (∀ count ∈ [Revisions.layout, Revisions.values], moved count ↔ ∃ before e after, edits = before ++ e :: after ∧
      let u := (s.data.editAll before).1
      count (u.edit e).1.revisions ≠ count u.revisions) ∧
    done.1.listeners = s.listeners ∧
    (∀ l ∈ s.listeners, ((done.1.given done.2.2).filter (·.1 = l.1)).map Prod.snd =
      if moved Revisions.layout then [.layout] else if moved Revisions.values then [.values] else []) ∧
    (∀ g ∈ done.1.given done.2.2, g.1 ∈ s.listeners.map Prod.fst) := by
  intro done moved
  refine ⟨fun before e after hsplit => ?_, fun count hcount => ?_, rfl, fun l hl => ?_, fun g hg => ?_⟩
  · subst hsplit
    have hbefore := (h.data.editAll before).fits
    have hcleaned := Dataset.clean_editAll hclean fun e he => hedits e (List.mem_append_left _ he)
    exact ⟨s.data.getElem?_editAll before e after, (Dataset.does_edit _ e).reports hbefore hcleaned⟩
  · refine Dataset.moved_editAll (fun a b hab => ?_) s.data edits
    rcases List.mem_cons.mp hcount with rfl | hcount
    · exact hab.2
    · rw [List.mem_singleton.mp hcount]
      exact hab.1
  · rw [filter_given (s := done.1) h.registered.1 done.2.2 hl]
    have hnotice : done.2.2 = s.data.revisions.notice? done.1.data.revisions := rfl
    rw [hnotice, Revisions.notice?]
    split
    · rfl
    · split <;> rfl
  · obtain ⟨n, -, hg⟩ := List.mem_flatMap.mp hg
    obtain ⟨l, hl, rfl⟩ := List.mem_map.mp hg
    exact List.mem_map_of_mem hl

theorem batch_reported_values :
    let columns := [("x", ColumnKind.native), ("f", ColumnKind.formula)]
    let schema : Schema := ⟨[⟨"x", .native, some 0⟩, ⟨"f", .formula, none⟩]⟩
    let s : Source Unit := (((Source.ofSchema schema).listen ()).1.produce
      (.batch [.pushRow [.number 1], .setFormula 0 (.index 1) "=A1"])).1
    let edits : List Edit := [.setValue 0 (.index 0) (.number 2), .addColumn "x" .native,
      .setFormula 0 (.name "f") "=A1"]
    let done := s.produce (.batch edits)
    let u := (s.data.editAll [.setValue 0 (.index 0) (.number 2)]).1
    Schema.ofColumns columns = .ok schema ∧ done.2.1.map Except.isOk = [true, false, true] ∧
      u.Reports (u.edit (.addColumn "x" .native)).1 (u.edit (.addColumn "x" .native)).2 ∧
      ∀ l ∈ s.listeners, l.1 = 0 → ((done.1.given done.2.2).filter (·.1 = 0)).map Prod.snd = [.values] := by
  intro columns schema s edits done u
  have hcolumns : Schema.ofColumns columns = .ok schema := by decide +kernel
  have hreached : s.Reached := ((Reached.start hcolumns).listen ()).produce _
  have hfields : s.data.rows.map (·.value.native) = [[.number 1]] := by decide +kernel
  have hclean : s.data.IsClean := fun r hr v hv => by
    have hnative : r.value.native ∈ s.data.rows.map (·.value.native) := List.mem_map_of_mem hr
    rw [hfields, List.mem_singleton] at hnative
    rw [hnative, List.mem_singleton] at hv
    rw [hv]
    decide +kernel
  have hedits : ∀ e ∈ edits, ∀ v ∈ e.natives, v.isNaN = false := by
    simp only [edits, List.forall_mem_cons, Edit.natives, List.mem_singleton, forall_eq]
    exact ⟨by decide +kernel, nofun, nofun⟩
  obtain ⟨hreports, -, -, hgiven, -⟩ := batch_reported s edits hreached hclean hedits
  refine ⟨hcolumns, by decide +kernel, (hreports [_] _ _ rfl).2, fun l hl hid => ?_⟩
  rw [← hid, hgiven l hl, if_neg (by decide +kernel), if_pos (by decide +kernel)]

end Source

end LiveSheet
