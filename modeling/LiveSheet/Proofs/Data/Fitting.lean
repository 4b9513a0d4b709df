import LiveSheet.Proofs.Data.Deposits

namespace LiveSheet

structure Schema.IsNumbered (s : Schema) : Prop where
  names : (s.columns.map (·.name)).Nodup
  slots : s.columns.filterMap (·.slot?) = List.range s.nativeCount
  kinds : ∀ c ∈ s.columns, c.kind = .formula ↔ c.slot? = none

structure Row.Fits (s : Schema) (r : Row) : Prop where
  fields : r.native.length = s.nativeCount
  formulas : ∀ k cell, r.formulas[k]? = some cell →
    (∃ c, s.column? k = some c ∧ c.kind = .formula) ∧ cell.formula?.isSome

namespace Schema

variable {s s' : Schema} {name : String} {kind : ColumnKind}

def appended (s : Schema) (name : String) (kind : ColumnKind) : Column :=
  ⟨name, kind, match kind with
    | .native => some s.nativeCount
    | .formula => none⟩

theorem columns_of_append (h : s.append name kind = .ok s') :
    (∀ c ∈ s.columns, c.name ≠ name) ∧ s'.columns = s.columns ++ [s.appended name kind] := by
  unfold append at h
  split at h
  · cases h
  · next hname =>
      cases h
      refine ⟨fun c hc => ?_, rfl⟩
      have hnone : s.indexOf? name = none := by simpa using hname
      simpa using List.findIdx?_eq_none_iff.mp hnone c hc

theorem nativeCount_of_append (h : s.append name kind = .ok s') :
    s'.nativeCount = s.nativeCount + if kind = .native then 1 else 0 := by
  rw [nativeCount, (columns_of_append h).2, List.countP_append]
  cases kind <;> rfl

theorem column?_of_append (h : s.append name kind = .ok s') {index : Nat} {c : Column} (hc : s.column? index = some c) :
    s'.column? index = some c := by
  obtain ⟨hindex, -⟩ := List.getElem?_eq_some_iff.mp hc
  rw [column?, (columns_of_append h).2, List.getElem?_append_left hindex]
  exact hc

theorem isNumbered_empty : empty.IsNumbered := ⟨List.nodup_nil, rfl, nofun⟩

theorem IsNumbered.append (hs : s.IsNumbered) (h : s.append name kind = .ok s') : s'.IsNumbered := by
  obtain ⟨hname, hcolumns⟩ := columns_of_append h
  have hcount := nativeCount_of_append h
  refine ⟨?_, ?_, fun c hc => ?_⟩
  · rw [hcolumns, List.map_append]
    refine List.nodup_append'.mpr ⟨hs.names, List.nodup_singleton _, fun title htitle hnew => ?_⟩
    obtain ⟨c, hc, rfl⟩ := List.mem_map.mp htitle
    exact hname c hc (List.mem_singleton.mp hnew)
  · rw [hcolumns, List.filterMap_append, hs.slots, hcount]
    cases kind with
    | native => exact List.range_succ.symm
    | formula => exact List.append_nil _
  · rw [hcolumns, List.mem_append, List.mem_singleton] at hc
    rcases hc with hc | rfl
    · exact hs.kinds c hc
    · cases kind <;> simp [appended]

theorem isNumbered_ofColumns {columns : List (String × ColumnKind)} (h : ofColumns columns = .ok s) : s.IsNumbered := by
  have hrun (columns : List (String × ColumnKind)) (start : Schema) (hstart : start.IsNumbered)
      (h : columns.foldlM (fun s c => s.append c.1 c.2) start = .ok s) : s.IsNumbered := by
    induction columns generalizing start with
    | nil =>
        cases h
        exact hstart
    | cons c columns ih =>
        rw [List.foldlM_cons] at h
        cases happend : start.append c.1 c.2 with
        | error e =>
            rw [happend] at h
            cases h
        | ok next =>
            rw [happend] at h
            exact ih next (hstart.append happend) h
  exact hrun columns .empty isNumbered_empty h

theorem IsNumbered.slot_lt (hs : s.IsNumbered) {index slot : Nat} {c : Column} (hc : s.column? index = some c)
    (hslot : c.slot? = some slot) : slot < s.nativeCount := by
  have hmem : slot ∈ s.columns.filterMap (·.slot?) := List.mem_filterMap.mpr ⟨c, List.mem_of_getElem? hc, hslot⟩
  rw [hs.slots] at hmem
  exact List.mem_range.mp hmem

end Schema

namespace Row.Fits

variable {s s' : Schema} {r r' : Row} {column : Nat} {c : Column}

theorem setField (h : r.Fits s) {slot : Nat} {v : Value} (hset : r.setField? slot v = some r') : r'.Fits s := by
  unfold setField? at hset
  split at hset
  · cases hset
  · cases hset
    exact ⟨List.length_set.trans h.fields, h.formulas⟩

theorem setFormula (h : r.Fits s) (hc : s.column? column = some c) (hkind : c.kind = .formula) {text : String}
    (hset : r.setFormula? column text = some r') : r'.Fits s := by
  unfold setFormula? at hset
  split at hset
  · cases hset
  · cases hset
    refine ⟨h.fields, fun k cell hcell => ?_⟩
    simp only [Std.ExtTreeMap.getElem?_insert, Std.LawfulEqCmp.compare_eq_iff_eq] at hcell
    split at hcell
    · next hk =>
        subst hk
        cases hcell
        exact ⟨⟨c, hc, hkind⟩, rfl⟩
    · exact h.formulas k cell hcell

theorem clearFormula (h : r.Fits s) (hclear : r.clearFormula? column = some r') : r'.Fits s := by
  unfold clearFormula? at hclear
  split at hclear
  · cases hclear
    refine ⟨h.fields, fun k cell hcell => ?_⟩
    simp only [Std.ExtTreeMap.getElem?_erase, Std.LawfulEqCmp.compare_eq_iff_eq] at hcell
    split at hcell
    · cases hcell
    · exact h.formulas k cell hcell
  · cases hclear

theorem of_append (h : r.Fits s) {name : String} {kind : ColumnKind} (happend : s.append name kind = .ok s')
    (hformulas : r'.formulas = r.formulas)
    (hfields : r'.native.length = r.native.length + if kind = .native then 1 else 0) : r'.Fits s' := by
  refine ⟨?_, fun k cell hcell => ?_⟩
  · rw [hfields, h.fields, Schema.nativeCount_of_append happend]
  · rw [hformulas] at hcell
    obtain ⟨⟨c, hc, hkind⟩, htext⟩ := h.formulas k cell hcell
    exact ⟨⟨c, Schema.column?_of_append happend hc, hkind⟩, htext⟩

theorem store (h : r.Fits s) (results : List (Nat × Outcome)) : (r.store results).Fits s := by
  induction results generalizing r with
  | nil => exact h
  | cons p results ih =>
      refine ih ⟨h.fields, fun k cell hcell => ?_⟩
      rw [getElem?_setCached] at hcell
      split at hcell
      · obtain ⟨old, hold, rfl⟩ := Option.map_eq_some_iff.mp hcell
        exact h.formulas k old hold
      · exact h.formulas k cell hcell

theorem isSome_content (h : r.Fits s) (hs : s.IsNumbered) (hcolumn : column < s.width) :
    (r.content? s column).isSome = true := by
  have hc : s.column? column = some s.columns[column] := List.getElem?_eq_getElem hcolumn
  unfold content?
  rw [hc]
  cases hkind : s.columns[column].kind with
  | formula => simp [hkind]
  | native =>
      have hslotted : s.columns[column].slot? ≠ none := by
        intro hnone
        have hformula := (hs.kinds _ (List.mem_of_getElem? hc)).mpr hnone
        cases hkind.symm.trans hformula
      obtain ⟨slot, hslot⟩ := Option.ne_none_iff_exists'.mp hslotted
      have hfield : slot < r.native.length := by
        rw [h.fields]
        exact hs.slot_lt hc hslot
      simp [hkind, hslot, hfield]

end Row.Fits

theorem Edit.Reworks.fits {s : Schema} {r r' : Row} {e : Edit} {row : Nat} {changed? : Option Row}
    (h : e.Reworks s r row changed?) (hchanged : changed? = some r') (hr : r.Fits s) : r'.Fits s := by
  cases h with
  | field => exact hr.setField hchanged
  | entry _ hc hkind => exact hr.setFormula hc hkind hchanged
  | clearing => exact hr.clearFormula hchanged

theorem Edit.Reworks.id_eq {s : Schema} {r r' : Row} {e : Edit} {row : Nat} {changed? : Option Row}
    (h : e.Reworks s r row changed?) (hchanged : changed? = some r') : r'.id = r.id := by
  cases h with
  | field =>
      unfold Row.setField? at hchanged
      split at hchanged <;> cases hchanged
      rfl
  | entry =>
      unfold Row.setFormula? at hchanged
      split at hchanged <;> cases hchanged
      rfl
  | clearing =>
      unfold Row.clearFormula? at hchanged
      split at hchanged <;> cases hchanged
      rfl

namespace Dataset

def ids (d : Dataset) : List Nat := d.rows.map (·.value.id)

structure Fits (d : Dataset) : Prop where
  columns : d.schema.value.IsNumbered
  rows : ∀ r ∈ d.rows, r.value.Fits d.schema.value
  ids : d.ids.Nodup
  fresh : ∀ id ∈ d.ids, id < d.nextRow

/-- Data behind edits and storing, whatever tables are stored. -/
inductive Reached : Dataset → Prop
  | start {columns : List (String × ColumnKind)} {s : Schema} (h : Schema.ofColumns columns = .ok s) :
      Reached (.ofSchema s)
  | edit {d : Dataset} (h : Reached d) (e : Edit) : Reached (d.edit e).1
  | store {d : Dataset} (h : Reached d) (t : Table) : Reached (d.storeResults t).1

variable {d d' : Dataset} {e : Edit} {answer : Receipt}

theorem values_extendRows (stamp : Nat) (rows : List (Stamped Row)) : (extendRows stamp rows).map (·.value) =
    rows.map fun r => { r.value with native := r.value.native ++ [.blank] } := by
  induction rows generalizing stamp with
  | nil => rfl
  | cons r rows ih => exact congrArg (_ :: ·) (ih (stamp + 1))

theorem mem_extendRows {stamp : Nat} {rows : List (Stamped Row)} {r : Stamped Row} (h : r ∈ extendRows stamp rows) :
    ∃ old ∈ rows, r.value = { old.value with native := old.value.native ++ [.blank] } := by
  have hvalue : r.value ∈ (extendRows stamp rows).map (·.value) := List.mem_map_of_mem h
  rw [values_extendRows] at hvalue
  obtain ⟨old, hold, hvalue⟩ := List.mem_map.mp hvalue
  exact ⟨old, hold, hvalue.symm⟩

theorem ids_eq (d : Dataset) : d.ids = (d.rows.map (·.value)).map Row.id := List.map_map.symm

theorem ids_reopen {index : Nat} {r : Stamped Row} {changed? : Option Row} (hr : d.rows[index]? = some r)
    (hid : ∀ row ∈ changed?, row.id = r.value.id) : (d.reopen index r.value changed?).ids = d.ids := by
  have hsame : (changed?.getD r.value).id = r.value.id := by
    cases changed? with
    | none => rfl
    | some row => exact hid row rfl
  obtain ⟨hindex, rfl⟩ := List.getElem?_eq_some_iff.mp hr
  rw [ids, reopen, List.map_set, hsame]
  exact List.map_set.symm.trans (congrArg (List.map _) (List.set_getElem_self hindex))

theorem ids_appendColumn (s : Schema) (kind : ColumnKind) : (d.appendColumn s kind).ids = d.ids := by
  cases kind with
  | formula => rfl
  | native =>
      rw [ids_eq]
      refine (congrArg (List.map Row.id) (values_extendRows (d.nextStamp + 1) d.rows)).trans ?_
      rw [List.map_map]
      rfl

theorem Fits.appendColumn (h : d.Fits) {name : String} {kind : ColumnKind} {s : Schema}
    (happend : d.schema.value.append name kind = .ok s) : (d.appendColumn s kind).Fits := by
  refine ⟨h.columns.append happend, fun r hr => ?_, ?_, ?_⟩
  · cases kind with
    | formula => exact (h.rows r hr).of_append happend rfl rfl
    | native =>
        obtain ⟨old, hold, hvalue⟩ := mem_extendRows hr
        rw [hvalue]
        exact (h.rows old hold).of_append happend rfl List.length_append
  · rw [ids_appendColumn]
    exact h.ids
  · rw [ids_appendColumn]
    exact h.fresh

theorem Does.fits (hdoes : d.Does e d' answer) (h : d.Fits) : d'.Fits := by
  cases hdoes with
  | refuse => exact h
  | refuseColumn => exact ⟨h.columns, h.rows, h.ids, h.fresh⟩
  | @push native hfields =>
      have hids : (d.appendRow native).ids = d.ids ++ [d.nextRow] := List.map_append
      refine ⟨h.columns, fun r hr => ?_, ?_, fun id hid => ?_⟩
      · rcases List.mem_append.mp hr with hr | hr
        · exact h.rows r hr
        · obtain rfl := List.mem_singleton.mp hr
          exact ⟨hfields, fun k cell hcell => by simp at hcell⟩
      · rw [hids]
        refine List.nodup_append'.mpr ⟨h.ids, List.nodup_singleton _, fun id hid hnew => ?_⟩
        exact Nat.ne_of_lt (h.fresh id hid) (List.mem_singleton.mp hnew)
      · rw [hids, List.mem_append, List.mem_singleton] at hid
        rcases hid with hid | rfl
        · exact Nat.lt_succ_of_lt (h.fresh id hid)
        · exact Nat.lt_succ_self _
  | @remove row r hr =>
      have hids : (d.eraseRow row).ids.Sublist d.ids := (List.eraseIdx_sublist ..).map _
      exact ⟨h.columns, fun r hr => h.rows r (List.mem_of_mem_eraseIdx hr), hids.nodup h.ids,
        fun id hid => h.fresh id (hids.subset hid)⟩
  | add happend => exact h.appendColumn happend
  | @rework e row r changed? hr hwork =>
      have hids : (d.reopen row r.value changed?).ids = d.ids :=
        ids_reopen hr fun row hrow => hwork.id_eq hrow
      refine ⟨h.columns, fun x hx => ?_, hids ▸ h.ids, hids ▸ h.fresh⟩
      rcases List.mem_or_eq_of_mem_set hx with hx | rfl
      · exact h.rows x hx
      · have hold := h.rows r (List.mem_of_getElem? hr)
        cases hchanged : changed? with
        | none => exact hold
        | some row => exact hwork.fits hchanged hold

theorem fits_ofSchema {s : Schema} (h : s.IsNumbered) : (ofSchema s).Fits := ⟨h, nofun, List.nodup_nil, nofun⟩

theorem fits_storeResults (h : d.Fits) (t : Table) : (d.storeResults t).1.Fits := by
  have hids : (d.storeResults t).1.ids = d.ids := by
    have hrecords := congrArg (List.map Prod.fst) (d.records_storeResults t)
    rwa [records, records, List.map_map, List.map_map] at hrecords
  refine ⟨?_, fun r hr => ?_, hids ▸ h.ids, ?_⟩
  · rw [schema_storeResults]
    exact h.columns
  · rw [schema_storeResults]
    unfold storeResults at hr
    split at hr
    · exact h.rows r hr
    · obtain ⟨i, hi⟩ := List.mem_iff_getElem?.mp hr
      have hvalue := value_storeRows (s := d.schema.value) d.nextStamp d.rows t.rows i
      rw [hi, Option.map_some] at hvalue
      obtain ⟨live, hlive, hvalue⟩ := Option.map_eq_some_iff.mp hvalue.symm
      rw [← hvalue]
      exact (h.rows live (List.mem_of_getElem? hlive)).store _
  · rw [hids, nextRow_storeResults]
    exact h.fresh

theorem Reached.fits (h : d.Reached) : d.Fits := by
  induction h with
  | start hs => exact fits_ofSchema (Schema.isNumbered_ofColumns hs)
  | edit _ e ih => exact (does_edit _ e).fits ih
  | store _ t ih => exact fits_storeResults ih t

theorem Reached.editAll (h : d.Reached) (edits : List Edit) : (d.editAll edits).1.Reached := by
  induction edits generalizing d with
  | nil => exact h
  | cons e edits ih => exact ih (h.edit e)

/-- However data were edited and stored into, the rows fit the columns: a slot that a value is written to is one of the
row's, and every row has content in every column, also in a snapshot. -/
theorem rows_fit_columns (h : d.Reached) :
    d.Fits ∧
    (∀ (row column : Nat) (r : Stamped Row) (c : Column) (slot : Nat), d.rows[row]? = some r →
      d.schema.value.column column = .ok c → c.slot? = some slot → slot < r.value.native.length) ∧
    (∀ r ∈ d.rows, ∀ column < d.schema.value.width, (r.value.content? d.schema.value column).isSome = true) ∧
    ∀ row < d.snapshot.size, ∀ column < d.snapshot.schema.value.width,
      (d.snapshot.content? row column).isSome = true := by
  have hfits := h.fits
  have hcontent : ∀ r ∈ d.rows, ∀ column < d.schema.value.width,
      (r.value.content? d.schema.value column).isSome = true :=
    fun r hr column hcolumn => (hfits.rows r hr).isSome_content hfits.columns hcolumn
  refine ⟨hfits, ?_, hcontent, ?_⟩
  · intro row column r c slot hr hc hslot
    rw [(hfits.rows r (List.mem_of_getElem? hr)).fields]
    have hcolumn : d.schema.value.column? column = some c := by
      unfold Schema.column at hc
      split at hc
      · next c' hc' =>
          cases hc
          exact hc'
      · cases hc
    exact hfits.columns.slot_lt hcolumn hslot
  · intro row hrow column hcolumn
    have hr : d.snapshot.rows[row]? = some d.rows[row] := List.getElem?_eq_getElem hrow
    unfold Snapshot.content?
    rw [hr]
    exact hcontent _ (List.getElem_mem hrow) column hcolumn

theorem rows_fit_columns_behind_refusals :
    let schema : Schema := ⟨[⟨"x", .native, some 0⟩, ⟨"f", .formula, none⟩]⟩
    let edits : List Edit := [.pushRow [.number 1], .setFormula 0 (.index 1) "=A1", .addColumn "y" .native,
      .addColumn "y" .formula, .pushRow [.number 2], .pushRow [.number 2, .number 3], .removeRow 0]
    let d := ((Dataset.ofSchema schema).editAll edits).1
    Schema.ofColumns [("x", .native), ("f", .formula)] = .ok schema ∧
      ((Dataset.ofSchema schema).editAll edits).2.map Except.isOk = [true, true, true, false, false, true, true] ∧
      d.Reached ∧ d.ids = [1] ∧ d.Fits ∧ (d.snapshot.content? 0 2).isSome = true := by
  intro schema edits d
  have hcolumns : Schema.ofColumns [("x", .native), ("f", .formula)] = .ok schema := by decide +kernel
  have hreached : d.Reached := (Reached.start hcolumns).editAll edits
  obtain ⟨hfits, -, -, hcontent⟩ := rows_fit_columns hreached
  exact ⟨hcolumns, by decide +kernel, hreached, by decide +kernel, hfits,
    hcontent 0 (by decide +kernel) 2 (by decide +kernel)⟩

end Dataset

end LiveSheet
