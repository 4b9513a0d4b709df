import LiveSheet.Data.Edit

namespace LiveSheet

inductive Edit.Reworks (s : Schema) (r : Row) : Edit → Nat → Option Row → Prop
  | field {row column slot : Nat} {k : ColumnKey} {v : Value} {c : Column} (hk : k.resolve s = .ok column)
      (hc : s.column? column = some c) (hslot : c.slot? = some slot) :
      Reworks s r (.setValue row k v) row (r.setField? slot v)
  | entry {row column : Nat} {k : ColumnKey} {text : String} {c : Column} (hk : k.resolve s = .ok column)
      (hc : s.column? column = some c) (hkind : c.kind = .formula) :
      Reworks s r (.setFormula row k text) row (r.setFormula? column text)
  | clearing {row column : Nat} {c : Column} (hc : s.column? column = some c) (hkind : c.kind = .formula) :
      Reworks s r (.clearFormula row column) row (r.clearFormula? column)

theorem Schema.column_eq {s : Schema} {index : Nat} {c : Column} (h : s.column index = .ok c) :
    s.column? index = some c := by
  unfold column at h
  split at h
  · next hc =>
      cases h
      exact hc
  · cases h

namespace Dataset

def reopen (d : Dataset) (index : Nat) (r : Row) (changed? : Option Row) : Dataset :=
  { d with
    rows := d.rows.set index ⟨d.nextStamp, changed?.getD r⟩
    revisions := if changed?.isSome then { d.revisions with values := d.revisions.values + 1 } else d.revisions
    nextStamp := d.nextStamp + 1 }

def reopenColumns (d : Dataset) (s : Schema) : Dataset :=
  { d with schema := ⟨d.nextStamp, s⟩, nextStamp := d.nextStamp + 1 }

def appendRow (d : Dataset) (native : List Value) : Dataset :=
  { d with
    rows := d.rows ++ [⟨d.nextStamp, { id := d.nextRow, native := native }⟩]
    revisions := { d.revisions with layout := d.revisions.layout + 1 }
    nextRow := d.nextRow + 1
    nextStamp := d.nextStamp + 1 }

def eraseRow (d : Dataset) (index : Nat) : Dataset :=
  { d with
    rows := d.rows.eraseIdx index
    revisions := { d.revisions with layout := d.revisions.layout + 1 } }

def appendColumn (d : Dataset) (s : Schema) (kind : ColumnKind) : Dataset :=
  let opened := d.reopenColumns s
  { opened with
    rows := if kind = .native then extendRows opened.nextStamp opened.rows else opened.rows
    revisions := { d.revisions with layout := d.revisions.layout + 1 }
    nextStamp := if kind = .native then opened.nextStamp + opened.size else opened.nextStamp }

inductive Does (d : Dataset) : Edit → Dataset → Receipt → Prop
  | refuse {e : Edit} {error : DatasetError} (he : ∀ name kind, e ≠ .addColumn name kind) : Does d e d (.error error)
  | refuseColumn {name : String} {kind : ColumnKind} {error : DatasetError}
      (h : d.schema.value.append name kind = .error error) :
      Does d (.addColumn name kind) (d.reopenColumns d.schema.value) (.error error)
  | push {native : List Value} (h : native.length = d.schema.value.nativeCount) :
      Does d (.pushRow native) (d.appendRow native) (.ok (some d.nextRow))
  | remove {row : Nat} {r : Stamped Row} (h : d.rows[row]? = some r) :
      Does d (.removeRow row) (d.eraseRow row) (.ok (some r.value.id))
  | add {name : String} {kind : ColumnKind} {s : Schema} (h : d.schema.value.append name kind = .ok s) :
      Does d (.addColumn name kind) (d.appendColumn s kind) (.ok (some d.schema.value.width))
  | rework {e : Edit} {row : Nat} {r : Stamped Row} {changed? : Option Row} (hr : d.rows[row]? = some r)
      (h : e.Reworks d.schema.value r.value row changed?) : Does d e (d.reopen row r.value changed?) (.ok none)

variable (d : Dataset)

theorem rework_eq (index : Nat) (change : Row → Option Row) :
    (∃ error, d.rework index change = (d, .error error)) ∨
      ∃ r, d.rows[index]? = some r ∧ d.rework index change = (d.reopen index r.value (change r.value), .ok ()) := by
  unfold rework
  cases hr : d.rows[index]? with
  | none => exact .inl ⟨_, rfl⟩
  | some r =>
      refine .inr ⟨r, rfl, ?_⟩
      cases hchange : change r.value with
      | none => simp only [reopen, hchange, Option.getD_none, Option.isSome_none, Bool.false_eq_true, if_false]
      | some row => simp only [reopen, hchange, Option.getD_some, Option.isSome_some, if_true]

theorem does_rework {e : Edit} {row : Nat} {change : Row → Option Row} (he : ∀ name kind, e ≠ .addColumn name kind)
    (h : ∀ r : Stamped Row, e.Reworks d.schema.value r.value row (change r.value)) :
    d.Does e (d.rework row change).1 ((d.rework row change).2.map fun _ => none) := by
  rcases d.rework_eq row change with ⟨error, heq⟩ | ⟨r, hr, heq⟩
  · rw [heq]
    exact .refuse he
  · rw [heq]
    exact .rework hr (h r)

theorem does_onColumn {e : Edit} {k : ColumnKey} {f : Nat → Dataset × Except DatasetError Unit}
    (he : ∀ name kind, e ≠ .addColumn name kind)
    (h : ∀ column, k.resolve d.schema.value = .ok column → d.Does e (f column).1 ((f column).2.map fun _ => none)) :
    d.Does e (d.onColumn k f).1 ((d.onColumn k f).2.map fun _ => none) := by
  unfold onColumn
  split
  · exact .refuse he
  · next column hk => exact h column hk

theorem does_setValue {row column : Nat} {k : ColumnKey} {v : Value} (hk : k.resolve d.schema.value = .ok column) :
    d.Does (.setValue row k v) (d.setValue row column v).1 ((d.setValue row column v).2.map fun _ => none) := by
  unfold setValue
  split
  · exact .refuse nofun
  · next c hc =>
      split
      · exact .refuse nofun
      · next slot hslot => exact d.does_rework nofun fun r => .field hk (Schema.column_eq hc) hslot

theorem does_setFormula {row column : Nat} {k : ColumnKey} {text : String}
    (hk : k.resolve d.schema.value = .ok column) : d.Does (.setFormula row k text)
      (d.setFormula row column text).1 ((d.setFormula row column text).2.map fun _ => none) := by
  unfold setFormula
  split
  · exact .refuse nofun
  · next c hc =>
      split
      · exact .refuse nofun
      · next hkind => exact d.does_rework nofun fun r => .entry hk (Schema.column_eq hc) hkind

theorem does_clearFormula (row column : Nat) : d.Does (.clearFormula row column)
    (d.clearFormula row column).1 ((d.clearFormula row column).2.map fun _ => none) := by
  unfold clearFormula
  split
  · exact .refuse nofun
  · next c hc =>
      split
      · exact .refuse nofun
      · next hkind => exact d.does_rework nofun fun r => .clearing (Schema.column_eq hc) hkind

theorem does_addColumn (name : String) (kind : ColumnKind) :
    d.Does (.addColumn name kind) (d.addColumn name kind).1 ((d.addColumn name kind).2.map some) := by
  unfold addColumn
  split
  · next error h => exact .refuseColumn h
  · next s h => cases kind <;> exact .add h

theorem does_edit (e : Edit) : d.Does e (d.edit e).1 (d.edit e).2 := by
  cases e with
  | pushRow native =>
      simp only [edit, pushRow]
      split
      · exact .refuse nofun
      · next h => exact .push (Classical.not_not.mp h)
  | removeRow row =>
      simp only [edit, removeRow]
      split
      · exact .refuse nofun
      · next r h => exact .remove h
  | addColumn name kind => exact d.does_addColumn name kind
  | setValue row k v => exact d.does_onColumn nofun fun column hk => d.does_setValue hk
  | setFormula row k text => exact d.does_onColumn nofun fun column hk => d.does_setFormula hk
  | clearFormula row column => exact d.does_clearFormula row column

end Dataset

end LiveSheet
