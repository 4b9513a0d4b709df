import LiveSheet.Data.Source

namespace LiveSheet

def Stamped.Precedes {α : Type} (a b : Stamped α) : Prop := a.stamp < b.stamp ∨ a = b

namespace Stamped.Precedes

variable {α : Type} {a b c : Stamped α}

theorem refl (a : Stamped α) : a.Precedes a := .inr rfl

theorem trans (h : a.Precedes b) (k : b.Precedes c) : a.Precedes c := by
  rcases h with h | rfl
  · rcases k with k | rfl
    · exact .inl (Nat.lt_trans h k)
    · exact .inl h
  · exact k

theorem eq_of_stamp (h : a.Precedes b) (hstamp : a.stamp = b.stamp) : a = b := by
  rcases h with h | h
  · exact absurd hstamp (Nat.ne_of_lt h)
  · exact h

end Stamped.Precedes

namespace Dataset

def IsStamped (d : Dataset) : Prop := d.schema.stamp < d.nextStamp

theorem isStamped_ofSchema (s : Schema) : (ofSchema s).IsStamped := Nat.one_pos

structure Advances (d d' : Dataset) : Prop where
  stamped : d.IsStamped → d'.IsStamped
  precedes : d.IsStamped → d.schema.Precedes d'.schema

variable {d d' d'' : Dataset}

theorem Advances.refl (d : Dataset) : d.Advances d := ⟨id, fun _ => .refl _⟩

theorem Advances.trans (h : d.Advances d') (k : d'.Advances d'') : d.Advances d'' :=
  ⟨fun hd => k.stamped (h.stamped hd), fun hd => (h.precedes hd).trans (k.precedes (h.stamped hd))⟩

theorem advances_of_same (hschema : d'.schema = d.schema) (hstamp : d.nextStamp ≤ d'.nextStamp) : d.Advances d' := by
  refine ⟨fun hd => ?_, fun _ => .inr hschema.symm⟩
  rw [IsStamped, hschema]
  exact Nat.lt_of_lt_of_le hd hstamp

variable (d)

theorem advances_rework (index : Nat) (change : Row → Option Row) : d.Advances (d.rework index change).1 := by
  unfold rework
  split
  · exact .refl d
  · split
    · exact advances_of_same rfl (Nat.le_succ _)
    · exact advances_of_same rfl (Nat.le_succ _)

theorem advances_setValue (row column : Nat) (v : Value) : d.Advances (d.setValue row column v).1 := by
  unfold setValue
  split
  · exact .refl d
  · split
    · exact .refl d
    · exact d.advances_rework _ _

theorem advances_setFormula (row column : Nat) (text : String) : d.Advances (d.setFormula row column text).1 := by
  unfold setFormula
  split
  · exact .refl d
  · split
    · exact .refl d
    · exact d.advances_rework _ _

theorem advances_clearFormula (row column : Nat) : d.Advances (d.clearFormula row column).1 := by
  unfold clearFormula
  split
  · exact .refl d
  · split
    · exact .refl d
    · exact d.advances_rework _ _

theorem advances_addColumn (name : String) (kind : ColumnKind) : d.Advances (d.addColumn name kind).1 := by
  unfold addColumn
  split
  · exact ⟨fun _ => Nat.lt_succ_self _, .inl⟩
  · cases kind with
    | formula => exact ⟨fun _ => Nat.lt_succ_self _, .inl⟩
    | native => exact ⟨fun _ => Nat.lt_of_lt_of_le (Nat.lt_succ_self _) (Nat.le_add_right _ _), .inl⟩

theorem advances_onColumn (k : ColumnKey) {f : Nat → Dataset × Except DatasetError Unit}
    (hf : ∀ column, d.Advances (f column).1) : d.Advances (d.onColumn k f).1 := by
  unfold onColumn
  split
  · exact .refl d
  · exact hf _

theorem advances_edit (e : Edit) : d.Advances (d.edit e).1 := by
  cases e with
  | pushRow native =>
      simp only [edit, pushRow]
      split
      · exact .refl d
      · exact advances_of_same rfl (Nat.le_succ _)
  | removeRow row =>
      simp only [edit, removeRow]
      split
      · exact .refl d
      · exact advances_of_same rfl (Nat.le_refl _)
  | addColumn name kind => exact d.advances_addColumn name kind
  | setValue row k v => exact d.advances_onColumn k fun column => d.advances_setValue row column v
  | setFormula row k text => exact d.advances_onColumn k fun column => d.advances_setFormula row column text
  | clearFormula row column => exact d.advances_clearFormula row column

theorem advances_editAll (edits : List Edit) : d.Advances (d.editAll edits).1 := by
  induction edits generalizing d with
  | nil => exact .refl d
  | cons e edits ih => exact (d.advances_edit e).trans (ih (d.edit e).1)

theorem le_nextStamp_storeRows (s : Schema) (stamp : Nat) (rows : List (Stamped Row)) (computed : List ComputedRow) :
    stamp ≤ (storeRows s stamp rows computed).nextStamp := by
  fun_induction storeRows s stamp rows computed with
  | case1 stamp live rows computed rest results hempty done ih => exact ih
  | case2 stamp live rows computed rest results hempty row done ih => exact Nat.le_of_succ_le ih
  | case3 => exact Nat.le_refl _

theorem advances_storeResults (t : Table) : d.Advances (d.storeResults t).1 := by
  unfold storeResults
  split
  · exact .refl d
  · exact advances_of_same rfl (le_nextStamp_storeRows ..)

end Dataset

namespace Source

variable {Observer : Type}

theorem advances_produce (s : Source Observer) (p : Production) : s.data.Advances (s.produce p).1.data := by
  cases p with
  | edit e => exact s.data.advances_editAll [e]
  | batch edits => exact s.data.advances_editAll edits
  | fire n => exact .refl _

end Source

end LiveSheet
