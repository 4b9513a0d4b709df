import LiveSheet.Data.Source
import Mathlib.Order.Defs.PartialOrder

namespace LiveSheet

namespace Revisions

instance : LE Revisions := ⟨fun a b => a.values ≤ b.values ∧ a.layout ≤ b.layout⟩

instance : PartialOrder Revisions where
  le_refl _ := ⟨Nat.le_refl _, Nat.le_refl _⟩
  le_trans _ _ _ h k := ⟨Nat.le_trans h.1 k.1, Nat.le_trans h.2 k.2⟩
  le_antisymm a b h k := by
    cases a
    cases b
    obtain ⟨hv, hl⟩ := h
    obtain ⟨kv, kl⟩ := k
    rw [mk.injEq]
    exact ⟨Nat.le_antisymm hv kv, Nat.le_antisymm hl kl⟩

variable (r : Revisions)

theorem le_values : r ≤ { r with values := r.values + 1 } := ⟨Nat.le_succ _, Nat.le_refl _⟩

theorem le_layout : r ≤ { r with layout := r.layout + 1 } := ⟨Nat.le_refl _, Nat.le_succ _⟩

theorem eq_of_no_notice {before after : Revisions} (h : before.notice? after = none) : after = before := by
  unfold notice? at h
  split at h
  · cases h
  · next hlayout =>
      split at h
      · cases h
      · next hvalues =>
          cases before
          cases after
          rw [mk.injEq]
          exact ⟨Classical.not_not.mp hvalues, Classical.not_not.mp hlayout⟩

end Revisions

namespace Dataset

variable (d : Dataset)

theorem revisions_rework (index : Nat) (change : Row → Option Row) :
    d.revisions ≤ (d.rework index change).1.revisions := by
  unfold rework
  split
  · exact le_refl _
  · split
    · exact le_refl _
    · exact d.revisions.le_values

theorem revisions_setValue (row column : Nat) (v : Value) : d.revisions ≤ (d.setValue row column v).1.revisions := by
  unfold setValue
  split
  · exact le_refl _
  · split
    · exact le_refl _
    · exact d.revisions_rework _ _

theorem revisions_setFormula (row column : Nat) (text : String) :
    d.revisions ≤ (d.setFormula row column text).1.revisions := by
  unfold setFormula
  split
  · exact le_refl _
  · split
    · exact le_refl _
    · exact d.revisions_rework _ _

theorem revisions_clearFormula (row column : Nat) : d.revisions ≤ (d.clearFormula row column).1.revisions := by
  unfold clearFormula
  split
  · exact le_refl _
  · split
    · exact le_refl _
    · exact d.revisions_rework _ _

theorem revisions_addColumn (name : String) (kind : ColumnKind) :
    d.revisions ≤ (d.addColumn name kind).1.revisions := by
  unfold addColumn
  split
  · exact le_refl _
  · cases kind <;> exact d.revisions.le_layout

theorem revisions_onColumn (k : ColumnKey) {f : Nat → Dataset × Except DatasetError Unit}
    (hf : ∀ column, d.revisions ≤ (f column).1.revisions) : d.revisions ≤ (d.onColumn k f).1.revisions := by
  unfold onColumn
  split
  · exact le_refl _
  · exact hf _

theorem revisions_edit (e : Edit) : d.revisions ≤ (d.edit e).1.revisions := by
  cases e with
  | pushRow native =>
      simp only [edit, pushRow]
      split
      · exact le_refl _
      · exact d.revisions.le_layout
  | removeRow row =>
      simp only [edit, removeRow]
      split
      · exact le_refl _
      · exact d.revisions.le_layout
  | addColumn name kind => exact d.revisions_addColumn name kind
  | setValue row k v => exact d.revisions_onColumn k fun column => d.revisions_setValue row column v
  | setFormula row k text => exact d.revisions_onColumn k fun column => d.revisions_setFormula row column text
  | clearFormula row column => exact d.revisions_clearFormula row column

theorem revisions_editAll (edits : List Edit) : d.revisions ≤ (d.editAll edits).1.revisions := by
  induction edits generalizing d with
  | nil => exact le_refl _
  | cons e edits ih => exact le_trans (d.revisions_edit e) (ih (d.edit e).1)

theorem revisions_storeResults (t : Table) : (d.storeResults t).1.revisions = d.revisions := by
  unfold storeResults
  split <;> rfl

end Dataset

namespace Source

variable {Observer : Type} (s : Source Observer) (p : Production)

theorem revisions_produce : s.data.revisions ≤ (s.produce p).1.data.revisions := by
  cases p with
  | edit e => exact s.data.revisions_editAll [e]
  | batch edits => exact s.data.revisions_editAll edits
  | fire n => exact le_refl _

theorem listeners_produce : (s.produce p).1.listeners = s.listeners := by
  cases p <;> rfl

theorem revisions_of_no_notice (h : (s.produce p).2.2 = none) :
    (s.produce p).1.data.revisions = s.data.revisions := by
  cases p with
  | edit e => exact Revisions.eq_of_no_notice h
  | batch edits => exact Revisions.eq_of_no_notice h
  | fire n => cases h

end Source

end LiveSheet
