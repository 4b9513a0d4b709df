import LiveSheet.Proofs.Cell.Alike
import LiveSheet.Proofs.Number.Line

namespace LiveSheet

abbrev Place : Type := Int ⊕ₗ (List Char ⊕ₗ Bool)

section Sum

variable {α β : Type} [LinearOrder α] [LinearOrder β]

theorem compare_inl (a b : α) : compare (Sum.inlₗ a : α ⊕ₗ β) (Sum.inlₗ b) = compare a b := by
  simp [LinearOrder.compare_eq_compareOfLessAndEq, compareOfLessAndEq]

theorem compare_inr (a b : β) : compare (Sum.inrₗ a : α ⊕ₗ β) (Sum.inrₗ b) = compare a b := by
  simp [LinearOrder.compare_eq_compareOfLessAndEq, compareOfLessAndEq]

theorem compare_inl_inr (a : α) (b : β) : compare (Sum.inlₗ a : α ⊕ₗ β) (Sum.inrₗ b) = .lt :=
  compare_lt_iff_lt.mpr (Sum.Lex.inl_lt_inr a b)

theorem compare_inr_inl (a : α) (b : β) : compare (Sum.inrₗ b : α ⊕ₗ β) (Sum.inlₗ a) = .gt :=
  compare_gt_iff_gt.mpr (Sum.Lex.inl_lt_inr a b)

end Sum

namespace Text

theorem compare_eq_lt_iff {s t : List Char} : compare s t = .lt ↔ s < t := by
  induction s generalizing t with
  | nil => cases t <;> simp
  | cons c s ih =>
      cases t with
      | nil => simp
      | cons d t =>
          rw [List.compare_cons_cons, Ordering.then_eq_lt, List.cons_lt_cons_iff, ih, Std.LawfulLTCmp.eq_lt_iff_lt,
            Std.LawfulEqCmp.compare_eq_iff_eq]

end Text

namespace Place

def number (position : Int) : Place := Sum.inlₗ position

def text (letters : List Char) : Place := Sum.inrₗ (Sum.inlₗ letters)

def truth (b : Bool) : Place := Sum.inrₗ (Sum.inrₗ b)

variable {p q : Int} {s t : List Char} {a b : Bool}

@[simp]
theorem compare_number : compare (number p) (number q) = compare p q := compare_inl p q

@[simp]
theorem compare_text : compare (text s) (text t) = compare s t := by
  rw [text, text, compare_inr, compare_inl]
  -- on the left texts are compared as members of a linear order, on the right letter by letter
  rcases lt_trichotomy s t with h | rfl | h
  · rw [compare_lt_iff_lt.mpr h, Text.compare_eq_lt_iff.mpr h]
  · rw [compare_eq_iff_eq.mpr rfl, Std.ReflOrd.compare_self]
  · rw [compare_gt_iff_gt.mpr h, Std.OrientedCmp.gt_iff_lt.mpr (Text.compare_eq_lt_iff.mpr h)]

@[simp]
theorem compare_truth : compare (truth a) (truth b) = compare a b := by
  rw [truth, truth, compare_inr, compare_inr]

@[simp]
theorem compare_number_text : compare (number p) (text s) = .lt := compare_inl_inr _ _

@[simp]
theorem compare_text_number : compare (text s) (number p) = .gt := compare_inr_inl _ _

@[simp]
theorem compare_number_truth : compare (number p) (truth b) = .lt := compare_inl_inr _ _

@[simp]
theorem compare_truth_number : compare (truth b) (number p) = .gt := compare_inr_inl _ _

@[simp]
theorem compare_text_truth : compare (text s) (truth b) = .lt := (compare_inr _ _).trans (compare_inl_inr _ _)

@[simp]
theorem compare_truth_text : compare (truth b) (text s) = .gt := (compare_inr _ _).trans (compare_inr_inl _ _)

end Place

namespace Text

theorem lowerChar_ne_nil (c : Char) : lowerChar c ≠ [] := by
  unfold lowerChar
  split
  · exact List.cons_ne_nil _ _
  split
  · exact List.cons_ne_nil _ _
  split <;> exact List.cons_ne_nil _ _

theorem lowerCase_cons_ne_nil (c : Char) (cs : List Char) : lowerCase (c :: cs) ≠ [] := by
  intro h
  rw [lowerCase, lowerAfter, List.append_eq_nil_iff] at h
  have hfirst := h.1
  split at hfirst
  · split at hfirst <;> cases hfirst
  · exact lowerChar_ne_nil c hfirst

theorem compare_lowerCase_nil (cs : List Char) : compare (lowerCase cs) [] = compare cs [] := by
  cases cs with
  | nil => rfl
  | cons c cs =>
      cases h : lowerCase (c :: cs) with
      | nil => exact absurd h (lowerCase_cons_ne_nil c cs)
      | cons d ds => rfl

theorem compare_nil_lowerCase (cs : List Char) : compare [] (lowerCase cs) = compare [] cs :=
  calc compare [] (lowerCase cs)
    _ = (compare (lowerCase cs) []).swap := Std.OrientedOrd.eq_swap
    _ = (compare cs []).swap := by rw [compare_lowerCase_nil]
    _ = compare [] cs := Std.OrientedOrd.eq_swap.symm

end Text

namespace Number

theorem compare?_getD (x y : Float) : (compare? x y).getD .eq =
    compare ((position? x).getD ((position? y).getD 0)) ((position? y).getD ((position? x).getD 0)) := by
  unfold compare?
  cases position? x <;> cases position? y <;> simp

end Number

namespace Value

/-- Where a value stands beside another. A blank stands as zero, and beside a text as the empty text; a NaN stands where
the number beside it does. -/
def placeBeside : Value → Value → Place
  | .text s, _ => .text (Text.lowerCase s.toList)
  | .truth b, _ => .truth b
  | .blank, .text _ => .text []
  | v, w => .number ((Number.position? v.lineNumber).getD ((Number.position? w.lineNumber).getD 0))

theorem order_eq_compare (v w : Value) : v.order w = compare (v.placeBeside w) (w.placeBeside v) := by
  cases v <;> cases w
  case text.text => exact Place.compare_text.symm
  case truth.truth => exact Place.compare_truth.symm
  case text.blank s => exact (Text.compare_lowerCase_nil s.toList).symm.trans Place.compare_text.symm
  case blank.text s => exact (Text.compare_nil_lowerCase s.toList).symm.trans Place.compare_text.symm
  case blank.blank | blank.number | number.blank | number.number =>
    simp only [order, placeBeside, rank, and_self, if_true, Number.compare?_getD, Place.compare_number]
  -- all that is left are values of two kinds, which the ranks tell apart
  all_goals simp [order, placeBeside, rank, Nat.compare_eq_lt, Nat.compare_eq_gt]

variable {u v w : Value}

theorem order_swap (v w : Value) : w.order v = (v.order w).swap := by
  rw [order_eq_compare, order_eq_compare v w]
  exact Std.OrientedOrd.eq_swap

theorem isLE_order_total (v w : Value) : (v.order w).isLE = true ∨ (w.order v).isLE = true := by
  rw [order_swap v w]
  cases v.order w
  · exact .inl rfl
  · exact .inl rfl
  · exact .inr rfl

def IsPlaced (v : Value) : Prop := v.isBlank = false ∧ v.isNaN = false

instance (v : Value) : Decidable v.IsPlaced := instDecidableAnd

def place (v : Value) : Place := v.placeBeside v

theorem placeBeside_eq_place (hv : v.IsPlaced) (w : Value) : v.placeBeside w = v.place := by
  obtain ⟨hblank, hnumber⟩ := hv
  cases v with
  | blank => cases hblank
  | number n =>
      obtain ⟨p, hp⟩ := Number.exists_position hnumber
      simp only [place, placeBeside, lineNumber, hp, Option.getD_some]
  | text s => rfl
  | truth b => rfl

theorem order_eq_compare_place (hv : v.IsPlaced) (hw : w.IsPlaced) : v.order w = compare v.place w.place := by
  rw [order_eq_compare, placeBeside_eq_place hv, placeBeside_eq_place hw]

theorem isLE_order_trans (hu : u.IsPlaced) (hv : v.IsPlaced) (hw : w.IsPlaced) (huv : (u.order v).isLE = true)
    (hvw : (v.order w).isLE = true) : (u.order w).isLE = true := by
  rw [order_eq_compare_place hu hv] at huv
  rw [order_eq_compare_place hv hw] at hvw
  rw [order_eq_compare_place hu hw]
  exact Std.TransOrd.isLE_trans huv hvw

theorem order_number_of_isNaN {n : Float} (hn : Number.isNaN n = true) (m : Float) :
    order (.number m) (.number n) = .eq := by
  have hnone : Number.position? n = none := by rw [Number.position?, if_pos hn]
  cases hm : Number.position? m <;> simp [order, rank, lineNumber, Number.compare?, hm, hnone]

/-- No other value could be let in: a blank is equal to zero and to the empty text, and a NaN to all numbers. -/
theorem isPlaced_iff_eq_trans : v.IsPlaced ↔ ∀ u w : Value, u.IsPlaced → w.IsPlaced → u.order v = .eq →
    v.order w = .eq → u.order w = .eq := by
  constructor
  · intro hv u w hu hw huv hvw
    rw [order_eq_compare_place hu hv, compare_eq_iff_eq] at huv
    rw [order_eq_compare_place hv hw, compare_eq_iff_eq] at hvw
    rw [order_eq_compare_place hu hw, huv, hvw, compare_eq_iff_eq]
  · intro h
    by_contra hv
    cases v with
    | blank => exact absurd (h (.number 0) (.text "") (by decide) (by decide) (by decide) (by decide)) (by decide)
    | number n =>
        have hn : Number.isNaN n = true := by simpa [IsPlaced, isBlank, isNaN] using hv
        have hright : order (.number n) (.number 1) = .eq := by
          rw [order_swap, order_number_of_isNaN hn]
          rfl
        exact absurd (h (.number 0) (.number 1) (by decide) (by decide) (order_number_of_isNaN hn 0) hright) (by decide)
    | text s => exact hv ⟨rfl, rfl⟩
    | truth b => exact hv ⟨rfl, rfl⟩

end Value

end LiveSheet
