import LiveSheet.Formula.Evaluate
import LiveSheet.Proofs.Cell.Order
import LiveSheet.Proofs.Formula.Matching

namespace LiveSheet

namespace Operator

def comparisons : List Operator := [.equal, .unequal, .less, .atMost, .greater, .atLeast]

def reversed : Operator → Operator
  | .less => .greater
  | .greater => .less
  | .atMost => .atLeast
  | .atLeast => .atMost
  | o => o

def holdsOf : Operator → Ordering → Bool
  | .equal, r => r == .eq
  | .unequal, r => r != .eq
  | .less, r => r == .lt
  | .atMost, r => r != .gt
  | .greater, r => r == .gt
  | .atLeast, r => r != .lt
  | _, _ => false

variable {o : Operator}

theorem apply_of_comparison (h : o ∈ comparisons) (a b : Value) :
    o.apply a b = .ok (.truth (o.holdsOf (a.order b))) := by
  cases o with
  | equal | unequal | less | atMost | greater | atLeast => rfl
  | join | add | subtract | multiply | divide | power => simp [comparisons] at h

theorem reversed_mem (h : o ∈ comparisons) : o.reversed ∈ comparisons := by
  cases o <;> revert h <;> decide

theorem holdsOf_reversed (o : Operator) (r : Ordering) : o.reversed.holdsOf r.swap = o.holdsOf r := by
  cases o <;> cases r <;> rfl

def ofOrdering : Ordering → Operator
  | .lt => .less
  | .eq => .equal
  | .gt => .greater

theorem ofOrdering_mem (r : Ordering) : ofOrdering r ∈ [less, equal, greater] := by
  cases r <;> decide

theorem holdsOf_iff_eq_ofOrdering (h : o ∈ [less, equal, greater]) (r : Ordering) :
    o.holdsOf r = true ↔ o = ofOrdering r := by
  cases o <;> revert h <;> cases r <;> decide

end Operator

namespace Formula

variable {g : Grid} {e f : Formula} {v w : Value}

theorem valueIn_binary (o : Operator) (he : e.valueIn g = .ok v) (hf : f.valueIn g = .ok w) :
    (binary o e f).valueIn g = o.apply v w := by
  unfold valueIn at he hf ⊢
  rw [evaluate, Reading.result_bind, he]
  change ((f.evaluate >>= fun b => Reading.ofResult (o.apply v b)) g).result = _
  rw [Reading.result_bind, hf]
  rfl

theorem valueIn_comparison {o : Operator} (ho : o ∈ Operator.comparisons) (he : e.valueIn g = .ok v)
    (hf : f.valueIn g = .ok w) : (binary o e f).valueIn g = .ok (.truth (o.holdsOf (v.order w))) := by
  rw [valueIn_binary o he hf, Operator.apply_of_comparison ho]

theorem valueIn_reversed {o : Operator} (ho : o ∈ Operator.comparisons) (he : e.valueIn g = .ok v)
    (hf : f.valueIn g = .ok w) : (binary o.reversed f e).valueIn g = (binary o e f).valueIn g := by
  rw [valueIn_comparison ho he hf, valueIn_comparison (Operator.reversed_mem ho) hf he, Value.order_swap v w,
    Operator.holdsOf_reversed]

theorem valueIn_eq_true_iff {o : Operator} (ho : o ∈ [Operator.less, .equal, .greater]) (he : e.valueIn g = .ok v)
    (hf : f.valueIn g = .ok w) :
    (binary o e f).valueIn g = .ok (.truth true) ↔ o = .ofOrdering (v.order w) := by
  have hcomparison : o ∈ Operator.comparisons := by
    cases o <;> revert ho <;> decide
  rw [valueIn_comparison hcomparison he hf, ← Operator.holdsOf_iff_eq_ofOrdering ho]
  simp

theorem existsUnique_comparison (he : e.valueIn g = .ok v) (hf : f.valueIn g = .ok w) :
    ∃! o, o ∈ [Operator.less, .equal, .greater] ∧ (binary o e f).valueIn g = .ok (.truth true) := by
  have hmem := Operator.ofOrdering_mem (v.order w)
  exact ⟨.ofOrdering (v.order w), ⟨hmem, (valueIn_eq_true_iff hmem he hf).mpr rfl⟩,
    fun o ⟨ho, hvalue⟩ => (valueIn_eq_true_iff ho he hf).mp hvalue⟩

/-- The order of two values is turned around with them, so that every comparison of formulas comes to the same truth
from both sides, and of less, equal and greater exactly one is true. On values that are neither blank nor a NaN it is
the order of their places, and with it total and transitive. -/
theorem comparisons_consistent (u v w : Value) :
    v.order u = (u.order v).swap ∧
      (∀ (g : Grid) (e f : Formula), e.valueIn g = .ok u → f.valueIn g = .ok v →
        (∀ o ∈ Operator.comparisons, ∃ b, (binary o e f).valueIn g = .ok (.truth b) ∧
          (binary o.reversed f e).valueIn g = .ok (.truth b)) ∧
        ∃! o, o ∈ [Operator.less, .equal, .greater] ∧ (binary o e f).valueIn g = .ok (.truth true)) ∧
      (u.IsPlaced → v.IsPlaced → w.IsPlaced →
        u.order v = compare u.place v.place ∧ ((u.order v).isLE = true ∨ (v.order u).isLE = true) ∧
          ((u.order v).isLE = true → (v.order w).isLE = true → (u.order w).isLE = true)) := by
  refine ⟨Value.order_swap u v, fun g e f he hf => ⟨fun o ho => ?_, existsUnique_comparison he hf⟩,
    fun hu hv hw => ?_⟩
  · have hvalue := valueIn_comparison ho he hf
    exact ⟨_, hvalue, (valueIn_reversed ho he hf).trans hvalue⟩
  · exact ⟨Value.order_eq_compare_place hu hv, Value.isLE_order_total u v, Value.isLE_order_trans hu hv hw⟩

theorem comparisons_consistent_pear : ∃ (g : Grid) (e f : Formula),
    e.valueIn g = .ok (.text "Pear") ∧ f.valueIn g = .ok (.text "pEAR") ∧
      (∃ b, (binary .atMost e f).valueIn g = .ok (.truth b) ∧ (binary .atLeast f e).valueIn g = .ok (.truth b)) ∧
      (∃! o, o ∈ [Operator.less, .equal, .greater] ∧ (binary o e f).valueIn g = .ok (.truth true)) ∧
      (Value.text "Pear").IsPlaced ∧ (Value.text "pEAR").IsPlaced ∧ (Value.truth false).IsPlaced ∧
      ((Value.text "Pear").order (.text "pEAR")).isLE = true ∧ ((Value.text "pEAR").order (.truth false)).isLE = true ∧
      ((Value.text "Pear").order (.truth false)).isLE = true := by
  obtain ⟨-, hvalues, hplaced⟩ := comparisons_consistent (.text "Pear") (.text "pEAR") (.truth false)
  let g : Grid := ⟨fun c => .ok (.text (if c.column = 0 then "Pear" else "pEAR")), 1⟩
  have he : (cell ⟨⟨0, 0⟩, false, false⟩).valueIn g = .ok (.text "Pear") := rfl
  have hf : (cell ⟨⟨0, 1⟩, false, false⟩).valueIn g = .ok (.text "pEAR") := rfl
  obtain ⟨hsides, hone⟩ := hvalues g _ _ he hf
  obtain ⟨-, -, htrans⟩ := hplaced (by decide) (by decide) (by decide)
  have hword : ((Value.text "Pear").order (.text "pEAR")).isLE = true := by decide +kernel
  have htruth : ((Value.text "pEAR").order (.truth false)).isLE = true := by decide
  exact ⟨g, _, _, he, hf, hsides .atMost (by decide), hone, by decide, by decide, by decide, hword, htruth,
    htrans hword htruth⟩

end Formula

end LiveSheet
