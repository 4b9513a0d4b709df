import LiveSheet.Cell.Value
import LiveSheet.Proofs.Number.Zero

namespace LiveSheet

namespace Value

inductive Alike : Value → Value → Prop
  | refl (v : Value) : Alike v v
  | number {m n : Float} (h : Number.Alike m n) : Alike (.number m) (.number n)

def isNaN : Value → Bool
  | .number n => Number.isNaN n
  | _ => false

variable {v v' w w' : Value}

theorem Alike.symm (h : Alike v w) : Alike w v := by
  cases h with
  | refl => exact .refl _
  | number h => exact .number h.symm

theorem Alike.trans {u : Value} (h : Alike u v) (k : Alike v w) : Alike u w := by
  cases h with
  | refl => exact k
  | number h =>
      cases k with
      | refl => exact .number h
      | number k => exact .number (h.trans k)

theorem same_iff : v.same w = true ↔ Alike v w ∧ v.isNaN = false := by
  constructor
  · intro h
    cases v <;> cases w <;> simp only [same, Bool.false_eq_true] at h
    case number.number m n =>
      obtain ⟨ha, hn⟩ := Number.equal_iff.mp h
      exact ⟨.number ha, hn⟩
    case blank.blank => exact ⟨.refl _, rfl⟩
    case text.text => exact ⟨by rw [beq_iff_eq.mp h]; exact .refl _, rfl⟩
    case truth.truth => exact ⟨by rw [beq_iff_eq.mp h]; exact .refl _, rfl⟩
  · rintro ⟨h, hn⟩
    cases h with
    | refl =>
        cases v <;> simp only [same, beq_self_eq_true]
        case number n => exact Number.equal_iff.mpr ⟨.refl n, hn⟩
    | number h => exact Number.equal_iff.mpr ⟨h, hn⟩

theorem isNaN_alike (h : Alike v w) : v.isNaN = w.isNaN := by
  cases h with
  | refl => rfl
  | number h => exact Number.isNaN_alike h

theorem numberText_alike {m n : Float} (h : Number.Alike m n) : numberText m = numberText n := by
  have hzero (a : Bool) : numberText (Number.zero a) = toString (0 : Int) := by
    have hwhole : (⟨a, 0, -1074⟩ : Number.Scaled).whole = 0 := by
      rw [Number.Scaled.whole, Nat.zero_mul, Nat.zero_div]
    have his : (⟨a, 0, -1074⟩ : Number.Scaled).isWhole = true := by
      rw [Number.Scaled.isWhole, Nat.zero_mod, beq_self_eq_true]
    simp only [numberText, Number.shape_zero, hwhole, his]
    cases a <;> rfl
  rcases h with rfl | ⟨hm, hn⟩
  · rfl
  · obtain ⟨a, rfl⟩ := Number.eq_zero hm
    obtain ⟨b, rfl⟩ := Number.eq_zero hn
    rw [hzero, hzero]

theorem display_alike (h : Alike v w) : v.display = w.display := by
  cases h with
  | refl => rfl
  | number h => exact numberText_alike h

theorem asTruth_alike (h : Alike v w) : v.asTruth = w.asTruth := by
  cases h with
  | refl => rfl
  | number h => simp only [asTruth, Number.isZero_alike h]

theorem promoted_alike (h : Alike v w) : Alike v.promoted w.promoted := by
  cases h with
  | refl => exact .refl _
  | number h => exact .number h

theorem order_alike (h : Alike v v') (k : Alike w w') : v.order w = v'.order w' := by
  have left {m n : Float} (h : Number.Alike m n) (u : Value) : order (.number m) u = order (.number n) u := by
    cases u <;> simp only [order, rank, lineNumber, Number.compare?_alike h (.refl _)]
  have right {m n : Float} (h : Number.Alike m n) (u : Value) : order u (.number m) = order u (.number n) := by
    cases u <;> simp only [order, rank, lineNumber, Number.compare?_alike (.refl _) h]
  cases h with
  | refl =>
      cases k with
      | refl => rfl
      | number k => exact right k _
  | number h =>
      cases k with
      | refl => exact left h _
      | number k => rw [left h, right k]

end Value

/-- Both results are values in a relation, or one and the same error of those that are let through. -/
inductive Agree {α β : Type} (through : CellError → Prop) (R : α → β → Prop) :
    Except CellError α → Except CellError β → Prop
  | ok {a : α} {b : β} (h : R a b) : Agree through R (.ok a) (.ok b)
  | error {e : CellError} (h : through e) : Agree through R (.error e) (.error e)

theorem Value.asNumber_alike {through : CellError → Prop} (hkind : through .wrongKind) {v w : Value}
    (h : Alike v w) : Agree through Number.Alike v.asNumber w.asNumber := by
  cases h with
  | refl =>
      cases v with
      | text s =>
          simp only [asNumber]
          split
          · exact .ok (.refl _)
          · exact .error hkind
      | _ => exact .ok (.refl _)
  | number h => exact .ok h

namespace Outcome

abbrev Alike : Outcome → Outcome → Prop := Agree (fun _ => True) Value.Alike

def isNaN : Outcome → Bool
  | .ok v => v.isNaN
  | .error _ => false

theorem alike_refl (a : Outcome) : Alike a a := by
  cases a with
  | ok v => exact .ok (.refl v)
  | error e => exact .error trivial

theorem alike_symm {a b : Outcome} (h : Alike a b) : Alike b a := by
  cases h with
  | ok h => exact .ok h.symm
  | error h => exact .error h

theorem alike_trans {a b c : Outcome} (h : Alike a b) (k : Alike b c) : Alike a c := by
  cases h with
  | ok h =>
      cases k with
      | ok k => exact .ok (h.trans k)
  | error => exact k

theorem eq_error_of_alike {a : Outcome} {e : CellError} (h : Alike a (.error e)) : a = .error e := by
  cases h with
  | error => rfl

theorem same_iff {a b : Outcome} : a.same b = true ↔ Alike a b ∧ a.isNaN = false := by
  constructor
  · intro h
    cases a <;> cases b <;> simp only [same, Bool.false_eq_true] at h
    case ok.ok v w =>
      obtain ⟨ha, hn⟩ := Value.same_iff.mp h
      exact ⟨.ok ha, hn⟩
    case error.error => exact ⟨by rw [beq_iff_eq.mp h]; exact .error trivial, rfl⟩
  · rintro ⟨h, hn⟩
    cases h with
    | ok h => exact Value.same_iff.mpr ⟨h, hn⟩
    | error => exact beq_self_eq_true _

theorem same_or_isNaN {a b : Outcome} (h : Alike a b) : a.same b = true ∨ a.isNaN = true ∧ b.isNaN = true := by
  have hb : a.isNaN = b.isNaN := by
    cases h with
    | ok h => exact Value.isNaN_alike h
    | error => rfl
  cases ha : a.isNaN with
  | false => exact .inl (same_iff.mpr ⟨h, ha⟩)
  | true => exact .inr ⟨rfl, hb ▸ ha⟩

def SameOrNaN (a b : Outcome) : Prop := a.same b = true ∨ a.isNaN = true ∧ b.isNaN = true

instance (a b : Outcome) : Decidable (SameOrNaN a b) := instDecidableOr

theorem rel_sameOrNaN {a? b? : Option Outcome} (h : Option.Rel Alike a? b?) : Option.Rel SameOrNaN a? b? := by
  cases h with
  | none => exact .none
  | some h => exact .some (same_or_isNaN h)

end Outcome

end LiveSheet
