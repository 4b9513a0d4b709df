import LiveSheet.Number.Power
import Mathlib

namespace LiveSheet.Number

open Float.Model (UnpackedFloat)

/-- Equal, but for the sign of a zero. -/
def Alike (x y : Float) : Prop := x = y ∨ isZero x = true ∧ isZero y = true

@[simp]
theorem Alike.refl (x : Float) : Alike x x := .inl rfl

theorem Alike.symm {x y : Float} (h : Alike x y) : Alike y x := by
  rcases h with h | ⟨hx, hy⟩
  · exact .inl h.symm
  · exact .inr ⟨hy, hx⟩

theorem Alike.trans {x y z : Float} (h : Alike x y) (k : Alike y z) : Alike x z := by
  rcases h with rfl | ⟨hx, hy⟩
  · exact k
  · rcases k with rfl | ⟨_, hz⟩
    · exact .inr ⟨hx, hy⟩
    · exact .inr ⟨hx, hz⟩

theorem eq_of_toBits {x y : Float} (h : x.toBits = y.toBits) : x = y := by
  rcases x with ⟨⟨a, ha⟩⟩
  rcases y with ⟨⟨b, hb⟩⟩
  change a = b at h
  subst h
  rfl

theorem toBits_toNat (x : Float) : x.toBits.toNat = magnitude x + if signBit x then 2 ^ 63 else 0 := by
  have hl : x.toBits.toNat < 2 ^ 64 := x.toBits.toNat_lt
  unfold magnitude signBit
  split <;> simp_all <;> omega

theorem eq_of_magnitude {x y : Float} (hm : magnitude x = magnitude y) (hs : signBit x = signBit y) : x = y := by
  apply eq_of_toBits
  apply UInt64.toNat_inj.mp
  rw [toBits_toNat, toBits_toNat, hm, hs]

def zero (negative : Bool) : Float := if negative then negativeZero else Float.ofBits 0

theorem eq_zero {x : Float} (h : isZero x = true) : ∃ negative, x = zero negative := by
  have hm : magnitude x = 0 := by simpa [isZero] using h
  cases hs : signBit x with
  | true => exact ⟨true, eq_of_magnitude (by rw [hm]; decide) (by rw [hs]; decide)⟩
  | false => exact ⟨false, eq_of_magnitude (by rw [hm]; decide) (by rw [hs]; decide)⟩

theorem shape_zero (negative : Bool) : shape (zero negative) = .finite ⟨negative, 0, -1074⟩ := by
  cases negative <;> decide

theorem magnitude_alike {x y : Float} (h : Alike x y) : magnitude x = magnitude y := by
  rcases h with rfl | ⟨hx, hy⟩
  · rfl
  · simp only [isZero, beq_iff_eq] at hx hy
    rw [hx, hy]

theorem isZero_alike {x y : Float} (h : Alike x y) : isZero x = isZero y := by
  simp only [isZero, magnitude_alike h]

theorem isNaN_alike {x y : Float} (h : Alike x y) : isNaN x = isNaN y := by
  simp only [isNaN, magnitude_alike h]

theorem isFinite_alike {x y : Float} (h : Alike x y) : isFinite x = isFinite y := by
  simp only [isFinite, magnitude_alike h]

theorem eq_of_alike {x y : Float} (h : Alike x y) (hx : isZero x = false) : x = y := by
  rcases h with h | ⟨hz, _⟩
  · exact h
  · simp [hx] at hz

theorem position?_alike {x y : Float} (h : Alike x y) : position? x = position? y := by
  rcases h with rfl | ⟨hx, hy⟩
  · rfl
  · obtain ⟨a, rfl⟩ := eq_zero hx
    obtain ⟨b, rfl⟩ := eq_zero hy
    cases a <;> cases b <;> decide

theorem compare?_alike {x x' y y' : Float} (h : Alike x x') (k : Alike y y') :
    compare? x y = compare? x' y' := by
  simp only [compare?, position?_alike h, position?_alike k]

theorem below_alike {x x' y y' : Float} (h : Alike x x') (k : Alike y y') : below x y = below x' y' := by
  simp only [below, compare?_alike h k]

theorem atMost_alike {x x' y y' : Float} (h : Alike x x') (k : Alike y y') : atMost x y = atMost x' y' := by
  simp only [atMost, compare?_alike h k]

theorem equal_iff {x y : Float} : equal x y = true ↔ Alike x y ∧ isNaN x = false := by
  constructor
  · intro h
    by_cases hx : isNaN x
    · simp [equal, compare?, position?, hx] at h
    by_cases hy : isNaN y
    · cases hs : signBit x <;> simp [equal, compare?, position?, hx, hy, hs] at h
    refine ⟨?_, by simpa using hx⟩
    by_cases hz : magnitude x = 0
    · refine .inr ⟨by simp [isZero, hz], ?_⟩
      cases hs : signBit x <;> cases ht : signBit y <;>
        simp [equal, compare?, position?, hx, hy, hs, ht, hz, isZero] at h ⊢ <;> omega
    · refine .inl (eq_of_magnitude ?_ ?_) <;>
        cases hs : signBit x <;> cases ht : signBit y <;>
          simp [equal, compare?, position?, hx, hy, hs, ht] at h ⊢ <;> omega
  · rintro ⟨h, hx⟩
    have hp : ∃ p, position? y = some p := by
      cases hs : signBit y <;> simp [position?, ← isNaN_alike h, hx, hs]
    obtain ⟨p, hp⟩ := hp
    simp [equal, compare?, position?_alike h, hp]

def AlikeApart (u v : UnpackedFloat) : Prop := u = v ∨ ∃ s t, u = .zero s ∧ v = .zero t

theorem apart_alike {x y : Float} (h : Alike x y) : AlikeApart x.toModel.unpack y.toModel.unpack := by
  rcases h with rfl | ⟨hx, hy⟩
  · exact .inl rfl
  · obtain ⟨a, rfl⟩ := eq_zero hx
    obtain ⟨b, rfl⟩ := eq_zero hy
    refine .inr ⟨if a then .negative else .positive, if b then .negative else .positive, ?_, ?_⟩
    · cases a <;> rfl
    · cases b <;> rfl

theorem pack_alike {u v : UnpackedFloat} (h : AlikeApart u v) :
    Alike (.ofModel (.pack u)) (.ofModel (.pack v)) := by
  rcases h with rfl | ⟨s, t, rfl, rfl⟩
  · exact .refl _
  · refine .inr ⟨?_, ?_⟩
    · cases s <;> decide
    · cases t <;> decide

theorem AlikeApart.trans {u v w : UnpackedFloat} (h : AlikeApart u v) (k : AlikeApart v w) : AlikeApart u w := by
  rcases h with rfl | ⟨s, t, rfl, rfl⟩
  · exact k
  · rcases k with rfl | ⟨_, r, _, rfl⟩
    · exact .inr ⟨_, _, rfl, rfl⟩
    · exact .inr ⟨_, _, rfl, rfl⟩

theorem binary_alike {f : UnpackedFloat → UnpackedFloat → UnpackedFloat}
    (hl : ∀ s t v, AlikeApart (f (.zero s) v) (f (.zero t) v))
    (hr : ∀ u s t, AlikeApart (f u (.zero s)) (f u (.zero t)))
    {x x' y y' : Float} (h : Alike x x') (k : Alike y y') :
    AlikeApart (f x.toModel.unpack y.toModel.unpack) (f x'.toModel.unpack y'.toModel.unpack) := by
  have left : AlikeApart (f x.toModel.unpack y.toModel.unpack) (f x'.toModel.unpack y.toModel.unpack) := by
    rcases apart_alike h with hx | ⟨s, t, hx, hx'⟩
    · exact .inl (by rw [hx])
    · rw [hx, hx']
      exact hl s t _
  have right : AlikeApart (f x'.toModel.unpack y.toModel.unpack) (f x'.toModel.unpack y'.toModel.unpack) := by
    rcases apart_alike k with hy | ⟨s, t, hy, hy'⟩
    · exact .inl (by rw [hy])
    · rw [hy, hy']
      exact hr _ s t
  exact left.trans right

variable {x x' y y' : Float}

theorem add_alike (h : Alike x x') (k : Alike y y') : Alike (x + y) (x' + y') := by
  refine pack_alike (binary_alike ?_ ?_ h k)
  · intro s t v
    cases v with
    | zero r => cases s <;> cases t <;> cases r <;> exact .inr ⟨_, _, rfl, rfl⟩
    | _ => exact .inl rfl
  · intro u s t
    cases u with
    | zero r => cases s <;> cases t <;> cases r <;> exact .inr ⟨_, _, rfl, rfl⟩
    | _ => exact .inl rfl

theorem sub_alike (h : Alike x x') (k : Alike y y') : Alike (x - y) (x' - y') := by
  refine pack_alike (binary_alike ?_ ?_ h k)
  · intro s t v
    cases v with
    | zero r => cases s <;> cases t <;> cases r <;> exact .inr ⟨_, _, rfl, rfl⟩
    | _ => exact .inl rfl
  · intro u s t
    cases u with
    | zero r => cases s <;> cases t <;> cases r <;> exact .inr ⟨_, _, rfl, rfl⟩
    | _ => exact .inl rfl

theorem mul_alike (h : Alike x x') (k : Alike y y') : Alike (x * y) (x' * y') := by
  refine pack_alike (binary_alike ?_ ?_ h k)
  · intro s t v
    cases v with
    | zero _ | finite _ _ _ _ => exact .inr ⟨_, _, rfl, rfl⟩
    | _ => exact .inl rfl
  · intro u s t
    cases u with
    | zero _ | finite _ _ _ _ => exact .inr ⟨_, _, rfl, rfl⟩
    | _ => exact .inl rfl

/-- The divisor has to be the same: a zero of the other sign gives the other infinity. -/
theorem div_alike (h : Alike x x') : Alike (x / y) (x' / y) := by
  apply pack_alike
  rcases apart_alike h with hx | ⟨s, s', hx, hx'⟩
  · exact .inl (by rw [hx])
  · rw [hx, hx']
    cases y.toModel.unpack with
    | infinity _ | finite _ _ _ _ => exact .inr ⟨_, _, rfl, rfl⟩
    | _ => exact .inl rfl

theorem neg_alike (h : Alike x x') : Alike (-x) (-x') := by
  apply pack_alike
  rcases apart_alike h with hx | ⟨s, s', hx, hx'⟩
  · exact .inl (by rw [hx])
  · rw [hx, hx']
    exact .inr ⟨_, _, rfl, rfl⟩

theorem abs_alike (h : Alike x x') : Alike x.abs x'.abs := by
  apply pack_alike
  rcases apart_alike h with hx | ⟨s, s', hx, hx'⟩
  · exact .inl (by rw [hx])
  · rw [hx, hx']
    exact .inl rfl

theorem sqrt_alike (h : Alike x x') : Alike x.sqrt x'.sqrt := by
  apply pack_alike
  rcases apart_alike h with hx | ⟨s, s', hx, hx'⟩
  · exact .inl (by rw [hx])
  · rw [hx, hx']
    exact .inr ⟨_, _, rfl, rfl⟩

theorem least_alike (h : Alike x x') (k : Alike y y') : Alike (least x y) (least x' y') := by
  simp only [least, isNaN_alike h, atMost_alike k h]
  split
  · exact k
  · exact h

theorem greatest_alike (h : Alike x x') (k : Alike y y') : Alike (greatest x y) (greatest x' y') := by
  simp only [greatest, isNaN_alike h, atMost_alike h k]
  split
  · exact k
  · exact h

theorem truncateWithin_alike {low high : Int} (h : Alike x x') :
    truncateWithin low high x = truncateWithin low high x' := by
  rcases h with rfl | ⟨hx, hy⟩
  · rfl
  · obtain ⟨a, rfl⟩ := eq_zero hx
    obtain ⟨b, rfl⟩ := eq_zero hy
    have hwhole (a : Bool) : (⟨a, 0, -1074⟩ : Scaled).whole = 0 := by
      rw [Scaled.whole, Nat.zero_mul, Nat.zero_div]
    simp only [truncateWithin, shape_zero, hwhole]
    cases a <;> cases b <;> rfl

theorem round_alike (h : Alike x x') : Alike (round x) (round x') := by
  rcases h with rfl | ⟨hx, hy⟩
  · exact .refl _
  · obtain ⟨a, rfl⟩ := eq_zero hx
    obtain ⟨b, rfl⟩ := eq_zero hy
    have hzero (a : Bool) : isZero (round (zero a)) = true := by cases a <;> decide +kernel
    exact .inr ⟨hzero a, hzero b⟩

theorem power_alike (h : Alike x x') (k : Alike y y') : Alike (power x y) (power x' y') := by
  unfold power
  rw [isZero_alike h, isZero_alike k]
  by_cases hy : isZero y'
  · simp [hy]
  have hy : y = y' := eq_of_alike k (by rw [isZero_alike k]; simpa using hy)
  subst hy
  by_cases hx : isZero x'
  · simp only [hx, hy, if_true, Bool.false_eq_true, if_false]
    unfold zeroPower
    split
    · exact .refl _
    split
    · exact .refl _
    split
    · exact h
    · exact .refl _
  · have hx : x = x' := eq_of_alike h (by rw [isZero_alike h]; simpa using hx)
    simp [hx]

end LiveSheet.Number
