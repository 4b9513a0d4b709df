import Mathlib

/-!
Rounding to the nearest number of sixty-four bits. A mantissa with its two residual bits locates a rational, and keeps
locating it as it is shifted; rounded, it is the mantissa of every number around which the rational lies.
-/

namespace LiveSheet.Number

open Float.Model (UnpackedFloat totalExponent)
open Float.Model.Format (binary64)
open Float.Model.UnpackedFloat

/-- The mantissa is the whole part of `r`, and the accuracy places `r` against the middle above it. -/
def Locates (m : Nat) (r : ℚ) : Accuracy → Prop
  | .exact => r = m
  | .inexact .lt => m < r ∧ r < m + 1 / 2
  | .inexact .eq => r = m + 1 / 2
  | .inexact .gt => m + 1 / 2 < r ∧ r < m + 1

variable {m M : Nat} {r : ℚ} {acc : Accuracy}

theorem Locates.bounds (h : Locates m r acc) : (m : ℚ) ≤ r ∧ r < m + 1 := by
  rcases acc with _ | _ | _ | _ <;> simp only [Locates] at h <;> constructor <;> linarith

theorem locates_ofMantissaAndAccuracy (h : Locates m r acc) :
    Locates (ExtendedMantissa.ofMantissaAndAccuracy m acc).mantissa r
      (ExtendedMantissa.ofMantissaAndAccuracy m acc).accuracy := by
  rcases acc with _ | _ | _ | _ <;> exact h

theorem shiftRightOne_even (k : Nat) (roundBit stickyBit : Bool) :
    ExtendedMantissa.shiftRightOne ⟨2 * k, roundBit, stickyBit⟩ = ⟨k, false, roundBit || stickyBit⟩ := by
  simp [ExtendedMantissa.shiftRightOne]

theorem shiftRightOne_odd (k : Nat) (roundBit stickyBit : Bool) :
    ExtendedMantissa.shiftRightOne ⟨2 * k + 1, roundBit, stickyBit⟩ = ⟨k, true, roundBit || stickyBit⟩ := by
  simp [ExtendedMantissa.shiftRightOne, Nat.add_mod]
  omega

theorem locates_shiftRightOne {em : ExtendedMantissa} (h : Locates em.mantissa r em.accuracy) :
    Locates em.shiftRightOne.mantissa (r / 2) em.shiftRightOne.accuracy := by
  obtain ⟨m, roundBit, stickyBit⟩ := em
  obtain ⟨k, rfl | rfl⟩ : ∃ k, m = 2 * k ∨ m = 2 * k + 1 := ⟨m / 2, by omega⟩
  · rw [shiftRightOne_even]
    cases roundBit <;> cases stickyBit <;>
      simp only [ExtendedMantissa.accuracy, Locates, Bool.or_true, Bool.or_false] at h ⊢ <;>
      push_cast at h <;> (try constructor) <;> linarith
  · rw [shiftRightOne_odd]
    cases roundBit <;> cases stickyBit <;>
      simp only [ExtendedMantissa.accuracy, Locates, Bool.or_true, Bool.or_false] at h ⊢ <;>
      push_cast at h <;> (try constructor) <;> linarith

theorem locates_shiftRight {em : ExtendedMantissa} (h : Locates em.mantissa r em.accuracy) (n : Nat) :
    Locates (em >>> n).mantissa (r / 2 ^ n) (em >>> n).accuracy := by
  induction n with
  | zero =>
      rw [pow_zero, div_one]
      exact h
  | succ n ih =>
      have hstep : em >>> (n + 1) = (em >>> n).shiftRightOne := rfl
      rw [hstep, pow_succ, ← div_div]
      exact locates_shiftRightOne ih

structure IsNearest (M : Nat) (r : ℚ) : Prop where
  low : (M : ℚ) - 1 / 2 ≤ r
  high : r ≤ M + 1 / 2
  odd : M % 2 = 1 → (M : ℚ) - 1 / 2 < r ∧ r < M + 1 / 2

theorem roundToNearestEven_eq (h : Locates m r acc) (hM : IsNearest M r) : acc.roundToNearestEven m = M := by
  obtain ⟨hlow, hhigh⟩ := h.bounds
  have hle : m < M + 1 := by
    have : (m : ℚ) < (M + 1 : Nat) := by push_cast; linarith [hM.high]
    exact_mod_cast this
  have hge : M < m + 2 := by
    have : (M : ℚ) < (m + 2 : Nat) := by push_cast; linarith [hM.low]
    exact_mod_cast this
  have hcases : M = m ∨ M = m + 1 := by omega
  have hlow := hM.low
  have hhigh := hM.high
  have hodd := hM.odd
  rcases hcases with rfl | rfl
  · rcases acc with _ | _ | _ | _
    · rfl
    · rfl
    · simp only [Locates] at h
      rcases Nat.mod_two_eq_zero_or_one M with heven | hone
      · simp [Accuracy.roundToNearestEven, heven]
      · linarith [(hodd hone).2]
    · linarith [h.1]
  · push_cast at hlow hhigh hodd
    rcases acc with _ | _ | _ | _
    · simp only [Locates] at h
      linarith
    · linarith [h.2]
    · simp only [Locates] at h
      rcases Nat.mod_two_eq_zero_or_one m with heven | hone
      · linarith [(hodd (by omega)).1]
      · simp [Accuracy.roundToNearestEven, hone]
    · rfl

structure IsCanonical (M : Nat) (E : Int) : Prop where
  mantissa_lt : M < 2 ^ 53
  low : -1074 ≤ E
  high : E ≤ 971
  normal : -1074 < E → 2 ^ 52 ≤ M

/-- How far the reals that round to a number reach below it, in units of its last place. -/
def reach (M : Nat) (E : Int) : ℚ := if M = 2 ^ 52 ∧ -1074 < E then 1 / 4 else 1 / 2

structure RoundsTo (M : Nat) (E : Int) (q : ℚ) : Prop where
  low : (M - reach M E) * 2 ^ E ≤ q
  high : q ≤ (M + 1 / 2) * 2 ^ E
  odd : M % 2 = 1 → (M - reach M E) * 2 ^ E < q ∧ q < (M + 1 / 2) * 2 ^ E

variable {E e : Int} {q : ℚ}

theorem two_zpow_add (n : Nat) (e : Int) : (2 : ℚ) ^ (n + e) = 2 ^ n * 2 ^ e := by
  rw [zpow_add₀ two_ne_zero, zpow_natCast]

theorem reach_pos : 0 < reach M E := by
  unfold reach
  split <;> norm_num

theorem reach_le : reach M E ≤ 1 / 2 := by
  unfold reach
  split <;> norm_num

theorem roundsTo_self (M : Nat) (E : Int) : RoundsTo M E (M * 2 ^ E) := by
  have hpow : (0 : ℚ) < 2 ^ E := zpow_pos two_pos E
  have hlow : (M - reach M E) * 2 ^ E < M * (2 : ℚ) ^ E := by nlinarith [reach_pos (M := M) (E := E)]
  have hhigh : (M : ℚ) * 2 ^ E < (M + 1 / 2) * 2 ^ E := by nlinarith
  exact ⟨hlow.le, hhigh.le, fun _ => ⟨hlow, hhigh⟩⟩

theorem Locates.zpow_bounds (h : Locates m r acc) (hm : 0 < m) :
    (2 : ℚ) ^ (totalExponent m e - 1) ≤ r * 2 ^ e ∧ r * 2 ^ e < (2 : ℚ) ^ totalExponent m e := by
  have hpow : (0 : ℚ) < 2 ^ e := zpow_pos two_pos e
  obtain ⟨hlow, hhigh⟩ := h.bounds
  have hlog : (2 : ℚ) ^ m.log2 ≤ m := by exact_mod_cast Nat.log2_self_le (Nat.ne_of_gt hm)
  have hlog' : (m : ℚ) + 1 ≤ 2 ^ (m.log2 + 1) := by exact_mod_cast Nat.lt_log2_self
  have hexp : totalExponent m e - 1 = m.log2 + e := by unfold totalExponent; ring
  have hexp' : totalExponent m e = (m.log2 + 1 : Nat) + e := by unfold totalExponent; push_cast; ring
  rw [hexp, hexp', two_zpow_add, two_zpow_add]
  exact ⟨by nlinarith, by nlinarith⟩

theorem targetExponent_eq (t : Int) : binary64.targetExponent t = max (t - 53) (-1074) := rfl

/-- The exponent is low enough to be raised to that of the format. -/
def IsFine (m : Nat) (e : Int) : Prop := 2 ^ 52 ≤ m ∨ e ≤ -1074

theorem IsFine.le_targetExponent (h : IsFine m e) : e ≤ binary64.targetExponent (totalExponent m e) := by
  rw [targetExponent_eq, totalExponent]
  rcases h with h | h
  · have hm : m ≠ 0 := by rintro rfl; simp at h
    have := (Nat.le_log2 hm).mpr h
    omega
  · omega

theorem targetExponent_of_roundsTo (hc : IsCanonical M E) (hM : 0 < M) (h : Locates m r acc) (hfine : IsFine m e)
    (hq : RoundsTo M E (r * 2 ^ e)) :
    binary64.targetExponent (totalExponent m e) = E ∨
      binary64.targetExponent (totalExponent m e) = E - 1 ∧ M = 2 ^ 52 ∧ -1074 < E ∧ r * 2 ^ e < 2 ^ 52 * 2 ^ E := by
  have hpow : (0 : ℚ) < 2 ^ E := zpow_pos two_pos E
  have hbelow : r * 2 ^ e < (2 : ℚ) ^ ((53 : Nat) + E) := by
    have hmantissa : (M : ℚ) + 1 ≤ 2 ^ 53 := by exact_mod_cast hc.mantissa_lt
    rw [two_zpow_add]
    calc r * 2 ^ e ≤ (M + 1 / 2) * 2 ^ E := hq.high
      _ < 2 ^ 53 * 2 ^ E := mul_lt_mul_of_pos_right (by linarith) hpow
  have hE := hc.low
  rw [targetExponent_eq]
  by_cases hfull : (2 : ℚ) ^ ((52 : Nat) + E) ≤ r * 2 ^ e
  · refine .inl ?_
    rcases Nat.eq_zero_or_pos m with rfl | hm
    · have hsmall : r * 2 ^ e < 1 * 2 ^ e := mul_lt_mul_of_pos_right (by simpa using h.bounds.2) (zpow_pos two_pos e)
      have := (zpow_lt_zpow_iff_right₀ one_lt_two).mp (hfull.trans_lt (by simpa using hsmall))
      have : e ≤ -1074 := hfine.resolve_left (by simp)
      push_cast at *
      omega
    · obtain ⟨hfirst, hbehind⟩ := h.zpow_bounds (e := e) hm
      have := (zpow_lt_zpow_iff_right₀ one_lt_two).mp (hfull.trans_lt hbehind)
      have := (zpow_lt_zpow_iff_right₀ one_lt_two).mp (hfirst.trans_lt hbelow)
      push_cast at *
      omega
  have hunder := not_le.mp hfull
  by_cases hlow : E = -1074
  · refine .inl ?_
    rcases Nat.eq_zero_or_pos m with rfl | hm
    · have : e ≤ -1074 := hfine.resolve_left (by simp)
      have hlog : totalExponent 0 e = 1 + e := rfl
      omega
    · have := (zpow_lt_zpow_iff_right₀ one_lt_two).mp ((h.zpow_bounds (e := e) hm).1.trans_lt hunder)
      push_cast at *
      omega
  · have hmantissa : M = 2 ^ 52 := by
      rw [two_zpow_add] at hunder
      have hless : (M : ℚ) - reach M E < 2 ^ 52 := lt_of_mul_lt_mul_right (hq.low.trans_lt hunder) hpow.le
      have hless : (M : ℚ) < (2 ^ 52 + 1 : Nat) := by
        have := reach_le (M := M) (E := E)
        push_cast
        linarith
      have := Nat.cast_lt.mp hless
      have := hc.normal (by omega)
      omega
    have hhalf : (2 : ℚ) ^ ((51 : Nat) + E) ≤ r * 2 ^ e := by
      rw [two_zpow_add]
      calc (2 : ℚ) ^ 51 * 2 ^ E ≤ (M - reach M E) * 2 ^ E := by
            refine mul_le_mul_of_nonneg_right ?_ hpow.le
            have := reach_le (M := M) (E := E)
            rw [hmantissa] at this ⊢
            push_cast
            linarith
        _ ≤ r * 2 ^ e := hq.low
    rcases Nat.eq_zero_or_pos m with rfl | hm
    · have hsmall : r * 2 ^ e < 1 * 2 ^ e := mul_lt_mul_of_pos_right (by simpa using h.bounds.2) (zpow_pos two_pos e)
      have := (zpow_lt_zpow_iff_right₀ one_lt_two).mp (hhalf.trans_lt (by simpa using hsmall))
      have : e ≤ -1074 := hfine.resolve_left (by simp)
      push_cast at *
      omega
    · obtain ⟨hfirst, hbehind⟩ := h.zpow_bounds (e := e) hm
      have := (zpow_lt_zpow_iff_right₀ one_lt_two).mp (hhalf.trans_lt hbehind)
      have := (zpow_lt_zpow_iff_right₀ one_lt_two).mp (hfirst.trans_lt hunder)
      rw [two_zpow_add] at hunder
      refine .inr ⟨?_, hmantissa, by omega, hunder⟩
      push_cast at *
      omega

theorem shiftToTargetExponent_exact {m : Nat} {e : Int} (h : binary64.targetExponent (totalExponent m e) ≤ e) :
    shiftToTargetExponent binary64 m e .exact = (⟨m, false, false⟩, e) := by
  have hzero : (binary64.targetExponent (totalExponent m e) - e).toNat = 0 := by omega
  simp only [shiftToTargetExponent, shiftToExponent, hzero, ExtendedMantissa.ofMantissaAndAccuracy, Nat.cast_zero,
    add_zero]
  rfl

theorem shiftToTargetExponent_carry {e : Int} (h : -1074 ≤ e) :
    shiftToTargetExponent binary64 (2 ^ 53) e .exact = (⟨2 ^ 52, false, false⟩, e + 1) := by
  have hone : (binary64.targetExponent (totalExponent (2 ^ 53) e) - e).toNat = 1 := by
    rw [targetExponent_eq, totalExponent, Nat.log2_two_pow]
    omega
  simp only [shiftToTargetExponent, shiftToExponent, hone, ExtendedMantissa.ofMantissaAndAccuracy, Nat.cast_one]
  rfl

theorem roundWithAccuracy_eq (hc : IsCanonical M E) (hM : 0 < M) (h : Locates m r acc) (hfine : IsFine m e)
    (hq : RoundsTo M E (r * 2 ^ e)) (sign : Sign) :
    roundWithAccuracy binary64 sign m e acc = .finite sign M E hM := by
  have hpow : (0 : ℚ) < 2 ^ E := zpow_pos two_pos E
  have hle := hfine.le_targetExponent
  have hcases := targetExponent_of_roundsTo hc hM h hfine hq
  generalize htarget : binary64.targetExponent (totalExponent m e) = t at hle hcases
  obtain ⟨n, hn⟩ : ∃ n : Nat, t = e + n := ⟨(t - e).toNat, by omega⟩
  have hshift : shiftToTargetExponent binary64 m e acc = (ExtendedMantissa.ofMantissaAndAccuracy m acc >>> n, t) := by
    have hamount : (t - e).toNat = n := by omega
    simp only [shiftToTargetExponent, shiftToExponent, htarget, hamount, ← hn]
  have hlocates := locates_shiftRight (locates_ofMantissaAndAccuracy h) n
  have hvalue : r / 2 ^ n * 2 ^ t = r * 2 ^ e := by
    rw [hn, add_comm, two_zpow_add]
    field_simp
  rw [← hvalue] at hq hcases
  generalize r / 2 ^ n = x at hlocates hq hcases
  rcases hcases with rfl | ⟨rfl, rfl, hE, hbelow⟩
  · have hnearest : IsNearest M x := by
      have hreach := reach_le (M := M) (E := t)
      refine ⟨?_, le_of_mul_le_mul_right hq.high hpow, fun hodd => ?_⟩
      · have := le_of_mul_le_mul_right hq.low hpow
        linarith
      · obtain ⟨hlow, hhigh⟩ := hq.odd hodd
        have := lt_of_mul_lt_mul_right hlow hpow.le
        exact ⟨by linarith, lt_of_mul_lt_mul_right hhigh hpow.le⟩
    have hrounded : (ExtendedMantissa.ofMantissaAndAccuracy m acc >>> n).roundedMantissa = M :=
      roundToNearestEven_eq hlocates hnearest
    have hlog : M.log2 < 53 := (Nat.log2_lt (Nat.ne_of_gt hM)).mpr hc.mantissa_lt
    have hsame : binary64.targetExponent (totalExponent M t) ≤ t := by
      have := hc.low
      rw [targetExponent_eq, totalExponent]
      omega
    simp only [roundWithAccuracy, hshift, hrounded, shiftToTargetExponent_exact hsame, Nat.ne_of_gt hM, dite_false]
  · have hnearest : IsNearest (2 ^ 53) x := by
      have hdouble : (2 : ℚ) ^ E = 2 * 2 ^ (E - 1) := by
        rw [← zpow_one_add₀ two_ne_zero]
        congr 1
        ring
      have hreach : reach (2 ^ 52) E = 1 / 4 := if_pos ⟨rfl, hE⟩
      have hlow := hq.low
      rw [hreach, hdouble, ← mul_assoc] at hlow
      rw [hdouble, ← mul_assoc] at hbelow
      have hpow' : (0 : ℚ) < 2 ^ (E - 1) := zpow_pos two_pos (E - 1)
      have hlow := le_of_mul_le_mul_right hlow hpow'
      have hbelow := lt_of_mul_lt_mul_right hbelow hpow'.le
      push_cast at hlow ⊢
      exact ⟨by push_cast; linarith, by push_cast; linarith, fun h => absurd h (by decide)⟩
    have hrounded : (ExtendedMantissa.ofMantissaAndAccuracy m acc >>> n).roundedMantissa = 2 ^ 53 :=
      roundToNearestEven_eq hlocates hnearest
    simp only [roundWithAccuracy, hshift, hrounded, shiftToTargetExponent_carry (by omega : -1074 ≤ E - 1),
      sub_add_cancel]
    rfl

end LiveSheet.Number
