import LiveSheet.Number.Decimal
import LiveSheet.Proofs.Number.Rounding

namespace LiveSheet.Number

variable {d : Decimal} {s : Scaled} {units : Nat} {power : Int}

theorem zpow_eq_div {b : ℚ} (hb : b ≠ 0) (e : Int) : b ^ e = b ^ e.toNat / b ^ (-e).toNat := by
  rw [← zpow_natCast, ← zpow_natCast, ← zpow_sub₀ hb]
  congr 1
  omega

namespace Decimal

def value (d : Decimal) : ℚ := d.digits * 10 ^ d.exponent

/-- The factor that makes a decimal and a binary number whole. -/
def leveller (d : Decimal) (power : Int) : ℚ := 10 ^ (-d.exponent).toNat * 2 ^ (-power).toNat

theorem leveller_pos (d : Decimal) (power : Int) : 0 < d.leveller power :=
  mul_pos (pow_pos (by norm_num) _) (pow_pos (by norm_num) _)

theorem value_mul_leveller :
    d.value * d.leveller power = (d.digits * 10 ^ d.exponent.toNat * 2 ^ (-power).toNat : Nat) := by
  rw [value, leveller, zpow_eq_div (by norm_num)]
  push_cast
  field_simp

theorem binary_mul_leveller :
    (units * 2 ^ power) * d.leveller power = (units * 2 ^ power.toNat * 10 ^ (-d.exponent).toNat : Nat) := by
  rw [leveller, zpow_eq_div two_ne_zero]
  push_cast
  field_simp

theorem compareBinary_lt : d.compareBinary units power = .lt ↔ d.value < units * 2 ^ power := by
  rw [← mul_lt_mul_iff_left₀ (d.leveller_pos power), value_mul_leveller, binary_mul_leveller, Nat.cast_lt]
  exact Nat.compare_eq_lt

theorem compareBinary_gt : d.compareBinary units power = .gt ↔ units * 2 ^ power < d.value := by
  rw [← mul_lt_mul_iff_left₀ (d.leveller_pos power), value_mul_leveller, binary_mul_leveller, Nat.cast_lt]
  exact Nat.compare_eq_gt

theorem compareBinary_eq : d.compareBinary units power = .eq ↔ d.value = units * 2 ^ power := by
  rw [← mul_left_inj' (ne_of_gt (d.leveller_pos power)), value_mul_leveller, binary_mul_leveller, Nat.cast_inj]
  exact Nat.compare_eq_eq

theorem value_stripZeros (n : Nat) (d : Decimal) : (stripZeros n d).value = d.value := by
  fun_induction stripZeros n d with
  | case1 => rfl
  | case2 n d h ih =>
      have hdigits : (d.digits : ℚ) = (d.digits / 10 : Nat) * 10 := by
        exact_mod_cast (Nat.div_mul_cancel (Nat.dvd_of_mod_eq_zero h.2)).symm
      rw [ih, value, value, hdigits, zpow_add₀ (by norm_num), zpow_one]
      ring
  | case3 => rfl

end Decimal

namespace Scaled

theorem lowEnd (hm : 0 < s.mantissa) (he : -1074 ≤ s.exponent) :
    ((if s.narrowBelow then 4 * s.mantissa - 1 else 4 * s.mantissa - 2 : Nat) : ℚ) =
      4 * (s.mantissa - reach s.mantissa s.exponent) := by
  have hnarrow : s.narrowBelow = true ↔ s.mantissa = 2 ^ 52 ∧ -1074 < s.exponent := by
    simp only [narrowBelow, Bool.and_eq_true, beq_iff_eq, bne_iff_ne]
    omega
  by_cases h : s.mantissa = 2 ^ 52 ∧ -1074 < s.exponent
  · rw [if_pos (hnarrow.mpr h), reach, if_pos h, Nat.cast_sub (by omega)]
    push_cast
    ring
  · rw [if_neg (fun h' => h (hnarrow.mp h')), reach, if_neg h, Nat.cast_sub (by omega)]
    push_cast
    ring

theorem roundsTo_of_readsBack (hm : 0 < s.mantissa) (he : -1074 ≤ s.exponent) (h : s.readsBack d = true) :
    RoundsTo s.mantissa s.exponent d.value := by
  have hquarter : (2 : ℚ) ^ s.exponent = 4 * 2 ^ (s.exponent - 2) := by
    rw [zpow_sub₀ two_ne_zero]
    norm_num
    ring
  have hlow : (s.mantissa - reach s.mantissa s.exponent) * (2 : ℚ) ^ s.exponent =
      (if s.narrowBelow then 4 * s.mantissa - 1 else 4 * s.mantissa - 2 : Nat) * 2 ^ (s.exponent - 2) := by
    rw [lowEnd hm he, hquarter]
    ring
  have hhigh : ((s.mantissa : ℚ) + 1 / 2) * 2 ^ s.exponent = (4 * s.mantissa + 2 : Nat) * 2 ^ (s.exponent - 2) := by
    rw [hquarter]
    push_cast
    ring
  simp only [readsBack, Bool.and_eq_true, Bool.or_eq_true, beq_iff_eq, Decimal.compareBinary_lt,
    Decimal.compareBinary_gt, Decimal.compareBinary_eq] at h
  rw [← hlow, ← hhigh] at h
  obtain ⟨habove, hbelow⟩ := h
  refine ⟨?_, ?_, fun hodd => ?_⟩
  · rcases habove with habove | ⟨_, heq⟩
    · exact habove.le
    · exact heq.ge
  · rcases hbelow with hbelow | ⟨_, heq⟩
    · exact hbelow.le
    · exact heq.le
  · exact ⟨habove.resolve_right (by omega), hbelow.resolve_right (by omega)⟩

theorem readsBack_of_onGrid? {step : Int} (h : s.onGrid? step = some d) : s.readsBack d = true := by
  simp only [onGrid?] at h
  split at h
  · next hbelow habove =>
      split at h <;> cases h
      · exact hbelow
      · exact habove
  · next hbelow _ =>
      cases h
      exact hbelow
  · next _ habove =>
      cases h
      exact habove
  · cases h

theorem value_exact (s : Scaled) : s.exact.value = s.mantissa * 2 ^ s.exponent := by
  unfold exact
  split
  · next h =>
      obtain ⟨n, hn⟩ := Int.eq_ofNat_of_zero_le h
      simp [Decimal.value, hn]
  · next h =>
      obtain ⟨n, hn⟩ := Int.exists_eq_neg_ofNat (not_le.mp h).le
      simp only [Decimal.value, hn, neg_neg, Int.toNat_natCast, zpow_neg, zpow_natCast]
      have hten : (10 : ℚ) ^ n = 5 ^ n * 2 ^ n := by
        rw [← mul_pow]
        norm_num
      rw [hten]
      push_cast
      field_simp

theorem roundsTo_shortest (hm : 0 < s.mantissa) (he : -1074 ≤ s.exponent) :
    RoundsTo s.mantissa s.exponent s.shortest.value := by
  rw [shortest, if_neg (Nat.ne_of_gt hm)]
  simp only
  split
  · next d hd =>
      obtain ⟨n, _, hgrid⟩ := List.exists_of_findSome?_eq_some hd
      rw [Decimal.value_stripZeros]
      exact roundsTo_of_readsBack hm he (readsBack_of_onGrid? hgrid)
  · rw [value_exact]
    exact roundsTo_self _ _

theorem value_whole (h : s.isWhole = true) : (s.whole : ℚ) = s.mantissa * 2 ^ s.exponent := by
  obtain ⟨k, hk⟩ : 2 ^ (-s.exponent).toNat ∣ s.mantissa * 2 ^ s.exponent.toNat :=
    (Nat.dvd_of_mod_eq_zero (by simpa [isWhole] using h)).mul_right _
  have hwhole : s.whole = k := by rw [whole, hk, Nat.mul_div_cancel_left _ (Nat.two_pow_pos _)]
  have hk : (s.mantissa : ℚ) * 2 ^ s.exponent.toNat = 2 ^ (-s.exponent).toNat * k := by exact_mod_cast hk
  rw [hwhole, zpow_eq_div two_ne_zero, ← mul_div_assoc, hk]
  field_simp

end Scaled

end LiveSheet.Number
