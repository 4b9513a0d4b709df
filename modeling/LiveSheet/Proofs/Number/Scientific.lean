import LiveSheet.Number.Numeral
import LiveSheet.Proofs.Number.Packing

namespace LiveSheet.Number

open Float.Model (UnpackedFloat totalExponent)
open Float.Model.Format (binary64)
open Float.Model.UnpackedFloat

variable {M a b m : Nat} {E e f : Int} {x : Float}

theorem mul_eq (hc : IsCanonical M E) (hM : 0 < M) (ha : 0 < a) (hb : 0 < b) (hlarge : 2 ^ 52 ≤ a * b)
    (hq : RoundsTo M E (a * 2 ^ e * (b * 2 ^ f))) :
    UnpackedFloat.mul binary64 (.finite .positive a e ha) (.finite .positive b f hb) = .finite .positive M E hM := by
  have hlocates : Locates (a * b) ((a * b : Nat) : ℚ) .exact := rfl
  refine roundWithAccuracy_eq hc hM hlocates (.inl hlarge) ?_ _
  have hvalue : ((a * b : Nat) : ℚ) * 2 ^ (e + f) = a * 2 ^ e * (b * 2 ^ f) := by
    rw [zpow_add₀ two_ne_zero]
    push_cast
    ring
  rwa [hvalue]

theorem locates_quotient (hb : 0 < b) : Locates (a / b) (a / b : ℚ) (accuracyOfFraction (a % b) b) := by
  have hpos : (0 : ℚ) < b := by exact_mod_cast hb
  have hquotient : (a / b : ℚ) = (a / b : Nat) + (a % b : Nat) / b := by
    have := congrArg (Nat.cast (R := ℚ)) (Nat.div_add_mod a b)
    push_cast at this
    field_simp
    linarith
  have hless : ((a % b : Nat) : ℚ) < b := by exact_mod_cast Nat.mod_lt a hb
  rw [hquotient]
  generalize a % b = rest at hless
  unfold accuracyOfFraction
  by_cases hrest : rest = 0
  · simp [hrest, Locates]
  have hrest : (0 : ℚ) < rest := by exact_mod_cast Nat.pos_of_ne_zero hrest
  rw [if_neg (by rintro rfl; simp at hrest)]
  have hdiv : (0 : ℚ) < rest / b := div_pos hrest hpos
  cases hcompare : compare (2 * rest) b with
  | lt =>
      have : ((2 * rest : Nat) : ℚ) < b := by exact_mod_cast Nat.compare_eq_lt.mp hcompare
      push_cast at this
      have : (rest : ℚ) / b < 1 / 2 := (div_lt_iff₀ hpos).mpr (by linarith)
      exact ⟨by linarith, by linarith⟩
  | eq =>
      have : ((2 * rest : Nat) : ℚ) = b := by exact_mod_cast Nat.compare_eq_eq.mp hcompare
      push_cast at this
      have : (rest : ℚ) / b = 1 / 2 := (div_eq_iff (ne_of_gt hpos)).mpr (by linarith)
      simp only [Locates, this]
  | gt =>
      have : (b : ℚ) < (2 * rest : Nat) := by exact_mod_cast Nat.compare_eq_gt.mp hcompare
      push_cast at this
      have : 1 / 2 < (rest : ℚ) / b := (lt_div_iff₀ hpos).mpr (by linarith)
      have : (rest : ℚ) / b < 1 := (div_lt_iff₀ hpos).mpr (by linarith)
      exact ⟨by linarith, by linarith⟩

theorem isFine_quotient {n : Nat} {t : Int} (ha : 0 < a) (hb : 0 < b)
    (hlow : t ≤ binary64.targetExponent (totalExponent a e - totalExponent b f)) (ht : t + n = e - f) :
    IsFine ((a <<< n) / b) t := by
  rw [targetExponent_eq, totalExponent, totalExponent] at hlow
  by_cases hfine : t ≤ -1074
  · exact .inr hfine
  refine .inl ((Nat.le_div_iff_mul_le hb).mpr ?_)
  have hdivisor : b ≤ 2 ^ (b.log2 + 1) := (Nat.lt_log2_self (n := b)).le
  have hdividend : 2 ^ a.log2 ≤ a := Nat.log2_self_le (Nat.ne_of_gt ha)
  calc 2 ^ 52 * b ≤ 2 ^ 52 * 2 ^ (b.log2 + 1) := Nat.mul_le_mul_left _ hdivisor
    _ = 2 ^ (53 + b.log2) := by rw [← pow_add]; congr 1; omega
    _ ≤ 2 ^ (a.log2 + n) := Nat.pow_le_pow_right (by decide) (by omega)
    _ = 2 ^ a.log2 * 2 ^ n := pow_add ..
    _ ≤ a <<< n := by rw [Nat.shiftLeft_eq]; exact Nat.mul_le_mul_right _ hdividend

theorem div_eq (hc : IsCanonical M E) (hM : 0 < M) (ha : 0 < a) (hb : 0 < b)
    (hq : RoundsTo M E (a * 2 ^ e / (b * 2 ^ f))) :
    UnpackedFloat.div binary64 (.finite .positive a e ha) (.finite .positive b f hb) = .finite .positive M E hM := by
  have hb' : (b : ℚ) ≠ 0 := by exact_mod_cast Nat.ne_of_gt hb
  show roundWithAccuracy binary64 .positive (divCore binary64 a e b f).1 (divCore binary64 a e b f).2.1
    (divCore binary64 a e b f).2.2 = _
  simp only [divCore]
  generalize htarget : min (e - f) (binary64.targetExponent (totalExponent a e - totalExponent b f)) = t
  have hle : t ≤ e - f := htarget ▸ min_le_left _ _
  have hlow : t ≤ binary64.targetExponent (totalExponent a e - totalExponent b f) := htarget ▸ min_le_right _ _
  obtain ⟨n, hn⟩ : ∃ n : Nat, e - f - t = n := ⟨(e - f - t).toNat, by omega⟩
  rw [hn, Int.toNat_natCast]
  refine roundWithAccuracy_eq hc hM (locates_quotient hb) (isFine_quotient ha hb hlow (by omega)) ?_ _
  have hexponent : (2 : ℚ) ^ n * 2 ^ t = 2 ^ e / 2 ^ f := by
    rw [← two_zpow_add, ← zpow_sub₀ two_ne_zero]
    congr 1
    omega
  have hvalue : ((a <<< n : Nat) : ℚ) / b * 2 ^ t = a * 2 ^ e / (b * 2 ^ f) := by
    rw [Nat.shiftLeft_eq]
    push_cast
    calc (a : ℚ) * 2 ^ n / b * 2 ^ t = a * (2 ^ n * 2 ^ t) / b := by ring
      _ = a * 2 ^ e / (b * 2 ^ f) := by
        rw [hexponent]
        field_simp
  rwa [hvalue]

theorem le_whole (hm : 0 < m) (h : m < 2 ^ 53) : 2 ^ 52 ≤ m * 2 ^ (52 - m.log2) := by
  have hlog : m.log2 < 53 := (Nat.log2_lt (Nat.ne_of_gt hm)).mpr h
  calc 2 ^ 52 = 2 ^ m.log2 * 2 ^ (52 - m.log2) := by rw [← pow_add]; congr 1; omega
    _ ≤ m * 2 ^ (52 - m.log2) := Nat.mul_le_mul_right _ (Nat.log2_self_le (Nat.ne_of_gt hm))

theorem isCanonical_whole (hm : 0 < m) (h : m < 2 ^ 53) : IsCanonical (m * 2 ^ (52 - m.log2)) (m.log2 - 52) := by
  have hlog : m.log2 < 53 := (Nat.log2_lt (Nat.ne_of_gt hm)).mpr h
  refine ⟨?_, by omega, by omega, fun _ => le_whole hm h⟩
  calc m * 2 ^ (52 - m.log2) < 2 ^ (m.log2 + 1) * 2 ^ (52 - m.log2) :=
        Nat.mul_lt_mul_of_pos_right Nat.lt_log2_self (Nat.two_pow_pos _)
    _ = 2 ^ 53 := by rw [← pow_add]; congr 1; omega

theorem value_whole (hm : 0 < m) (h : m < 2 ^ 53) :
    ((m * 2 ^ (52 - m.log2) : Nat) : ℚ) * 2 ^ ((m.log2 : Int) - 52) = m := by
  have hlog : m.log2 < 53 := (Nat.log2_lt (Nat.ne_of_gt hm)).mpr h
  have hexponent : (m.log2 : Int) - 52 = -((52 - m.log2 : Nat) : Int) := by omega
  rw [hexponent, zpow_neg, zpow_natCast]
  push_cast
  field_simp

theorem round_whole (hm : 0 < m) (h : m < 2 ^ 53) (hpos : 0 < m * 2 ^ (52 - m.log2)) :
    UnpackedFloat.round binary64 .positive m 0 = .finite .positive (m * 2 ^ (52 - m.log2)) (m.log2 - 52) hpos := by
  have hlog : m.log2 < 53 := (Nat.log2_lt (Nat.ne_of_gt hm)).mpr h
  have hamount : ((0 : Int) - binary64.targetExponent (totalExponent m 0)).toNat = 52 - m.log2 := by
    rw [targetExponent_eq, totalExponent]
    omega
  have hlocates : Locates (m <<< (52 - m.log2)) ((m * 2 ^ (52 - m.log2) : Nat) : ℚ) .exact := by
    rw [Nat.shiftLeft_eq]
    rfl
  have hfine : IsFine (m <<< (52 - m.log2)) (m.log2 - 52) := by
    rw [Nat.shiftLeft_eq]
    exact .inl (le_whole hm h)
  have hexponent : (0 : Int) - (52 - m.log2 : Nat) = m.log2 - 52 := by omega
  simp only [UnpackedFloat.round, decreaseExponent, hamount, hexponent]
  exact roundWithAccuracy_eq (isCanonical_whole hm h) hpos hlocates hfine (roundsTo_self _ _) _

theorem unpack_whole (hm : 0 < m) (h : m < 2 ^ 53) (hpos : 0 < m * 2 ^ (52 - m.log2)) :
    m.toUInt64.toFloat.toModel.unpack = .finite .positive (m * 2 ^ (52 - m.log2)) (m.log2 - 52) hpos := by
  have hsize : m.toUInt64.toNat = m := Nat.mod_eq_of_lt (h.trans (by decide))
  show (Float.Model.pack (UnpackedFloat.normalize binary64 (m.toUInt64.toNat : Int) 0 .positive)).unpack = _
  have hcompare : compare (m : Int) 0 = .gt := Int.compare_eq_gt.mpr (by omega)
  rw [hsize, UnpackedFloat.normalize, hcompare]
  simp only [Int.toNat_natCast, round_whole hm h hpos]
  exact unpack_pack (isCanonical_whole hm h) hpos _

theorem shape_powerOfTen : ∀ k, ∀ h : k < Float.exactlyRepresentablePowersOfTen.size,
    shape (Float.exactlyRepresentablePowersOfTen[k]) =
      .finite ⟨false, 5 ^ k * 2 ^ (52 - (5 ^ k).log2), (5 ^ k).log2 - 52 + k⟩ := by
  decide +kernel

theorem unpack_of_shape (h : shape x = .finite ⟨false, M, E⟩) (hM : 0 < M) :
    x.toModel.unpack = .finite .positive M E hM := by
  rw [← ofModel_pack h hM]
  exact unpack_pack (isCanonical_of_shape h) hM _

theorem value_powerOfTen {k : Nat} (h : k ≤ 22) :
    ((5 ^ k * 2 ^ (52 - (5 ^ k).log2) : Nat) : ℚ) * 2 ^ (((5 ^ k).log2 : Int) - 52 + k) = 10 ^ k := by
  have hsmall : 5 ^ k < 2 ^ 53 := (Nat.pow_le_pow_right (by decide) h).trans_lt (by decide : 5 ^ 22 < 2 ^ 53)
  rw [zpow_add₀ two_ne_zero, zpow_natCast, ← mul_assoc, value_whole (Nat.pow_pos (by decide)) hsmall]
  push_cast
  rw [← mul_pow]
  norm_num

variable {k : Nat} {y : Float} {u v : UnpackedFloat}

theorem product_of_unpack (hx : x.toModel.unpack = u) (hy : y.toModel.unpack = v) :
    x * y = Float.ofModel (Float.Model.pack (UnpackedFloat.mul binary64 u v)) := by
  subst hx hy
  rfl

theorem quotient_of_unpack (hx : x.toModel.unpack = u) (hy : y.toModel.unpack = v) :
    x / y = Float.ofModel (Float.Model.pack (UnpackedFloat.div binary64 u v)) := by
  subst hx hy
  rfl

theorem unpacked_product (hm : 0 < m) (hk : k ≤ 2048) (hshifted : 0 < m <<< 53) (hpower : 0 < 10 ^ k) :
    UnpackedFloat.ofScientific binary64 m k =
      UnpackedFloat.mul binary64 (.finite .positive (m <<< 53) (-53) hshifted)
        (.finite .positive (10 ^ k) 0 hpower) := by
  have hhigh : ¬(k : Int) > 2 ^ 11 := by omega
  have hlow : ¬(k : Int) < -(2 ^ 11 + m.log2) := by omega
  have hnonneg : 0 ≤ (k : Int) := by omega
  simp only [UnpackedFloat.ofScientific, Nat.ne_of_gt hm, dite_false]
  rw [if_neg hhigh, if_neg hlow, if_pos hnonneg]
  rfl

theorem unpacked_quotient (hm : 0 < m) (hpos : 0 < k) (hk : k ≤ 2048 + m.log2) (hpower : 0 < 10 ^ k) :
    UnpackedFloat.ofScientific binary64 m (Int.negOfNat k) =
      UnpackedFloat.div binary64 (.finite .positive m 0 hm) (.finite .positive (10 ^ k) 0 hpower) := by
  have hhigh : ¬-(k : Int) > 2 ^ 11 := by omega
  have hlow : ¬-(k : Int) < -(2 ^ 11 + m.log2) := by omega
  have hnegative : ¬0 ≤ -(k : Int) := by omega
  simp only [UnpackedFloat.ofScientific, Int.negOfNat_eq, Int.ofNat_eq_natCast, Nat.ne_of_gt hm, dite_false]
  rw [if_neg hhigh, if_neg hlow, if_neg hnegative]
  simp only [neg_neg, Int.toNat_natCast]

theorem ofScientific_product (hx : shape x = .finite ⟨false, M, E⟩) (hM : 0 < M) (hm : 0 < m) (hk : k ≤ 2048)
    (hq : RoundsTo M E (m * 10 ^ k)) : Float.ofScientific m false k = x := by
  have hc := isCanonical_of_shape hx
  rw [← ofModel_pack hx hM, Float.ofScientific]
  split
  · next h =>
      have hshape := shape_powerOfTen k (Nat.lt_succ_of_le h.2)
      have hpower : 0 < 5 ^ k * 2 ^ (52 - (5 ^ k).log2) := Nat.mul_pos (Nat.pow_pos (by decide)) (Nat.two_pow_pos _)
      have hwhole : 0 < m * 2 ^ (52 - m.log2) := Nat.mul_pos hm (Nat.two_pow_pos _)
      refine (product_of_unpack (unpack_whole hm h.1 hwhole) (unpack_of_shape hshape hpower)).trans ?_
      rw [mul_eq hc hM hwhole hpower ?_ ?_]
      · exact (le_whole hm h.1).trans (Nat.le_mul_of_pos_right _ hpower)
      · rwa [value_whole hm h.1, value_powerOfTen h.2]
  · have hshifted : 0 < m <<< 53 := Nat.shiftLeft_pos_iff.mpr hm
    have hpower : 0 < 10 ^ k := Nat.pow_pos (by decide)
    have hvalue : ((m <<< 53 : Nat) : ℚ) * 2 ^ (-53 : Int) * ((10 ^ k : Nat) * 2 ^ (0 : Int)) = m * 10 ^ k := by
      rw [Nat.shiftLeft_eq]
      rw [zpow_neg, zpow_zero]
      push_cast
      field_simp
    have hfinite := mul_eq hc hM hshifted hpower ?_ (hvalue ▸ hq)
    · have hunpacked := (unpacked_product hm hk hshifted hpower).trans hfinite
      exact congrArg (fun u => Float.ofModel (Float.Model.pack u)) hunpacked
    rw [Nat.shiftLeft_eq]
    calc 2 ^ 52 ≤ 2 ^ 53 := by decide
      _ ≤ m * 2 ^ 53 := Nat.le_mul_of_pos_left _ hm
      _ ≤ m * 2 ^ 53 * 10 ^ k := Nat.le_mul_of_pos_right _ hpower

theorem ofScientific_quotient (hx : shape x = .finite ⟨false, M, E⟩) (hM : 0 < M) (hm : 0 < m) (hpos : 0 < k)
    (hk : k ≤ 2048 + m.log2) (hq : RoundsTo M E (m / 10 ^ k)) : Float.ofScientific m true k = x := by
  have hc := isCanonical_of_shape hx
  rw [← ofModel_pack hx hM, Float.ofScientific]
  split
  · next h =>
      have hshape := shape_powerOfTen k (Nat.lt_succ_of_le h.2)
      have hpower : 0 < 5 ^ k * 2 ^ (52 - (5 ^ k).log2) := Nat.mul_pos (Nat.pow_pos (by decide)) (Nat.two_pow_pos _)
      have hwhole : 0 < m * 2 ^ (52 - m.log2) := Nat.mul_pos hm (Nat.two_pow_pos _)
      refine (quotient_of_unpack (unpack_whole hm h.1 hwhole) (unpack_of_shape hshape hpower)).trans ?_
      rw [div_eq hc hM hwhole hpower ?_]
      rwa [value_whole hm h.1, value_powerOfTen h.2]
  · have hpower : 0 < 10 ^ k := Nat.pow_pos (by decide)
    have hvalue : (m : ℚ) * 2 ^ (0 : Int) / ((10 ^ k : Nat) * 2 ^ (0 : Int)) = m / 10 ^ k := by
      rw [zpow_zero, mul_one, mul_one]
      push_cast
      rfl
    have hfinite := div_eq hc hM hm hpower (hvalue ▸ hq)
    exact congrArg (fun u => Float.ofModel (Float.Model.pack u)) ((unpacked_quotient hm hpos hk hpower).trans hfinite)

theorem pow_length_toDigits (hm : 0 < m) :
    10 ^ ((Nat.toDigits 10 m).length - 1) ≤ m ∧ m < 10 ^ (Nat.toDigits 10 m).length := by
  have hlength : 0 < (Nat.toDigits 10 m).length := Nat.length_toDigits_pos
  refine ⟨?_, (Nat.length_toDigits_le_iff (by decide) hlength).mp (le_refl _)⟩
  by_cases hone : (Nat.toDigits 10 m).length - 1 = 0
  · rw [hone]
    exact hm
  · by_contra hless
    have := (Nat.length_toDigits_le_iff (by decide) (Nat.pos_of_ne_zero hone)).mpr (not_le.mp hless)
    omega

theorem length_toDigits_le_log2 (m : Nat) : (Nat.toDigits 10 m).length ≤ m.log2 + 1 := by
  refine (Nat.length_toDigits_le_iff (by decide) (by omega)).mpr ?_
  calc m < 2 ^ (m.log2 + 1) := Nat.lt_log2_self
    _ ≤ 10 ^ (m.log2 + 1) := Nat.pow_le_pow_left (by decide) _

theorem decade_bounds (hm : 0 < m) (e : Int) :
    (10 : ℚ) ^ ((Nat.toDigits 10 m).length - 1 + e) ≤ m * 10 ^ e ∧
      (m : ℚ) * 10 ^ e < 10 ^ ((Nat.toDigits 10 m).length + e) := by
  have hpow : (0 : ℚ) < 10 ^ e := zpow_pos (by norm_num) e
  obtain ⟨hlow, hhigh⟩ := pow_length_toDigits hm
  have hlength : 0 < (Nat.toDigits 10 m).length := Nat.length_toDigits_pos
  have hlow : (10 : ℚ) ^ ((Nat.toDigits 10 m).length - 1) ≤ m := by exact_mod_cast hlow
  have hhigh : (m : ℚ) < 10 ^ (Nat.toDigits 10 m).length := by exact_mod_cast hhigh
  have hpred : ((Nat.toDigits 10 m).length : Int) - 1 = ((Nat.toDigits 10 m).length - 1 : Nat) := by omega
  rw [hpred, zpow_add₀ (by norm_num), zpow_add₀ (by norm_num), zpow_natCast, zpow_natCast]
  exact ⟨mul_le_mul_of_nonneg_right hlow hpow.le, mul_lt_mul_of_pos_right hhigh hpow⟩

theorem least_bound : (10 : ℚ) ^ (-324 : Int) < 1 / 2 * 2 ^ (-1074 : Int) := by
  have hpow : 2 * 2 ^ 1074 < 10 ^ 324 := by decide +kernel
  have hpow : (2 : ℚ) * 2 ^ 1074 < 10 ^ 324 := by exact_mod_cast hpow
  have hpos : (0 : ℚ) < 2 * 2 ^ 1074 := mul_pos two_pos (pow_pos two_pos _)
  have hinv := inv_strictAnti₀ hpos hpow
  rw [zpow_neg, zpow_neg, one_div, ← mul_inv]
  exact_mod_cast hinv

theorem greatest_bound : (2 : ℚ) ^ 53 * 2 ^ (971 : Int) < 10 ^ (309 : Int) := by
  have hpow : 2 ^ 53 * 2 ^ 971 < 10 ^ 309 := by decide +kernel
  exact_mod_cast hpow

theorem RoundsTo.bounds {q : ℚ} (hc : IsCanonical M E) (hM : 0 < M) (hq : RoundsTo M E q) :
    (10 : ℚ) ^ (-324 : Int) < q ∧ q < 10 ^ (309 : Int) := by
  have hmantissa : (1 : ℚ) ≤ M := by exact_mod_cast hM
  have hmantissa' : (M : ℚ) + 1 ≤ 2 ^ 53 := by exact_mod_cast hc.mantissa_lt
  have hlow : (2 : ℚ) ^ (-1074 : Int) ≤ 2 ^ E := zpow_le_zpow_right₀ (by norm_num) hc.low
  have hhigh : (2 : ℚ) ^ E ≤ 2 ^ (971 : Int) := zpow_le_zpow_right₀ (by norm_num) hc.high
  have hpow : (0 : ℚ) < 2 ^ E := zpow_pos two_pos E
  have hreach := reach_le (M := M) (E := E)
  constructor
  · calc (10 : ℚ) ^ (-324 : Int) < 1 / 2 * 2 ^ (-1074 : Int) := least_bound
      _ ≤ 1 / 2 * 2 ^ E := mul_le_mul_of_nonneg_left hlow (by norm_num)
      _ ≤ (M - reach M E) * 2 ^ E := mul_le_mul_of_nonneg_right (by linarith) hpow.le
      _ ≤ q := hq.low
  · calc q ≤ (M + 1 / 2) * 2 ^ E := hq.high
      _ ≤ 2 ^ 53 * 2 ^ E := mul_le_mul_of_nonneg_right (by linarith) hpow.le
      _ ≤ 2 ^ 53 * 2 ^ (971 : Int) := mul_le_mul_of_nonneg_left hhigh (by norm_num)
      _ < 10 ^ (309 : Int) := greatest_bound

theorem ofDecimal_eq (hx : shape x = .finite ⟨false, M, E⟩) (hM : 0 < M) (hq : RoundsTo M E (m * 10 ^ e)) :
    ofDecimal m e = x := by
  obtain ⟨hlow, hhigh⟩ := hq.bounds (isCanonical_of_shape hx) hM
  have hm : 0 < m := by
    refine Nat.pos_of_ne_zero fun hzero => ?_
    have hpow : (0 : ℚ) < 10 ^ (-324 : Int) := zpow_pos (by norm_num) _
    rw [hzero, Nat.cast_zero, zero_mul] at hlow
    exact lt_asymm hlow hpow
  obtain ⟨hfirst, hbehind⟩ := decade_bounds hm e
  have hten : (1 : ℚ) < 10 := by norm_num
  have hhigh := (zpow_lt_zpow_iff_right₀ hten).mp (hfirst.trans_lt hhigh)
  have hlow := (zpow_lt_zpow_iff_right₀ hten).mp (hlow.trans hbehind)
  have hlength : 0 < (Nat.toDigits 10 m).length := Nat.length_toDigits_pos
  have hlog := length_toDigits_le_log2 m
  simp only [ofDecimal]
  rw [if_neg (Nat.ne_of_gt hm), if_neg (by omega), if_neg (by omega)]
  rcases le_or_gt 0 e with hsign | hsign
  · obtain ⟨k, rfl⟩ := Int.eq_ofNat_of_zero_le hsign
    rw [decide_eq_false (by omega)]
    exact ofScientific_product hx hM hm (by omega) (by rwa [zpow_natCast] at hq)
  · obtain ⟨k, hk⟩ := Int.exists_eq_neg_ofNat hsign.le
    subst hk
    rw [decide_eq_true hsign, Int.natAbs_neg, Int.natAbs_natCast]
    refine ofScientific_quotient hx hM hm (by omega) (by omega) ?_
    rwa [zpow_neg, zpow_natCast, ← div_eq_mul_inv] at hq

def IsUnsigned : UnpackedFloat → Prop
  | .notANumber => False
  | .infinity sign => sign = .positive
  | .zero sign => sign = .positive
  | .finite sign _ _ _ => sign = .positive

theorem isUnsigned_roundWithAccuracy (m : Nat) (e : Int) (acc : Accuracy) :
    IsUnsigned (roundWithAccuracy binary64 .positive m e acc) := by
  simp only [roundWithAccuracy]
  split <;> rfl

theorem isUnsigned_ofScientific (m : Nat) (e : Int) : IsUnsigned (UnpackedFloat.ofScientific binary64 m e) := by
  unfold UnpackedFloat.ofScientific
  split
  · rfl
  split
  · rfl
  split
  · rfl
  split <;> exact isUnsigned_roundWithAccuracy ..

theorem toNat_pack_le (h : IsUnsigned u) : (UnpackedFloat.pack binary64 u).toNat ≤ infinityMagnitude := by
  have hpositive : Sign.positive.toBitVec.toNat = 0 := rfl
  cases u with
  | notANumber => exact h.elim
  | infinity sign =>
      obtain rfl : sign = .positive := h
      decide
  | zero sign =>
      obtain rfl : sign = .positive := h
      decide
  | finite sign M E hM =>
      obtain rfl : sign = .positive := h
      unfold UnpackedFloat.pack
      simp only
      split
      · decide
      split
      · rw [toNat_packComponents, hpositive, BitVec.toNat_ofNat, BitVec.toNat_ofNat]
        have := Nat.mod_lt M (Nat.two_pow_pos 52)
        simp [infinityMagnitude]
        omega
      · rw [toNat_packComponents, hpositive, BitVec.toNat_ofNat]
        have := Nat.mod_lt M (Nat.two_pow_pos 52)
        simp [infinityMagnitude]
        omega

def IsUpright (x : Float) : Prop := signBit x = false ∧ isNaN x = false

theorem isUpright_pack (h : IsUnsigned u) : IsUpright (Float.ofModel (Float.Model.pack u)) := by
  have hle : (Float.ofModel (Float.Model.pack u)).toBits.toNat ≤ infinityMagnitude := toNat_pack_le h
  have hbound : infinityMagnitude < 2 ^ 63 := by decide
  constructor
  · exact decide_eq_false (by omega)
  · have : magnitude (Float.ofModel (Float.Model.pack u)) ≤ infinityMagnitude := (Nat.mod_le _ _).trans hle
    exact decide_eq_false (by omega)

theorem isUpright_product {ha : 0 < a} {hb : 0 < b} (hx : x.toModel.unpack = .finite .positive a e ha)
    (hy : y.toModel.unpack = .finite .positive b f hb) : IsUpright (x * y) := by
  rw [product_of_unpack hx hy]
  exact isUpright_pack (isUnsigned_roundWithAccuracy ..)

theorem isUpright_quotient {ha : 0 < a} {hb : 0 < b} (hx : x.toModel.unpack = .finite .positive a e ha)
    (hy : y.toModel.unpack = .finite .positive b f hb) : IsUpright (x / y) := by
  rw [quotient_of_unpack hx hy]
  exact isUpright_pack (isUnsigned_roundWithAccuracy ..)

theorem isUpright_ofScientific (hm : 0 < m) (negative : Bool) (k : Nat) :
    IsUpright (Float.ofScientific m negative k) := by
  rw [Float.ofScientific]
  split
  · next h =>
      have hshape := shape_powerOfTen k (Nat.lt_succ_of_le h.2)
      have hpower : 0 < 5 ^ k * 2 ^ (52 - (5 ^ k).log2) := Nat.mul_pos (Nat.pow_pos (by decide)) (Nat.two_pow_pos _)
      have hwhole : 0 < m * 2 ^ (52 - m.log2) := Nat.mul_pos hm (Nat.two_pow_pos _)
      have hunpack := unpack_whole hm h.1 hwhole
      have hunpack' := unpack_of_shape hshape hpower
      split
      · exact isUpright_quotient hunpack hunpack'
      · exact isUpright_product hunpack hunpack'
  · exact isUpright_pack (isUnsigned_ofScientific _ _)

theorem isUpright_ofDecimal (m : Nat) (e : Int) : IsUpright (ofDecimal m e) := by
  simp only [ofDecimal]
  split
  · exact ⟨by decide, by decide⟩
  split
  · exact ⟨by decide, by decide⟩
  split
  · exact ⟨by decide, by decide⟩
  · next hm _ _ => exact isUpright_ofScientific (Nat.pos_of_ne_zero hm) _ _

theorem isUpright_of_numeral? {cs : List Char} (h : numeral? cs = some x) : IsUpright x := by
  unfold numeral? at h
  repeat' split at h
  all_goals cases h
  all_goals exact isUpright_ofDecimal ..

theorem IsUpright.isFinite (h : IsUpright x) (hx : x ≠ infinity) : isFinite x = true := by
  by_contra hfinite
  have hnan := h.2
  simp only [Number.isNaN, Number.isFinite, decide_eq_true_eq, decide_eq_false_iff_not] at hnan hfinite
  refine hx (eq_of_magnitude ?_ ?_)
  · have hinfinity : magnitude infinity = infinityMagnitude := by decide
    omega
  · rw [h.1]
    decide

end LiveSheet.Number
