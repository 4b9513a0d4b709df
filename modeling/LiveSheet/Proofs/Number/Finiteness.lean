import LiveSheet.Proofs.Number.Written

namespace LiveSheet.Number

open Float.Model (UnpackedFloat totalExponent)
open Float.Model.Format (binary64)
open Float.Model.UnpackedFloat

inductive IsBounded : UnpackedFloat → Prop
  | zero (sign : Sign) : IsBounded (.zero sign)
  | finite (sign : Sign) {M : Nat} {E : Int} (hM : 0 < M) (hE : E ≤ 971) : IsBounded (.finite sign M E hM)

/-- A count that is too large to be a number, and so does not fit in sixty-four bits. -/
def Overflows (k : Nat) : Prop := 2 ^ 64 ≤ k ∧ isFinite (ofNat k) = false

variable {M m : Nat} {E e : Int} {x : Float} {u : UnpackedFloat}

theorem isFinite_pack (h : IsBounded u) : isFinite (Float.ofModel (Float.Model.pack u)) = true := by
  have hbits : magnitude (Float.ofModel (Float.Model.pack u)) = (UnpackedFloat.pack binary64 u).toNat % 2 ^ 63 := rfl
  cases h with
  | zero sign => cases sign <;> decide
  | @finite sign M E hM hE =>
      have hmantissa := Nat.mod_lt M (Nat.two_pow_pos 52)
      have hsign := sign.toBitVec.isLt
      refine decide_eq_true ?_
      rw [hbits]
      unfold UnpackedFloat.pack
      simp only
      split
      · next hhigh =>
          simp only [Float.Model.Format.exponentBias] at hhigh
          omega
      split
      · rw [toNat_packComponents, BitVec.toNat_ofNat, BitVec.toNat_ofNat]
        simp only [Float.Model.Format.exponentBias, infinityMagnitude]
        omega
      · rw [toNat_packComponents, BitVec.toNat_ofNat]
        simp [infinityMagnitude]
        omega

theorem toNat_unpackExponent (b : BitVec 64) :
    (@unpackExponent binary64 b).toNat = b.toNat / 2 ^ 52 % 2 ^ 11 := by
  simp only [unpackExponent, BitVec.toNat_cast, BitVec.extractLsb_toNat, Nat.shiftRight_eq_div_pow]

theorem toNat_unpackMantissa (b : BitVec 64) : (@unpackMantissa binary64 b).toNat = b.toNat % 2 ^ 52 := by
  simp only [unpackMantissa, BitVec.toNat_cast, BitVec.extractLsb_toNat, Nat.shiftRight_zero]

theorem isBounded_unpack (h : isFinite x = true) : IsBounded x.toModel.unpack := by
  have hbits : x.toModel.toBits.toBitVec.toNat % 2 ^ 63 < infinityMagnitude := of_decide_eq_true h
  have hexponent : (@unpackExponent binary64 x.toModel.toBits.toBitVec).toNat < 2047 := by
    rw [toNat_unpackExponent]
    simp only [infinityMagnitude] at hbits
    omega
  unfold Float.Model.unpack UnpackedFloat.unpack
  simp only
  split
  · next hones =>
      rw [hones] at hexponent
      simp at hexponent
  split
  · next hzero =>
      split
      · exact .zero _
      · refine .finite _ _ ?_
        simp only [hzero, Float.Model.Format.exponentBias]
        decide
  · refine .finite _ _ ?_
    simp only [Float.Model.Format.exponentBias]
    omega

theorem cases_of_not_finite (h : isFinite x = false) : x = infinity ∨ x = -infinity ∨ x = notANumber := by
  have hbits : infinityMagnitude ≤ magnitude x := not_lt.mp (of_decide_eq_false h)
  rcases hbits.eq_or_lt with hinfinite | hnan
  · cases hsign : signBit x with
    | false => exact .inl (eq_of_magnitude (hinfinite.symm.trans (by decide)) (hsign.trans (by decide)))
    | true => exact .inr (.inl (eq_of_magnitude (hinfinite.symm.trans (by decide)) (hsign.trans (by decide))))
  · refine .inr (.inr (eq_of_toBits (UInt64.toBitVec_inj.mp ?_)))
    have hless : x.toModel.toBits.toBitVec.toNat % 2 ^ 63 < 2 ^ 63 := Nat.mod_lt _ (by decide)
    have hnan : infinityMagnitude < x.toModel.toBits.toBitVec.toNat % 2 ^ 63 := hnan
    simp only [infinityMagnitude] at hnan
    refine x.toModel.valid.eq_packedNaN (BitVec.eq_of_toNat_eq ?_) fun hzero => ?_
    · have hones : (-1#11 : BitVec 11).toNat = 2047 := by decide
      rw [toNat_unpackExponent]
      refine Eq.trans ?_ hones.symm
      omega
    · have hmantissa : x.toModel.toBits.toBitVec.toNat % 2 ^ 52 = 0 :=
        (toNat_unpackMantissa _).symm.trans (congrArg BitVec.toNat hzero)
      omega

theorem IsBounded.neg (h : IsBounded u) : IsBounded u.neg := by
  cases h with
  | zero => exact .zero _
  | finite _ hM hE => exact .finite _ hM hE

theorem IsBounded.abs (h : IsBounded u) : IsBounded u.abs := by
  cases h with
  | zero => exact .zero _
  | finite _ hM hE => exact .finite _ hM hE

theorem isFinite_neg (x : Float) : isFinite (-x) = isFinite x := by
  cases h : isFinite x with
  | true => exact isFinite_pack (isBounded_unpack h).neg
  | false => rcases cases_of_not_finite h with rfl | rfl | rfl <;> decide

theorem isFinite_abs (x : Float) : isFinite x.abs = isFinite x := by
  cases h : isFinite x with
  | true => exact isFinite_pack (isBounded_unpack h).abs
  | false => rcases cases_of_not_finite h with rfl | rfl | rfl <;> decide

theorem mantissa_shiftRight (em : ExtendedMantissa) (n : Nat) : (em >>> n).mantissa = em.mantissa / 2 ^ n := by
  induction n with
  | zero => exact (Nat.div_one _).symm
  | succ n ih =>
      have hstep : (em >>> (n + 1)).mantissa = (em >>> n).mantissa / 2 := rfl
      rw [hstep, ih, Nat.div_div_eq_div_mul, pow_succ]

theorem roundedMantissa_le (em : ExtendedMantissa) : em.roundedMantissa ≤ em.mantissa + 1 := by
  unfold ExtendedMantissa.roundedMantissa Accuracy.roundToNearestEven
  split <;> omega

theorem mantissa_ofMantissaAndAccuracy (m : Nat) (acc : Accuracy) :
    (ExtendedMantissa.ofMantissaAndAccuracy m acc).mantissa = m := by
  rcases acc with _ | _ | _ | _ <;> rfl

theorem shiftToTargetExponent_bounds (m : Nat) (e : Int) (acc : Accuracy) :
    (shiftToTargetExponent binary64 m e acc).1.mantissa < 2 ^ 53 ∧
      (shiftToTargetExponent binary64 m e acc).2 = max e (max (m.log2 + e - 52) (-1074)) := by
  simp only [shiftToTargetExponent, shiftToExponent, targetExponent_eq, totalExponent, mantissa_shiftRight,
    mantissa_ofMantissaAndAccuracy]
  generalize hamount : (max ((m.log2 : Int) + 1 + e - 53) (-1074) - e).toNat = n
  refine ⟨Nat.div_lt_of_lt_mul ?_, by omega⟩
  rw [← pow_add]
  exact Nat.lt_log2_self.trans_le (Nat.pow_le_pow_right (by decide) (by omega))

theorem isBounded_roundWithAccuracy (he : e ≤ 970) (hm : m.log2 + e ≤ 1022) (sign : Sign) (acc : Accuracy) :
    IsBounded (roundWithAccuracy binary64 sign m e acc) := by
  obtain ⟨hmantissa, hexponent⟩ := shiftToTargetExponent_bounds m e acc
  rcases hfirst : shiftToTargetExponent binary64 m e acc with ⟨em, f⟩
  simp only [hfirst] at hmantissa hexponent
  obtain ⟨-, hexponent'⟩ := shiftToTargetExponent_bounds em.roundedMantissa f .exact
  rcases hsecond : shiftToTargetExponent binary64 em.roundedMantissa f .exact with ⟨final, E⟩
  simp only [hsecond] at hexponent'
  have hlog : em.roundedMantissa.log2 < 54 := by
    rcases Nat.eq_zero_or_pos em.roundedMantissa with hzero | hpos
    · rw [hzero]
      decide
    · have hrounded := roundedMantissa_le em
      exact (Nat.log2_lt (Nat.ne_of_gt hpos)).mpr (by omega)
  simp only [roundWithAccuracy, hfirst, hsecond]
  split
  · exact .zero _
  · exact .finite _ _ (by omega)

theorem isBounded_sqrt (hc : IsCanonical M E) (hM : 0 < M) :
    IsBounded (UnpackedFloat.sqrt binary64 (.finite .positive M E hM)) := by
  show IsBounded (roundWithAccuracy binary64 .positive (sqrtCore binary64 M E).1 (sqrtCore binary64 M E).2.1
    (sqrtCore binary64 M E).2.2)
  have hhigh := hc.high
  simp only [sqrtCore]
  generalize htarget : min (E.ediv 2) (binary64.targetExponent ((totalExponent M E + 1).ediv 2)) = t
  have ht : t ≤ E / 2 := htarget ▸ min_le_left _ _
  generalize hamount : (E - 2 * t).toNat = n
  have hlog : M.log2 < 53 := (Nat.log2_lt (Nat.ne_of_gt hM)).mpr hc.mantissa_lt
  refine isBounded_roundWithAccuracy (by omega) ?_ _ _
  generalize hroot : (M <<< n).sqrt = root
  rcases Nat.eq_zero_or_pos root with rfl | hpos
  · have hzero : Nat.log2 0 = 0 := rfl
    omega
  · have hsquare : 2 ^ (2 * root.log2) < 2 ^ (M.log2 + 1 + n) := by
      calc 2 ^ (2 * root.log2) = 2 ^ root.log2 * 2 ^ root.log2 := by rw [← pow_add, two_mul]
        _ ≤ root * root := Nat.mul_self_le_mul_self (Nat.log2_self_le (Nat.ne_of_gt hpos))
        _ ≤ M <<< n := hroot ▸ Nat.sqrt_le _
        _ < 2 ^ (M.log2 + 1 + n) := by
          rw [Nat.shiftLeft_eq, pow_add]
          exact Nat.mul_lt_mul_of_pos_right Nat.lt_log2_self (Nat.two_pow_pos n)
    have := (Nat.pow_lt_pow_iff_right (by decide)).mp hsquare
    omega

theorem isFinite_sqrt (hx : below x 0 = false) : isFinite x.sqrt = isFinite x := by
  cases h : isFinite x with
  | true =>
      by_cases hzero : isZero x
      · obtain ⟨negative, rfl⟩ := eq_zero hzero
        cases negative <;> decide
      · have hsign : signBit x = false := by
          have hnan : isNaN x = false := by
            simp only [isFinite, isNaN, decide_eq_true_eq, decide_eq_false_iff_not] at h ⊢
            omega
          cases hsign : signBit x with
          | false => rfl
          | true =>
              have horigin : position? 0 = some 0 := by decide
              have hplace : position? x = some (-(magnitude x : Int)) := by simp [position?, hnan, hsign]
              have hless : compare (-(magnitude x : Int)) 0 = .lt := by
                simp only [isZero, beq_iff_eq] at hzero
                exact Int.compare_eq_lt.mpr (by omega)
              simp [below, compare?, hplace, horigin, hless] at hx
        obtain ⟨M, E, hshape⟩ := exists_shape hsign h
        have hM : 0 < M := by
          refine Nat.pos_of_ne_zero fun hM => hzero ?_
          rw [eq_zero_of_shape hsign (hM ▸ hshape)]
          decide
        refine isFinite_pack (u := UnpackedFloat.sqrt binary64 x.toModel.unpack) ?_
        rw [unpack_of_shape hshape hM]
        exact isBounded_sqrt (isCanonical_of_shape hshape) hM
  | false =>
      rcases cases_of_not_finite h with rfl | rfl | rfl
      · decide
      · exact absurd hx (by decide)
      · decide

theorem isBounded_product {a b : Nat} {f : Int} (ha : 0 < a) (hb : 0 < b) (he : e + f ≤ 970)
    (hlog : (a * b).log2 + (e + f) ≤ 1022) :
    IsBounded (UnpackedFloat.mul binary64 (.finite .positive a e ha) (.finite .positive b f hb)) :=
  isBounded_roundWithAccuracy he hlog _ _

theorem isFinite_ofNat {k : Nat} (h : k < 2 ^ 64) : isFinite (ofNat k) = true := by
  rcases Nat.eq_zero_or_pos k with rfl | hk
  · decide
  have hlog : k.log2 < 64 := (Nat.log2_lt (Nat.ne_of_gt hk)).mpr h
  rw [ofNat, Float.ofScientific]
  split
  · next hsmall =>
      have hshape := shape_powerOfTen 0 (by decide)
      have hpower : 0 < 5 ^ 0 * 2 ^ (52 - (5 ^ 0).log2) := by decide
      have hwhole : 0 < k * 2 ^ (52 - k.log2) := Nat.mul_pos hk (Nat.two_pow_pos _)
      have hone : ((5 ^ 0).log2 : Int) = 0 := by decide
      have hproduct : k * 2 ^ (52 - k.log2) * (5 ^ 0 * 2 ^ (52 - (5 ^ 0).log2)) < 2 ^ 53 * 2 ^ 52 :=
        Nat.mul_lt_mul_of_lt_of_le (isCanonical_whole hk hsmall.1).mantissa_lt (by decide) (by decide)
      have hdigits := (Nat.log2_lt (Nat.ne_of_gt (Nat.mul_pos hwhole hpower))).mpr (hproduct.trans_eq (pow_add ..).symm)
      rw [if_neg (by decide), product_of_unpack (unpack_whole hk hsmall.1 hwhole) (unpack_of_shape hshape hpower)]
      exact isFinite_pack (isBounded_product hwhole hpower (by omega) (by omega))
  · have hshifted : 0 < k <<< 53 := Nat.shiftLeft_pos_iff.mpr hk
    have hpower : 0 < 10 ^ 0 := by decide
    have hdigits : (k <<< 53 * 10 ^ 0).log2 < 64 + 53 := by
      refine (Nat.log2_lt (Nat.ne_of_gt (Nat.mul_pos hshifted hpower))).mpr ?_
      rw [pow_zero, mul_one, Nat.shiftLeft_eq, pow_add]
      exact Nat.mul_lt_mul_of_pos_right h (Nat.two_pow_pos 53)
    have hbounded := isBounded_product (e := -53) (f := 0) hshifted hpower (by decide) (by omega)
    rw [← unpacked_product hk (by decide) hshifted hpower] at hbounded
    exact isFinite_pack hbounded

end LiveSheet.Number
