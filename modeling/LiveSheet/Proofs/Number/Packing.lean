import LiveSheet.Proofs.Number.Rounding
import LiveSheet.Proofs.Number.Zero

namespace LiveSheet.Number

open Float.Model (UnpackedFloat)
open Float.Model.Format (binary64)
open Float.Model.UnpackedFloat

variable {M : Nat} {E : Int} {x : Float}

theorem toNat_packComponents (sign : Sign) (exponent : BitVec 11) (mantissa : BitVec 52) :
    (packComponents binary64 sign exponent mantissa).toNat =
      sign.toBitVec.toNat * 2 ^ 63 + exponent.toNat * 2 ^ 52 + mantissa.toNat := by
  have hinner : (sign.toBitVec ++ exponent).toNat = sign.toBitVec.toNat * 2 ^ 11 + exponent.toNat := by
    rw [BitVec.toNat_append, ← Nat.shiftLeft_add_eq_or_of_lt exponent.isLt, Nat.shiftLeft_eq]
  have houter : (packComponents binary64 sign exponent mantissa).toNat =
      (sign.toBitVec ++ exponent).toNat * 2 ^ 52 + mantissa.toNat := by
    rw [packComponents, BitVec.toNat_append, ← Nat.shiftLeft_add_eq_or_of_lt mantissa.isLt, Nat.shiftLeft_eq]
  rw [houter, hinner]
  ring

theorem pack_normal (hc : IsCanonical M E) (hM : 0 < M) (h : 2 ^ 52 ≤ M) (sign : Sign) :
    UnpackedFloat.pack binary64 (.finite sign M E hM) =
      packComponents binary64 sign (BitVec.ofNat 11 (E + 1075).toNat) (BitVec.ofNat 52 M) := by
  have hlog : M.log2 = 52 := (Nat.log2_eq_iff (Nat.ne_of_gt hM)).mpr ⟨h, hc.mantissa_lt⟩
  have hlow := hc.low
  have hhigh := hc.high
  have hbiased : (E + binary64.exponentBias + binary64.mantissaBitsWithoutImplicit).toNat = (E + 1075).toNat := by
    congr 1
    simp only [Float.Model.Format.exponentBias]
    omega
  rw [UnpackedFloat.pack, hbiased, if_neg (by simp; omega), if_pos (by rw [hlog]; rfl)]

theorem pack_subnormal (hM : 0 < M) (h : M < 2 ^ 52) (sign : Sign) :
    UnpackedFloat.pack binary64 (.finite sign M (-1074) hM) =
      packComponents binary64 sign 0#11 (BitVec.ofNat 52 M) := by
  have hlog : M.log2 < 52 := (Nat.log2_lt (Nat.ne_of_gt hM)).mpr h
  rw [UnpackedFloat.pack, if_neg (by decide), if_neg]
  simp only [Float.Model.Format.mantissaBits]
  omega

theorem unpackSign_packComponents (sign : Sign) (exponent : BitVec 11) (mantissa : BitVec 52) :
    Sign.ofBitVec (unpackSign (packComponents binary64 sign exponent mantissa)) = sign := by
  have hbit : unpackSign (packComponents binary64 sign exponent mantissa) = sign.toBitVec := by
    apply BitVec.eq_of_toNat_eq
    have hsign := sign.toBitVec.isLt
    have hexponent := exponent.isLt
    have hmantissa := mantissa.isLt
    simp only [unpackSign, BitVec.toNat_cast, BitVec.extractLsb_toNat, toNat_packComponents]
    omega
  rw [hbit]
  cases sign <;> rfl

theorem toNat_implicit (mantissa : BitVec 52) : (1#1 ++ mantissa).toNat = 2 ^ 52 + mantissa.toNat := by
  rw [BitVec.toNat_append, ← Nat.shiftLeft_add_eq_or_of_lt mantissa.isLt]
  rfl

theorem finite_congr {sign : Sign} {M M' : Nat} {E E' : Int} {h : 0 < M} {h' : 0 < M'} (hM : M = M') (hE : E = E') :
    UnpackedFloat.finite sign M E h = .finite sign M' E' h' := by
  subst hM hE
  rfl

theorem unpack_pack (hc : IsCanonical M E) (hM : 0 < M) (sign : Sign) :
    (Float.Model.pack (.finite sign M E hM)).unpack = .finite sign M E hM := by
  have hlow := hc.low
  have hhigh := hc.high
  have hlt := hc.mantissa_lt
  show UnpackedFloat.unpack binary64 (UnpackedFloat.pack binary64 _) = _
  by_cases h : 2 ^ 52 ≤ M
  · have hexponent : (BitVec.ofNat 11 (E + 1075).toNat).toNat = (E + 1075).toNat := by
      rw [BitVec.toNat_ofNat, Nat.mod_eq_of_lt (by omega)]
    have hmantissa : (BitVec.ofNat 52 M).toNat = M - 2 ^ 52 := by
      rw [BitVec.toNat_ofNat]
      omega
    have hones : BitVec.ofNat 11 (E + 1075).toNat ≠ -1#11 := fun heq => by
      have := congrArg BitVec.toNat heq
      rw [hexponent] at this
      simp at this
      omega
    have hzero : BitVec.ofNat 11 (E + 1075).toNat ≠ 0#11 := fun heq => by
      have := congrArg BitVec.toNat heq
      rw [hexponent] at this
      simp at this
      omega
    rw [pack_normal hc hM h, UnpackedFloat.unpack]
    simp only [unpackExponent_packComponents, unpackMantissa_packComponents, unpackSign_packComponents, hones, hzero,
      if_false, hexponent, toNat_implicit, hmantissa]
    refine finite_congr (by omega) ?_
    simp only [Float.Model.Format.exponentBias]
    omega
  · obtain rfl : E = -1074 := by
      by_contra hE
      exact h (hc.normal (by omega))
    have hmantissa : (BitVec.ofNat 52 M).toNat = M := by
      rw [BitVec.toNat_ofNat, Nat.mod_eq_of_lt (by omega)]
    have hnonzero : BitVec.ofNat 52 M ≠ 0#52 := fun heq => by
      have := congrArg BitVec.toNat heq
      rw [hmantissa] at this
      simp at this
      omega
    have hones : (0#11 : BitVec 11) ≠ -1#11 := by decide
    rw [pack_subnormal hM (by omega), UnpackedFloat.unpack]
    simp only [unpackExponent_packComponents, unpackMantissa_packComponents, unpackSign_packComponents, hones, hnonzero,
      if_false, if_true, dite_false, hmantissa]
    rfl

theorem isCanonical_of_shape {s : Scaled} (h : shape x = .finite s) : IsCanonical s.mantissa s.exponent := by
  have hlt : magnitude x < 2 ^ 63 := Nat.mod_lt _ (by decide)
  unfold shape at h
  simp only at h
  split at h
  · split at h <;> cases h
  · split at h
    · cases h
      constructor <;> dsimp only <;> omega
    · cases h
      constructor <;> dsimp only <;> omega

theorem exists_shape (hsign : signBit x = false) (hfinite : isFinite x = true) :
    ∃ M E, shape x = .finite ⟨false, M, E⟩ := by
  have hfinite : magnitude x < infinityMagnitude := of_decide_eq_true hfinite
  simp only [infinityMagnitude] at hfinite
  have hexponent : magnitude x / 2 ^ 52 ≠ 2047 := by omega
  simp only [shape, hexponent, if_false, hsign]
  split <;> exact ⟨_, _, rfl⟩

theorem ofModel_pack (h : shape x = .finite ⟨false, M, E⟩) (hM : 0 < M) :
    Float.ofModel (Float.Model.pack (.finite .positive M E hM)) = x := by
  have hc := isCanonical_of_shape h
  have hlt : magnitude x < 2 ^ 63 := Nat.mod_lt _ (by decide)
  apply eq_of_toBits
  apply UInt64.toNat_inj.mp
  rw [toBits_toNat x]
  show (UnpackedFloat.pack binary64 (.finite .positive M E hM)).toNat = _
  have hpositive : Sign.positive.toBitVec.toNat = 0 := rfl
  unfold shape at h
  simp only at h
  split at h
  · split at h <;> cases h
  · split at h
    · simp only [Shape.finite.injEq, Scaled.mk.injEq] at h
      obtain ⟨hsign, rfl, rfl⟩ := h
      rw [pack_subnormal hM (Nat.mod_lt _ (by decide)), toNat_packComponents, hsign, hpositive, BitVec.toNat_ofNat,
        BitVec.toNat_ofNat]
      simp
      omega
    · simp only [Shape.finite.injEq, Scaled.mk.injEq] at h
      obtain ⟨hsign, rfl, rfl⟩ := h
      rw [pack_normal hc hM (Nat.le_add_right _ _), toNat_packComponents, hsign, hpositive, BitVec.toNat_ofNat,
        BitVec.toNat_ofNat]
      simp
      omega

end LiveSheet.Number
