import LiveSheet.Cell.Value
import LiveSheet.Proofs.Number.Scientific
import LiveSheet.Proofs.Number.Shortest

namespace LiveSheet.Number

variable {cs ds whole fraction : List Char} {m M : Nat} {e E : Int} {x : Float}

theorem digitRun_append {rest : List Char} (hds : ∀ c ∈ ds, c.isDigit = true)
    (hrest : ∀ c ∈ rest.head?, c.isDigit = false) :
    digitRun (ds ++ rest) = (ds, rest) := by
  have hnone : rest.takeWhile Char.isDigit = [] ∧ rest.dropWhile Char.isDigit = rest := by
    cases rest with
    | nil => exact ⟨rfl, rfl⟩
    | cons c cs => simp [hrest c rfl]
  rw [digitRun, List.span_eq_takeWhile_dropWhile, List.takeWhile_append_of_pos hds, List.dropWhile_append_of_pos hds,
    hnone.1, hnone.2, List.append_nil]

theorem digitRun_self (hds : ∀ c ∈ ds, c.isDigit = true) : digitRun ds = (ds, []) := by
  have hnil : ∀ c ∈ ([] : List Char).head?, c.isDigit = false := by simp
  simpa using digitRun_append hds hnil

theorem valueOf_toDigits (n : Nat) : valueOf (Nat.toDigits 10 n) = n := Nat.ofDigitChars_ten_toDigits

theorem valueOf_append_zeros (ds : List Char) (k : Nat) :
    valueOf (ds ++ List.replicate k '0') = valueOf ds * 10 ^ k := by
  induction k with
  | zero => simp
  | succ k ih =>
      have hzero : digitValue '0' = 0 := rfl
      rw [valueOf] at ih
      rw [List.replicate_succ', ← List.append_assoc, valueOf, List.foldl_append, ih, List.foldl_cons, List.foldl_nil,
        hzero]
      ring

theorem valueOf_zeros_append (k : Nat) (ds : List Char) : valueOf (List.replicate k '0' ++ ds) = valueOf ds := by
  have hzeros : valueOf ([] ++ List.replicate k '0') = 0 := by
    rw [valueOf_append_zeros, valueOf, List.foldl_nil, zero_mul]
  rw [List.nil_append, valueOf] at hzeros
  rw [valueOf, List.foldl_append, hzeros, valueOf]

theorem isDigit_toDigits (n : Nat) : ∀ c ∈ Nat.toDigits 10 n, c.isDigit = true :=
  fun _ hc => Nat.isDigit_of_mem_toDigits (by decide) (by decide) hc

theorem isDigit_replicate (k : Nat) : ∀ c ∈ List.replicate k '0', c.isDigit = true := by
  intro c hc
  rw [List.eq_of_mem_replicate hc]
  rfl

structure IsDecimal (cs : List Char) (m : Nat) (e : Int) : Prop where
  ne_nil : cs ≠ []
  chars : ∀ c ∈ cs, c.isDigit = true ∨ c = '.'
  reads : numeral? cs = some (ofDecimal m e)

theorem isDecimal_whole (hds : ∀ c ∈ ds, c.isDigit = true) (hne : ds ≠ []) : IsDecimal ds (valueOf ds) 0 := by
  refine ⟨hne, fun c hc => .inl (hds c hc), ?_⟩
  simp [numeral?, digitRun_self hds, hne]

theorem isDecimal_pointed (hwhole : ∀ c ∈ whole, c.isDigit = true) (hne : whole ≠ [])
    (hfraction : ∀ c ∈ fraction, c.isDigit = true) :
    IsDecimal (whole ++ '.' :: fraction) (valueOf (whole ++ fraction)) (-fraction.length) := by
  refine ⟨by simp, fun c hc => ?_, ?_⟩
  · rcases List.mem_append.mp hc with hc | hc
    · exact .inl (hwhole c hc)
    · rcases List.mem_cons.mp hc with rfl | hc
      · exact .inr rfl
      · exact .inl (hfraction c hc)
  · have hrun : digitRun (whole ++ '.' :: fraction) = (whole, '.' :: fraction) := digitRun_append hwhole (by simp)
    simp [numeral?, hrun, digitRun_self hfraction, hne]

variable {d : Decimal}

theorem toList_digitText : d.digitText.toList = Nat.toDigits 10 d.digits := Nat.toList_repr

theorem toList_zeros (k : Nat) : (Decimal.zeros k).toList = List.replicate k '0' := String.toList_ofList

theorem decade_eq : d.decade = (Nat.toDigits 10 d.digits).length + d.exponent := by
  rw [Decimal.decade, ← toList_digitText, String.length_toList]

theorem isDecimal_positional (d : Decimal) :
    ∃ m e, IsDecimal (d.positional plain).toList m e ∧ (m : ℚ) * 10 ^ e = d.value := by
  have hdigits := isDigit_toDigits d.digits
  have hne : Nat.toDigits 10 d.digits ≠ [] := Nat.toDigits_ne_nil
  unfold Decimal.positional
  simp only [decade_eq, plain]
  split
  · next hexponent =>
      -- the zeros behind the digits stand for the power
      have hwhole : ∀ c ∈ Nat.toDigits 10 d.digits ++ List.replicate d.exponent.toNat '0', c.isDigit = true :=
        List.forall_mem_append.mpr ⟨hdigits, isDigit_replicate _⟩
      have hdecimal := isDecimal_whole hwhole (by simp [hne])
      rw [valueOf_append_zeros, valueOf_toDigits] at hdecimal
      refine ⟨_, _, by simpa [toList_digitText, toList_zeros] using hdecimal, ?_⟩
      obtain ⟨n, hn⟩ := Int.eq_ofNat_of_zero_le hexponent
      simp [Decimal.value, hn]
  split
  · next hexponent hpoint =>
      -- the point stands among the digits
      obtain ⟨n, hn⟩ : ∃ n : Nat, ((Nat.toDigits 10 d.digits).length : Int) + d.exponent = n :=
        ⟨_, (Int.toNat_of_nonneg hpoint.le).symm⟩
      have hwhole : ∀ c ∈ (Nat.toDigits 10 d.digits).take n, c.isDigit = true :=
        fun c hc => hdigits c (List.mem_of_mem_take hc)
      have hfraction : ∀ c ∈ (Nat.toDigits 10 d.digits).drop n, c.isDigit = true :=
        fun c hc => hdigits c (List.mem_of_mem_drop hc)
      have hdecimal := isDecimal_pointed hwhole (by simp [hne]; omega) hfraction
      have hplaces : -((Nat.toDigits 10 d.digits).drop n).length = d.exponent := by
        rw [List.length_drop]
        omega
      rw [List.take_append_drop, valueOf_toDigits, hplaces] at hdecimal
      exact ⟨_, _, by simpa [toList_digitText, hn] using hdecimal, rfl⟩
  · next hexponent hpoint =>
      -- the digits stand behind the point and some zeros
      obtain ⟨n, hn⟩ : ∃ n : Nat, -((Nat.toDigits 10 d.digits).length + d.exponent) = n :=
        ⟨_, (Int.toNat_of_nonneg (by omega)).symm⟩
      have hfraction : ∀ c ∈ List.replicate n '0' ++ Nat.toDigits 10 d.digits, c.isDigit = true :=
        List.forall_mem_append.mpr ⟨isDigit_replicate _, hdigits⟩
      have hwhole : ∀ c ∈ ['0'], c.isDigit = true := by simp
      have hdecimal := isDecimal_pointed hwhole (List.cons_ne_nil _ _) hfraction
      have hplaces : -((List.replicate n '0' ++ Nat.toDigits 10 d.digits).length : Int) = d.exponent := by
        rw [List.length_append, List.length_replicate]
        omega
      have hvalue : valueOf (['0'] ++ (List.replicate n '0' ++ Nat.toDigits 10 d.digits)) = d.digits := by
        rw [← List.append_assoc, ← List.replicate_one, List.replicate_append_replicate, valueOf_zeros_append,
          valueOf_toDigits]
      rw [hvalue, hplaces] at hdecimal
      exact ⟨_, _, by simpa [toList_digitText, toList_zeros, hn] using hdecimal, rfl⟩

theorem isDecimal_natural (n : Nat) : IsDecimal (toString n).toList n 0 := by
  have hdecimal := isDecimal_whole (isDigit_toDigits n) Nat.toDigits_ne_nil
  rw [valueOf_toDigits] at hdecimal
  rwa [Nat.toString_eq_ofList_toDigits, String.toList_ofList]

theorem eq_zero_of_shape (hsign : signBit x = false) (hx : shape x = .finite ⟨false, 0, E⟩) : x = 0 := by
  have hmagnitude : magnitude x = 0 := by
    simp only [shape] at hx
    split at hx
    · split at hx <;> cases hx
    split at hx
    · simp only [Shape.finite.injEq, Scaled.mk.injEq] at hx
      omega
    · simp only [Shape.finite.injEq, Scaled.mk.injEq] at hx
      omega
  have hzero : magnitude 0 = 0 ∧ signBit 0 = false := by decide
  exact eq_of_magnitude (hmagnitude.trans hzero.1.symm) (hsign.trans hzero.2.symm)

theorem isDecimal_numberText (hsign : signBit x = false) (hfinite : isFinite x = true) :
    ∃ m e, IsDecimal (Value.numberText x).toList m e ∧ ofDecimal m e = x := by
  obtain ⟨M, E, hx⟩ := exists_shape hsign hfinite
  have hc := isCanonical_of_shape hx
  simp only [Value.numberText, hx]
  split
  · next h =>
      simp only [Bool.and_eq_true, decide_eq_true_eq] at h
      refine ⟨_, _, isDecimal_natural _, ?_⟩
      rcases Nat.eq_zero_or_pos M with rfl | hM
      · have hzero : (⟨false, 0, E⟩ : Scaled).whole = 0 := by simp [Scaled.whole]
        rw [hzero, eq_zero_of_shape hsign hx]
        rfl
      · have hvalue := Scaled.value_whole h.1
        have hrounds := roundsTo_self M E
        rw [← hvalue] at hrounds
        refine ofDecimal_eq hx hM ?_
        rwa [zpow_zero, mul_one]
  · next h =>
      have hM : 0 < M := by
        refine Nat.pos_of_ne_zero fun hzero => h ?_
        subst hzero
        simp [Scaled.isWhole, Scaled.whole]
      obtain ⟨m, e, hdecimal, hvalue⟩ := isDecimal_positional (⟨false, M, E⟩ : Scaled).shortest
      refine ⟨m, e, ?_, ?_⟩
      · simpa [Number.render, hx, Decimal.render, plain] using hdecimal
      · have hrounds : RoundsTo M E _ := Scaled.roundsTo_shortest (s := ⟨false, M, E⟩) hM hc.low
        rw [← hvalue] at hrounds
        exact ofDecimal_eq hx hM hrounds

end LiveSheet.Number
