import Mathlib.Data.Rat.Floor
import LiveSheet.Filter.Histogram

namespace LiveSheet

section

variable {α : Type} [Scale α] {low high : α} {bins : Nat}

theorem foldl_pair {β γ δ : Type} (f : β → δ → β) (g : γ → δ → γ) (b : β) (c : γ) (xs : List δ) :
    xs.foldl (fun p x => (f p.1 x, g p.2 x)) (b, c) = (xs.foldl f b, xs.foldl g c) := by
  induction xs generalizing b c with
  | nil => rfl
  | cons x xs ih => exact ih (f b x) (g c x)

theorem bounds?_cons (v : α) (vs : List α) :
    bounds? (v :: vs) = some (vs.foldl Scale.least v, vs.foldl Scale.greatest v) := by
  rw [bounds?, foldl_pair]

def share (values : List α) : α := Scale.divide (Scale.ofNat 1) (Scale.ofNat values.length)

def fill (bin : α → Nat) (s : α) (bars : List α) (values : List α) : List α :=
  values.foldl (fun bars v => bars.modify (bin v) fun bar => Scale.add bar s) bars

theorem histogram_eq (values : List α) (low high : α) (bins : Nat) :
    histogram values low high bins =
      fill (binOf low high bins) (share values) (List.replicate bins Scale.zero) values := rfl

theorem length_fill (bin : α → Nat) (s : α) (bars values : List α) : (fill bin s bars values).length = bars.length := by
  induction values generalizing bars with
  | nil => rfl
  | cons v vs ih => exact (ih _).trans (List.length_modify _ _ _)

theorem getElem?_fill (bin : α → Nat) (s : α) (bars values : List α) (j : Nat) :
    (fill bin s bars values)[j]? =
      (bars[j]?).map (fun bar => Scale.add bar s)^[values.countP fun v => bin v = j] := by
  induction values generalizing bars with
  | nil => simp [fill]
  | cons v vs ih =>
      show (fill bin s _ vs)[j]? = _
      rw [ih, List.getElem?_modify, List.countP_cons]
      by_cases h : bin v = j
      · cases bars[j]? <;> simp [h]
      · cases bars[j]? <;> simp [h]

theorem length_histogram (values : List α) (low high : α) (bins : Nat) :
    (histogram values low high bins).length = bins := by
  rw [histogram_eq, length_fill, List.length_replicate]

theorem getElem?_histogram (values : List α) (low high : α) {j : Nat} (hj : j < bins) :
    (histogram values low high bins)[j]? = some
      ((fun bar => Scale.add bar (share values))^[values.countP fun v => binOf low high bins v = j] Scale.zero) := by
  rw [histogram_eq, getElem?_fill, List.getElem?_replicate_of_lt hj]
  rfl

theorem binOf_lt (hscale : ∀ limit (x : α), Scale.wholeUpTo limit x ≤ limit) (hbins : 0 < bins) (v : α) :
    binOf low high bins v < bins := by
  unfold binOf
  simp only
  split
  · have := hscale (bins - 1) (Scale.divide (Scale.subtract v low)
      (Scale.divide (Scale.subtract high low) (Scale.ofNat bins)))
    omega
  · exact hbins

end

instance : Scale ℚ where
  zero := 0
  add := (· + ·)
  subtract := (· - ·)
  divide := (· / ·)
  ofNat := Nat.cast
  least := min
  greatest := max
  isWidth w := decide (0 < w)
  wholeUpTo limit x := min limit ⌊x⌋₊

section

variable {low high v w : ℚ} {bins : Nat}

theorem width_pos_iff (hbins : 0 < bins) : 0 < (high - low) / bins ↔ low < high := by
  have hcast : (0 : ℚ) < bins := by exact_mod_cast hbins
  rw [div_pos_iff_of_pos_right hcast, sub_pos]

theorem binOf_of_lt (hbins : 0 < bins) (h : low < high) (v : ℚ) :
    binOf low high bins v = min (bins - 1) ⌊(v - low) / ((high - low) / bins)⌋₊ :=
  if_pos (decide_eq_true ((width_pos_iff hbins).mpr h))

theorem binOf_of_not_lt (hbins : 0 < bins) (h : ¬low < high) (v : ℚ) : binOf low high bins v = 0 :=
  if_neg fun hwidth => h ((width_pos_iff hbins).mp (of_decide_eq_true hwidth))

theorem binOf_mono (hbins : 0 < bins) (h : v ≤ w) : binOf low high bins v ≤ binOf low high bins w := by
  by_cases hlow : low < high
  · rw [binOf_of_lt hbins hlow, binOf_of_lt hbins hlow]
    have hwidth := ((width_pos_iff hbins).mpr hlow).le
    exact min_le_min_left _ (Nat.floor_mono (div_le_div_of_nonneg_right (sub_le_sub_right h low) hwidth))
  · rw [binOf_of_not_lt hbins hlow, binOf_of_not_lt hbins hlow]

theorem binOf_low (hbins : 0 < bins) : binOf low high bins low = 0 := by
  by_cases hlow : low < high
  · rw [binOf_of_lt hbins hlow, sub_self, zero_div, Nat.floor_zero, Nat.min_zero]
  · exact binOf_of_not_lt hbins hlow low

theorem binOf_high (hbins : 0 < bins) (h : low < high) : binOf low high bins high = bins - 1 := by
  have hwidth := (width_pos_iff hbins).mpr h
  have hcount : (high - low) / ((high - low) / bins) = bins := by
    have hapart : high - low ≠ 0 := (sub_pos.mpr h).ne'
    have hcast : (bins : ℚ) ≠ 0 := by exact_mod_cast hbins.ne'
    field_simp
  rw [binOf_of_lt hbins h, hcount, Nat.floor_natCast]
  omega

theorem sum_modify_add {i : Nat} {bars : List ℚ} (hi : i < bars.length) (s : ℚ) :
    (bars.modify i fun bar => Scale.add bar s).sum = bars.sum + s := by
  induction bars generalizing i with
  | nil => cases hi
  | cons bar bars ih =>
      cases i with
      | zero =>
          show bar + s + bars.sum = bar + bars.sum + s
          ring
      | succ i =>
          show bar + (bars.modify i _).sum = bar + bars.sum + s
          rw [ih (Nat.lt_of_succ_lt_succ hi)]
          ring

theorem sum_fill {bin : ℚ → Nat} {s : ℚ} {bars values : List ℚ} (hbin : ∀ v ∈ values, bin v < bars.length) :
    (fill bin s bars values).sum = bars.sum + values.length * s := by
  induction values generalizing bars with
  | nil => simp [fill]
  | cons v vs ih =>
      have hv : bin v < bars.length := hbin v List.mem_cons_self
      have hvs : ∀ w ∈ vs, bin w < (bars.modify (bin v) fun bar => Scale.add bar s).length := by
        intro w hw
        rw [List.length_modify]
        exact hbin w (List.mem_cons_of_mem v hw)
      show (fill bin s (bars.modify (bin v) fun bar => Scale.add bar s) vs).sum = _
      rw [ih hvs, sum_modify_add hv, List.length_cons]
      push_cast
      ring

theorem sum_histogram {values : List ℚ} (hvalues : values ≠ []) (hbins : 0 < bins) :
    (histogram values low high bins).sum = 1 := by
  have hbin : ∀ v ∈ values, binOf low high bins v < (List.replicate bins (0 : ℚ)).length := by
    intro v _
    rw [List.length_replicate]
    exact binOf_lt (fun _ _ => min_le_left _ _) hbins v
  have hlength : (values.length : ℚ) ≠ 0 := by exact_mod_cast (List.length_pos_iff.mpr hvalues).ne'
  calc (histogram values low high bins).sum
      = (List.replicate bins (0 : ℚ)).sum + values.length * ((1 : ℕ) / values.length) := sum_fill hbin
    _ = 1 := by rw [List.sum_replicate, nsmul_zero, zero_add, Nat.cast_one, mul_one_div_cancel hlength]

end

end LiveSheet
