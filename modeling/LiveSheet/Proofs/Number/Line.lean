import LiveSheet.Proofs.Number.Packing

namespace LiveSheet.Number

variable {x y z : Float} {p q : Int} {s t : Scaled}

theorem exists_position (h : isNaN x = false) : ∃ p, position? x = some p := by
  unfold position?
  rw [h]
  cases signBit x <;> exact ⟨_, rfl⟩

theorem atMost_iff (hx : position? x = some p) (hy : position? y = some q) : atMost x y = true ↔ p ≤ q := by
  simp [atMost, compare?, hx, hy, Int.isLE_compare]

theorem below_iff (hx : position? x = some p) (hy : position? y = some q) : below x y = true ↔ p < q := by
  simp [below, compare?, hx, hy, Int.compare_eq_lt]

theorem atMost_refl (hx : isNaN x = false) : atMost x x = true := by
  obtain ⟨p, hp⟩ := exists_position hx
  exact (atMost_iff hp hp).mpr (le_refl p)

theorem atMost_trans (hx : isNaN x = false) (hy : isNaN y = false) (hz : isNaN z = false) (hxy : atMost x y = true)
    (hyz : atMost y z = true) : atMost x z = true := by
  obtain ⟨p, hp⟩ := exists_position hx
  obtain ⟨q, hq⟩ := exists_position hy
  obtain ⟨r, hr⟩ := exists_position hz
  exact (atMost_iff hp hr).mpr (le_trans ((atMost_iff hp hq).mp hxy) ((atMost_iff hq hr).mp hyz))

theorem atMost_total (hx : isNaN x = false) (hy : isNaN y = false) (h : ¬atMost x y = true) : atMost y x = true := by
  obtain ⟨p, hp⟩ := exists_position hx
  obtain ⟨q, hq⟩ := exists_position hy
  rw [atMost_iff hp hq] at h
  exact (atMost_iff hq hp).mpr (by omega)

theorem least_cases (x y : Float) : least x y = x ∨ least x y = y := by
  unfold least
  split
  · exact .inr rfl
  · exact .inl rfl

theorem greatest_cases (x y : Float) : greatest x y = x ∨ greatest x y = y := by
  unfold greatest
  split
  · exact .inr rfl
  · exact .inl rfl

theorem least_le (hx : isNaN x = false) (hy : isNaN y = false) :
    atMost (least x y) x = true ∧ atMost (least x y) y = true := by
  unfold least
  rw [hx, Bool.false_or]
  split
  · next h => exact ⟨h, atMost_refl hy⟩
  · next h => exact ⟨atMost_refl hx, atMost_total hy hx h⟩

theorem le_greatest (hx : isNaN x = false) (hy : isNaN y = false) :
    atMost x (greatest x y) = true ∧ atMost y (greatest x y) = true := by
  unfold greatest
  rw [hx, Bool.false_or]
  split
  · next h => exact ⟨h, atMost_refl hy⟩
  · next h => exact ⟨atMost_refl hx, atMost_total hx hy h⟩

theorem mem_foldl_of_cases {better : Float → Float → Float} (hcases : ∀ x y, better x y = x ∨ better x y = y)
    (x : Float) (xs : List Float) : xs.foldl better x ∈ x :: xs := by
  induction xs generalizing x with
  | nil => exact List.mem_cons_self
  | cons y xs ih =>
      rcases List.mem_cons.mp (ih (better x y)) with hhead | htail
      · rw [List.foldl_cons, hhead]
        rcases hcases x y with h | h <;> rw [h] <;> simp
      · exact List.mem_cons_of_mem _ (List.mem_cons_of_mem _ htail)

theorem better_foldl {better : Float → Float → Float} {R : Float → Float → Prop}
    (hcases : ∀ x y, better x y = x ∨ better x y = y)
    (hbetter : ∀ x y, isNaN x = false → isNaN y = false → R (better x y) x ∧ R (better x y) y)
    (hrefl : ∀ x, isNaN x = false → R x x)
    (htrans : ∀ x y z, isNaN x = false → isNaN y = false → isNaN z = false → R x y → R y z → R x z)
    (x : Float) (xs : List Float) (hnumbers : ∀ y ∈ x :: xs, isNaN y = false) :
    ∀ y ∈ x :: xs, R (xs.foldl better x) y := by
  induction xs generalizing x with
  | nil =>
      intro y hy
      obtain rfl := List.mem_singleton.mp hy
      exact hrefl y (hnumbers y hy)
  | cons y xs ih =>
      have hx : isNaN x = false := hnumbers x List.mem_cons_self
      have hy : isNaN y = false := hnumbers y (by simp)
      have hfirst : isNaN (better x y) = false := by
        rcases hcases x y with h | h <;> rw [h] <;> assumption
      have hrest : ∀ z ∈ better x y :: xs, isNaN z = false := by
        intro z hz
        rcases List.mem_cons.mp hz with rfl | hz
        · exact hfirst
        · exact hnumbers z (by simp [hz])
      have hall := ih (better x y) hrest
      have hbest : isNaN (xs.foldl better (better x y)) = false := hrest _ (mem_foldl_of_cases hcases _ xs)
      have hover := hall (better x y) List.mem_cons_self
      intro z hz
      rcases List.mem_cons.mp hz with rfl | hz
      · exact htrans _ _ _ hbest hfirst hx hover (hbetter z y hx hy).1
      rcases List.mem_cons.mp hz with rfl | hz
      · exact htrans _ _ _ hbest hfirst hy hover (hbetter x z hx hy).2
      · exact hall z (List.mem_cons_of_mem _ hz)

theorem foldl_least_le (x : Float) (xs : List Float) (hnumbers : ∀ y ∈ x :: xs, isNaN y = false) :
    ∀ y ∈ x :: xs, atMost (xs.foldl least x) y = true :=
  better_foldl (R := fun x y => atMost x y = true) least_cases (fun _ _ => least_le) (fun _ => atMost_refl)
    (fun _ _ _ => atMost_trans) x xs hnumbers

theorem le_foldl_greatest (x : Float) (xs : List Float) (hnumbers : ∀ y ∈ x :: xs, isNaN y = false) :
    ∀ y ∈ x :: xs, atMost y (xs.foldl greatest x) = true :=
  better_foldl (R := fun x y => atMost y x = true) greatest_cases (fun _ _ => le_greatest) (fun _ => atMost_refl)
    (fun _ _ _ hx hy hz hxy hyz => atMost_trans hz hy hx hyz hxy) x xs hnumbers

theorem isNaN_of_isFinite (h : isFinite x = true) : isNaN x = false := by
  simp only [isFinite, isNaN, decide_eq_true_eq, decide_eq_false_iff_not] at h ⊢
  omega

namespace Scaled

def value (s : Scaled) : ℚ := s.mantissa * 2 ^ s.exponent

theorem value_nonneg (s : Scaled) : 0 ≤ s.value := mul_nonneg (Nat.cast_nonneg _) (zpow_pos two_pos _).le

end Scaled

/-- The rational that a finite number is worth; zero for others. -/
def worth (x : Float) : ℚ :=
  match shape x with
  | .finite s => if s.negative then -s.value else s.value
  | _ => 0

theorem exists_scaled (h : isFinite x = true) : ∃ s, shape x = .finite s ∧ s.negative = signBit x := by
  have hlt : magnitude x < infinityMagnitude := of_decide_eq_true h
  simp only [infinityMagnitude] at hlt
  have hexponent : magnitude x / 2 ^ 52 ≠ 2047 := by omega
  simp only [shape, hexponent, if_false]
  split <;> exact ⟨_, rfl, rfl⟩

theorem value_lt_value (hx : shape x = .finite s) (hy : shape y = .finite t) (h : magnitude x < magnitude y) :
    s.value < t.value := by
  have hs := isCanonical_of_shape hx
  have ht := isCanonical_of_shape hy
  have hordered : s.exponent < t.exponent ∨ s.exponent = t.exponent ∧ s.mantissa < t.mantissa := by
    unfold shape at hx hy
    simp only at hx hy
    split at hx
    · split at hx <;> cases hx
    split at hy
    · split at hy <;> cases hy
    split at hx <;> split at hy <;> cases hx <;> cases hy <;> dsimp only <;> omega
  rcases hordered with hlower | ⟨hsame, hless⟩
  -- one more binary place outweighs any mantissa, since the higher number fills all of its places
  · have hhigh : (s.mantissa : ℚ) < 2 ^ 53 := by exact_mod_cast hs.mantissa_lt
    have hlow : (2 ^ 52 : ℚ) ≤ t.mantissa := by exact_mod_cast ht.normal (lt_of_le_of_lt hs.low hlower)
    have hpower : (2 : ℚ) ^ (s.exponent + 1) ≤ 2 ^ t.exponent := zpow_le_zpow_right₀ one_le_two hlower
    calc s.value < 2 ^ 53 * 2 ^ s.exponent := mul_lt_mul_of_pos_right hhigh (zpow_pos two_pos _)
      _ = 2 ^ 52 * 2 ^ (s.exponent + 1) := by rw [zpow_add_one₀ two_ne_zero]; ring
      _ ≤ t.value := mul_le_mul hlow hpower (zpow_pos two_pos _).le (Nat.cast_nonneg _)
  · unfold Scaled.value
    rw [hsame]
    exact mul_lt_mul_of_pos_right (by exact_mod_cast hless) (zpow_pos two_pos _)

theorem worth_lt_worth (hx : isFinite x = true) (hy : isFinite y = true) (hp : position? x = some p)
    (hq : position? y = some q) (h : p < q) : worth x < worth y := by
  obtain ⟨s, hs, hsign⟩ := exists_scaled hx
  obtain ⟨t, ht, hsign'⟩ := exists_scaled hy
  have hzero : shape 0 = .finite ⟨false, 0, -1074⟩ := by decide
  have hnone : magnitude 0 = 0 := by decide
  have hleast : Scaled.value ⟨false, 0, -1074⟩ = 0 := by simp [Scaled.value]
  simp only [position?, isNaN_of_isFinite hx, isNaN_of_isFinite hy, Bool.false_eq_true, if_false] at hp hq
  simp only [worth, hs, ht, hsign, hsign']
  cases hsx : signBit x <;> cases hsy : signBit y
  all_goals
    simp only [hsx, hsy, Bool.false_eq_true, if_false, if_true] at hp hq ⊢
    cases hp; cases hq
  · exact value_lt_value hs ht (by omega)
  · omega
  · have hs0 := s.value_nonneg
    have ht0 := t.value_nonneg
    by_cases hmagnitude : magnitude x = 0
    · have := value_lt_value hzero ht (by omega)
      linarith
    · have := value_lt_value hzero hs (by omega)
      linarith
  · have := value_lt_value ht hs (by omega)
    linarith

theorem worth_alike (h : Alike x y) : worth x = worth y := by
  rcases h with rfl | ⟨hx, hy⟩
  · rfl
  · obtain ⟨a, rfl⟩ := eq_zero hx
    obtain ⟨b, rfl⟩ := eq_zero hy
    have hworth (negative : Bool) : worth (zero negative) = 0 := by simp [worth, shape_zero, Scaled.value]
    rw [hworth, hworth]

theorem worth_le_worth_iff (hx : isFinite x = true) (hy : isFinite y = true) :
    worth x ≤ worth y ↔ atMost x y = true := by
  obtain ⟨p, hp⟩ := exists_position (isNaN_of_isFinite hx)
  obtain ⟨q, hq⟩ := exists_position (isNaN_of_isFinite hy)
  rw [atMost_iff hp hq]
  constructor
  · intro h
    by_contra hlt
    exact absurd (worth_lt_worth hy hx hq hp (by omega)) (not_lt.mpr h)
  · intro h
    rcases h.lt_or_eq with hlt | rfl
    · exact (worth_lt_worth hx hy hp hq hlt).le
    · have hequal : equal x y = true := by simp [equal, compare?, hp, hq]
      exact (worth_alike (equal_iff.mp hequal).1).le

theorem worth_lt_worth_iff (hx : isFinite x = true) (hy : isFinite y = true) :
    worth x < worth y ↔ below x y = true := by
  obtain ⟨p, hp⟩ := exists_position (isNaN_of_isFinite hx)
  obtain ⟨q, hq⟩ := exists_position (isNaN_of_isFinite hy)
  rw [← not_le, worth_le_worth_iff hy hx, atMost_iff hq hp, below_iff hp hq, not_le]

theorem worth_least (hx : isFinite x = true) (hy : isFinite y = true) :
    worth (least x y) = min (worth x) (worth y) := by
  unfold least
  rw [isNaN_of_isFinite hx, Bool.false_or]
  split
  · next h => exact (min_eq_right ((worth_le_worth_iff hy hx).mpr h)).symm
  · next h => exact (min_eq_left (le_of_not_ge fun hle => h ((worth_le_worth_iff hy hx).mp hle))).symm

theorem worth_greatest (hx : isFinite x = true) (hy : isFinite y = true) :
    worth (greatest x y) = max (worth x) (worth y) := by
  unfold greatest
  rw [isNaN_of_isFinite hx, Bool.false_or]
  split
  · next h => exact (max_eq_right ((worth_le_worth_iff hx hy).mpr h)).symm
  · next h => exact (max_eq_left (le_of_not_ge fun hle => h ((worth_le_worth_iff hx hy).mp hle))).symm

end LiveSheet.Number
