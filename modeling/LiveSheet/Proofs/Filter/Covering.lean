import LiveSheet.Filter.Range
import LiveSheet.Proofs.Filter.Bins
import LiveSheet.Proofs.Number.Line

namespace LiveSheet

open Number (atMost below isFinite isNaN worth)

variable {t : Table} {r : FilterRange} {c : Column} {index bins : Nat} {numbers : List Float}

/-- The number a row counts as: that of its cell, or zero for what is missing, an error, no number or a NaN. -/
def ComputedRow.weight (r : ComputedRow) (index : Nat) : Float :=
  match r.cells[index]? with
  | some (.ok (.number n)) => if isNaN n then 0 else n
  | some (.ok (.truth b)) => if b then 1 else 0
  | some (.ok (.text s)) =>
      match numberOfText? s with
      | some n => if isNaN n then 0 else n
      | none => 0
  | _ => 0

namespace Table

def weights (t : Table) (index : Nat) : List Float := t.rows.map (·.weight index)

theorem weight_cell (r : ComputedRow) (index : Nat) :
    weight ((r.cells[index]?).bind Except.toOption) = r.weight index := by
  have hnone : isNaN Number.notANumber = true := by decide
  have htruth (b : Bool) : isNaN (if b then 1 else 0) = false := by cases b <;> decide
  unfold ComputedRow.weight
  rcases r.cells[index]? with _ | _ | v
  · rfl
  · rfl
  cases v with
  | blank => simp [weight, Except.toOption, Value.measured, hnone]
  | number n => rfl
  | truth b => exact if_neg (Bool.eq_false_iff.mp (htruth b))
  | text s => cases hs : numberOfText? s <;> simp [weight, Except.toOption, Value.measured, hs, hnone]

theorem map_weight_column (t : Table) (index : Nat) : (t.column index).map weight = t.weights index := by
  rw [column, List.map_map]
  exact List.map_congr_left fun r _ => weight_cell r index

theorem isNaN_of_mem_weights {w : Float} (h : w ∈ t.weights index) : isNaN w = false := by
  obtain ⟨r, -, rfl⟩ := List.mem_map.mp h
  rw [← weight_cell]
  have hzero : isNaN 0 = false := by decide
  unfold weight
  split
  · exact hzero
  split
  · exact hzero
  · next h => exact Bool.eq_false_iff.mpr h

theorem weights_eq_nil_iff : t.weights index = [] ↔ t.rows = [] := List.map_eq_nil_iff

end Table

structure FilterRange.Covers (r : FilterRange) (numbers : List Float) (bins : Nat) : Prop where
  least : r.least ∈ numbers
  greatest : r.greatest ∈ numbers
  bounds : ∀ w ∈ numbers, atMost r.least w = true ∧ atMost w r.greatest = true
  contains : ∀ w ∈ numbers, r.contains w = true
  length : r.histogram.length = bins
  inside : ∀ w ∈ numbers, binOf r.least r.greatest bins w < bins
  bars : ∀ j < bins, r.histogram[j]? = some
    ((· + share numbers)^[numbers.countP fun w => binOf r.least r.greatest bins w = j] 0)

/-- How the numbers fall in the bars if every step is taken on the rationals that they are worth. -/
structure FilterRange.Exact (r : FilterRange) (numbers : List Float) (bins : Nat) : Prop where
  bounds : bounds? (numbers.map worth) = some (worth r.least, worth r.greatest)
  sum : (LiveSheet.histogram (numbers.map worth) (worth r.least) (worth r.greatest) bins).sum = 1
  ordered : ∀ v ∈ numbers, ∀ w ∈ numbers, atMost v w = true →
    binOf (worth r.least) (worth r.greatest) bins (worth v) ≤ binOf (worth r.least) (worth r.greatest) bins (worth w)
  ends : below r.least r.greatest = true →
    binOf (worth r.least) (worth r.greatest) bins (worth r.least) = 0 ∧
      binOf (worth r.least) (worth r.greatest) bins (worth r.greatest) = bins - 1

theorem wholeUpTo_le (limit : Nat) (x : Float) : Scale.wholeUpTo limit x ≤ limit := by
  show (Number.truncateWithin 0 limit x).toNat ≤ limit
  unfold Number.truncateWithin
  split
  · exact Nat.zero_le _
  · split <;> simp
  · omega

theorem foldl_worth {better : Float → Float → Float} {better' : ℚ → ℚ → ℚ}
    (hcases : ∀ x y, better x y = x ∨ better x y = y)
    (hworth : ∀ x y, isFinite x = true → isFinite y = true → worth (better x y) = better' (worth x) (worth y))
    (x : Float) (xs : List Float) (hfinite : ∀ y ∈ x :: xs, isFinite y = true) :
    (xs.map worth).foldl better' (worth x) = worth (xs.foldl better x) := by
  induction xs generalizing x with
  | nil => rfl
  | cons y ys ih =>
      have hx : isFinite x = true := hfinite x List.mem_cons_self
      have hy : isFinite y = true := hfinite y (by simp)
      rw [List.map_cons, List.foldl_cons, List.foldl_cons, ← hworth x y hx hy]
      refine ih (better x y) fun z hz => ?_
      rcases List.mem_cons.mp hz with rfl | hz
      · rcases hcases x y with h | h <;> rw [h] <;> assumption
      · exact hfinite z (by simp [hz])

theorem bounds?_worth (hfinite : ∀ w ∈ numbers, isFinite w = true) :
    bounds? (numbers.map worth) = (bounds? numbers).map fun b => (worth b.1, worth b.2) := by
  cases numbers with
  | nil => rfl
  | cons v vs =>
      rw [List.map_cons, bounds?_cons, bounds?_cons]
      exact congrArg some (Prod.ext (foldl_worth Number.least_cases (fun _ _ => Number.worth_least) v vs hfinite)
        (foldl_worth Number.greatest_cases (fun _ _ => Number.worth_greatest) v vs hfinite))

theorem FilterRange.covers_of_bounds (hnumbers : ∀ w ∈ numbers, isNaN w = false) (hbins : 0 < bins)
    (hbounds : bounds? numbers = some (r.least, r.greatest)) (hlow : r.low = r.least) (hhigh : r.high = r.greatest)
    (hbars : r.histogram = LiveSheet.histogram numbers r.least r.greatest bins) : r.Covers numbers bins := by
  cases numbers with
  | nil => cases hbounds
  | cons v vs =>
      rw [bounds?_cons, Option.some_inj, Prod.mk.injEq] at hbounds
      obtain ⟨hleast, hgreatest⟩ := hbounds
      have hbetween : ∀ w ∈ v :: vs, atMost r.least w = true ∧ atMost w r.greatest = true := by
        intro w hw
        rw [← hleast, ← hgreatest]
        exact ⟨Number.foldl_least_le v vs hnumbers w hw, Number.le_foldl_greatest v vs hnumbers w hw⟩
      refine ⟨?_, ?_, hbetween, ?_, ?_, ?_, ?_⟩
      · rw [← hleast]
        exact Number.mem_foldl_of_cases Number.least_cases v vs
      · rw [← hgreatest]
        exact Number.mem_foldl_of_cases Number.greatest_cases v vs
      · intro w hw
        rw [FilterRange.contains, hlow, hhigh, (hbetween w hw).1, (hbetween w hw).2]
        rfl
      · rw [hbars]
        exact length_histogram _ _ _ _
      · intro w _
        exact binOf_lt wholeUpTo_le hbins w
      · intro j hj
        rw [hbars]
        exact getElem?_histogram _ _ _ hj

theorem FilterRange.exact_of_bounds (hfinite : ∀ w ∈ numbers, isFinite w = true) (hbins : 0 < bins)
    (hbounds : bounds? numbers = some (r.least, r.greatest)) (hleast : r.least ∈ numbers)
    (hgreatest : r.greatest ∈ numbers) : r.Exact numbers bins := by
  refine ⟨?_, ?_, ?_, ?_⟩
  · rw [bounds?_worth hfinite, hbounds]
    rfl
  · exact sum_histogram (List.map_eq_nil_iff.not.mpr (List.ne_nil_of_mem hleast)) hbins
  · intro v hv w hw h
    exact binOf_mono hbins ((Number.worth_le_worth_iff (hfinite v hv) (hfinite w hw)).mpr h)
  · intro h
    have hless := (Number.worth_lt_worth_iff (hfinite _ hleast) (hfinite _ hgreatest)).mpr h
    exact ⟨binOf_low hbins, binOf_high hbins hless⟩

namespace Table

theorem exists_bounds (hrows : t.rows ≠ []) (index : Nat) : ∃ b, bounds? (t.weights index) = some b := by
  rcases hweights : t.weights index with _ | ⟨v, vs⟩
  · exact absurd (weights_eq_nil_iff.mp hweights) hrows
  · exact ⟨_, rfl⟩

theorem filterRange?_eq (hnumeric : t.isNumeric index c.kind = true) : t.filterRange? bins index c =
    (bounds? (t.weights index)).map fun b =>
      ⟨index, c.name, b.1, b.2, b.1, b.2, LiveSheet.histogram (t.weights index) b.1 b.2 bins⟩ := by
  rw [filterRange?, if_pos hnumeric, map_weight_column]

theorem isNumeric_of_filterRange? (h : t.filterRange? bins index c = some r) : t.isNumeric index c.kind = true := by
  by_contra hnumeric
  rw [filterRange?, if_neg hnumeric] at h
  cases h

theorem isSome_filterRange? : (∃ r, t.filterRange? bins index c = some r) ↔
    t.rows ≠ [] ∧ (c.kind = .formula ∨ ∃ n, t.cell? 0 index = some (.ok (.number n))) := by
  have hnumeric : t.isNumeric index c.kind = true ↔
      c.kind = .formula ∨ ∃ n, t.cell? 0 index = some (.ok (.number n)) := by
    unfold isNumeric
    split <;> simp_all
  rw [← hnumeric]
  constructor
  · rintro ⟨r, h⟩
    have hnumeric := isNumeric_of_filterRange? h
    refine ⟨fun hrows => ?_, hnumeric⟩
    rw [filterRange?_eq hnumeric, weights_eq_nil_iff.mpr hrows] at h
    cases h
  · rintro ⟨hrows, hnumeric⟩
    obtain ⟨b, hb⟩ := exists_bounds hrows index
    rw [filterRange?_eq hnumeric, hb]
    exact ⟨_, rfl⟩

theorem column_of_filterRange? (h : t.filterRange? bins index c = some r) : r.column = index ∧ r.name = c.name := by
  rw [filterRange?_eq (isNumeric_of_filterRange? h), Option.map_eq_some_iff] at h
  obtain ⟨b, -, rfl⟩ := h
  exact ⟨rfl, rfl⟩

theorem mem_filterRanges :
    r ∈ t.filterRanges bins ↔
      ∃ c, t.schema.value.columns[r.column]? = some c ∧ t.filterRange? bins r.column c = some r := by
  simp only [filterRanges, List.mem_filterMap, Prod.exists, List.mem_zipIdx_iff_getElem?]
  constructor
  · rintro ⟨c, index, hc, h⟩
    obtain ⟨rfl, -⟩ := column_of_filterRange? h
    exact ⟨c, hc, h⟩
  · rintro ⟨c, hc, h⟩
    exact ⟨c, r.column, hc, h⟩

theorem pairwise_filterRanges (t : Table) (bins : Nat) :
    (t.filterRanges bins).Pairwise fun r s => r.column < s.column := by
  have hindices : t.schema.value.columns.zipIdx.Pairwise fun a b => a.2 < b.2 := by
    rw [← List.pairwise_map (f := Prod.snd), List.zipIdx_map_snd]
    exact List.pairwise_lt_range'
  refine hindices.filterMap _ fun a b hlt r hr s hs => ?_
  rw [(column_of_filterRange? hr).1, (column_of_filterRange? hs).1]
  exact hlt

/-- In column order there is one range for each column of formulas and each that starts with a number, and none without
rows. It covers the numbers its rows count as; finite ones are spread over the bars as exact arithmetic has it. -/
theorem filterRanges_cover (t : Table) {bins : Nat} (hbins : 0 < bins) :
    ((t.filterRanges bins).Pairwise fun r s => r.column < s.column) ∧
      (t.rows = [] → t.filterRanges bins = []) ∧
      (∀ index, index ∈ (t.filterRanges bins).map (·.column) ↔ t.rows ≠ [] ∧
        ∃ c, t.schema.value.columns[index]? = some c ∧
          (c.kind = .formula ∨ ∃ n, t.cell? 0 index = some (.ok (.number n)))) ∧
      ∀ r ∈ t.filterRanges bins, (t.schema.value.columns[r.column]?).map (·.name) = some r.name ∧
        r.Covers (t.weights r.column) bins ∧
        ((∀ w ∈ t.weights r.column, isFinite w = true) → r.Exact (t.weights r.column) bins) := by
  have hindex (index : Nat) : index ∈ (t.filterRanges bins).map (·.column) ↔ t.rows ≠ [] ∧
      ∃ c, t.schema.value.columns[index]? = some c ∧
        (c.kind = .formula ∨ ∃ n, t.cell? 0 index = some (.ok (.number n))) := by
    rw [List.mem_map]
    constructor
    · rintro ⟨r, hr, rfl⟩
      obtain ⟨c, hc, h⟩ := mem_filterRanges.mp hr
      obtain ⟨hrows, hkind⟩ := isSome_filterRange?.mp ⟨r, h⟩
      exact ⟨hrows, c, hc, hkind⟩
    · rintro ⟨hrows, c, hc, hkind⟩
      obtain ⟨r, h⟩ : ∃ r, t.filterRange? bins index c = some r := isSome_filterRange?.mpr ⟨hrows, hkind⟩
      obtain ⟨rfl, -⟩ := column_of_filterRange? h
      exact ⟨r, mem_filterRanges.mpr ⟨c, hc, h⟩, rfl⟩
  refine ⟨pairwise_filterRanges t bins, ?_, hindex, ?_⟩
  · intro hrows
    refine List.eq_nil_iff_forall_not_mem.mpr fun r hr => ?_
    exact ((hindex r.column).mp (List.mem_map_of_mem hr)).1 hrows
  · intro r hr
    obtain ⟨c, hc, h⟩ := mem_filterRanges.mp hr
    have hname := (column_of_filterRange? h).2
    rw [filterRange?_eq (isNumeric_of_filterRange? h), Option.map_eq_some_iff] at h
    obtain ⟨b, hbounds, heq⟩ := h
    have hbounds' : bounds? (t.weights r.column) = some (r.least, r.greatest) := by
      rw [hbounds, ← heq]
    have hcovers : r.Covers (t.weights r.column) bins :=
      FilterRange.covers_of_bounds (fun _ => isNaN_of_mem_weights) hbins hbounds' (by rw [← heq]) (by rw [← heq])
        (by rw [← heq])
    refine ⟨by rw [hc, hname]; rfl, hcovers, fun hfinite => ?_⟩
    exact FilterRange.exact_of_bounds hfinite hbins hbounds' hcovers.least hcovers.greatest

theorem filterRanges_cover_short_row :
    let columns : List Column := [⟨"x", .native, some 0⟩, ⟨"label", .native, some 1⟩, ⟨"f", .formula, none⟩]
    let full : ComputedRow := ⟨⟨0, 0, [], ∅⟩, [.ok (.number 1), .ok (.text "a"), .error .divisionByZero]⟩
    let short : ComputedRow := ⟨⟨1, 1, [], ∅⟩, [.ok (.number 4)]⟩
    let t : Table := ⟨⟨2, ⟨columns⟩⟩, [full, short], {}, true⟩
    (t.filterRanges 5).map (·.column) = [0, 2] ∧
      ∀ r ∈ t.filterRanges 5, r.Covers (t.weights r.column) 5 ∧ r.Exact (t.weights r.column) 5 := by
  intro columns full short t
  have hcolumns : (t.filterRanges 5).map (·.column) = [0, 2] := by decide +kernel
  have hfinite : ∀ index ∈ [0, 2], ∀ w ∈ t.weights index, isFinite w = true := by decide +kernel
  refine ⟨hcolumns, fun r hr => ?_⟩
  obtain ⟨-, hcovers, hexact⟩ := (filterRanges_cover t (by decide : 0 < 5)).2.2.2 r hr
  exact ⟨hcovers, hexact (hfinite r.column (hcolumns ▸ List.mem_map_of_mem hr))⟩

end Table

end LiveSheet
