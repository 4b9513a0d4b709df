import LiveSheet.Cell.Cell
import LiveSheet.Text.Case
import Mathlib

namespace LiveSheet

-- powers of whole numbers are the core's, whatever else is in scope
attribute [local instance (high)] instPowNat

theorem toNat_lt_of_isAlphanum {c : Char} (h : c.isAlphanum = true) : c.toNat < 128 := by
  simp only [Char.isAlphanum, Char.isAlpha, Char.isUpper, Char.isLower, Char.isDigit, Bool.or_eq_true, Bool.and_eq_true,
    decide_eq_true_eq, ge_iff_le, UInt32.le_iff_toNat_le] at h
  simp at h
  omega

theorem forall_isAlphanum {p : Char → Prop} (h : ∀ n < 128, (Char.ofNat n).isAlphanum = true → p (Char.ofNat n))
    {c : Char} (hc : c.isAlphanum = true) : p c := by
  have := h c.toNat (toNat_lt_of_isAlphanum hc)
  rw [Char.ofNat_toNat] at this
  exact this hc

theorem letterNumber_letter : ∀ n < 26, letterNumber (letter n) = n + 1 := by decide

theorem isAlpha_letter : ∀ n < 26, (letter n).isAlpha = true := by decide

section

variable {c : Char}

theorem forall_isAlpha {p : Char → Prop} (h : ∀ n < 128, (Char.ofNat n).isAlpha = true → p (Char.ofNat n))
    (hc : c.isAlpha = true) : p c :=
  forall_isAlphanum (p := fun c => c.isAlpha = true → p c) (fun n hn _ => h n hn) (by simp [Char.isAlphanum, hc]) hc

theorem letterNumber_le (h : c.isAlpha = true) : letterNumber c ≤ 26 :=
  forall_isAlpha (p := fun c => letterNumber c ≤ 26) (by decide) h

theorem letterNumber_pos (h : c.isAlpha = true) : 0 < letterNumber c :=
  forall_isAlpha (p := fun c => 0 < letterNumber c) (by decide) h

theorem letter_letterNumber (h : c.isAlpha = true) : letter (letterNumber c - 1) = c.toUpper :=
  forall_isAlpha (p := fun c => letter (letterNumber c - 1) = c.toUpper) (by decide) h

theorem letterNumber_toUpper (h : c.isAlpha = true) : letterNumber c.toUpper = letterNumber c :=
  forall_isAlpha (p := fun c => letterNumber c.toUpper = letterNumber c) (by decide) h

end

theorem lettersOfNumber_zero : lettersOfNumber 0 = [] := by
  rw [lettersOfNumber, if_pos rfl]

theorem lettersOfNumber_pos {n : Nat} (h : 0 < n) :
    lettersOfNumber n = lettersOfNumber ((n - 1) / 26) ++ [letter ((n - 1) % 26)] := by
  rw [lettersOfNumber, if_neg (Nat.ne_of_gt h)]

theorem lettersOfNumber_ne_nil {n : Nat} (h : 0 < n) : lettersOfNumber n ≠ [] := by
  rw [lettersOfNumber_pos h]
  simp

theorem isAlpha_of_mem_lettersOfNumber {n : Nat} {c : Char} (hc : c ∈ lettersOfNumber n) : c.isAlpha = true := by
  induction n using Nat.strongRecOn with
  | ind n ih =>
      by_cases hn : n = 0
      · rw [hn, lettersOfNumber_zero] at hc
        cases hc
      · rw [lettersOfNumber_pos (Nat.pos_of_ne_zero hn), List.mem_append, List.mem_singleton] at hc
        rcases hc with hc | rfl
        · exact ih _ (by omega) hc
        · exact isAlpha_letter _ (Nat.mod_lt _ (by decide))

theorem numberOfLetters?_append (n : Nat) (xs ys : List Char) :
    numberOfLetters? n (xs ++ ys) = (numberOfLetters? n xs).bind fun m => numberOfLetters? m ys := by
  induction xs generalizing n with
  | nil => rfl
  | cons x xs ih =>
      simp only [List.cons_append, numberOfLetters?]
      split
      · exact ih _
      · rfl

theorem numberOfLetters?_lettersOfNumber (n : Nat) :
    numberOfLetters? 0 (lettersOfNumber n) = if n < columnLimit then some n else none := by
  induction n using Nat.strongRecOn with
  | ind n ih =>
      by_cases hn : n = 0
      · rw [hn, lettersOfNumber_zero]
        rfl
      · have hlast := letterNumber_letter ((n - 1) % 26) (Nat.mod_lt _ (by decide))
        have hvalue : (n - 1) / 26 * 26 + ((n - 1) % 26 + 1) = n := by omega
        rw [lettersOfNumber_pos (Nat.pos_of_ne_zero hn), numberOfLetters?_append, ih _ (by omega)]
        by_cases hfront : (n - 1) / 26 < columnLimit
        · rw [if_pos hfront]
          simp only [Option.bind, numberOfLetters?, hlast, hvalue]
        · -- the letters in front are too many already
          rw [if_neg hfront, if_neg (by omega)]
          rfl

theorem numberOfLetters?_lt {n m : Nat} {cs : List Char} (hn : n < columnLimit) (h : numberOfLetters? n cs = some m) :
    m < columnLimit := by
  induction cs generalizing n with
  | nil =>
      cases h
      exact hn
  | cons c cs ih =>
      rw [numberOfLetters?] at h
      split at h
      next hnext => exact ih hnext h
      next => cases h

theorem lettersOfNumber_of_numberOfLetters? {n m : Nat} {cs : List Char} (hcs : ∀ c ∈ cs, c.isAlpha = true)
    (h : numberOfLetters? n cs = some m) : lettersOfNumber m = lettersOfNumber n ++ cs.map Char.toUpper := by
  induction cs generalizing n with
  | nil =>
      cases h
      simp
  | cons c cs ih =>
      have hc := hcs c List.mem_cons_self
      rw [numberOfLetters?] at h
      split at h
      next =>
        have hpos := letterNumber_pos hc
        have hle := letterNumber_le hc
        -- digits from 1 to 26: the number determines its last letter
        have hfront : (n * 26 + letterNumber c - 1) / 26 = n := by omega
        have hlast : (n * 26 + letterNumber c - 1) % 26 = letterNumber c - 1 := by omega
        rw [ih (fun d hd => hcs d (List.mem_cons_of_mem _ hd)) h, lettersOfNumber_pos (by omega), hfront, hlast,
          letter_letterNumber hc, List.append_assoc]
        rfl
      next => cases h

theorem numberOfLetters?_map_toUpper {cs : List Char} (hcs : ∀ c ∈ cs, c.isAlpha = true) (n : Nat) :
    numberOfLetters? n (cs.map Char.toUpper) = numberOfLetters? n cs := by
  induction cs generalizing n with
  | nil => rfl
  | cons c cs ih =>
      simp only [List.map_cons, numberOfLetters?, letterNumber_toUpper (hcs c List.mem_cons_self),
        ih fun d hd => hcs d (List.mem_cons_of_mem _ hd)]

theorem numberOfLetters?_eq_some_iff {n : Nat} {cs : List Char} (hcs : ∀ c ∈ cs, c.isAlpha = true) :
    numberOfLetters? 0 cs = some n ↔ n < columnLimit ∧ cs.map Char.toUpper = lettersOfNumber n := by
  constructor
  · intro h
    refine ⟨numberOfLetters?_lt (by decide) h, ?_⟩
    rw [lettersOfNumber_of_numberOfLetters? hcs h, lettersOfNumber_zero, List.nil_append]
  · rintro ⟨hlt, h⟩
    rw [← numberOfLetters?_map_toUpper hcs, h, numberOfLetters?_lettersOfNumber, if_pos hlt]

section

variable {cs : List Char}

theorem columnOfLetters?_of_isAlpha (hne : cs ≠ []) (hcs : ∀ c ∈ cs, c.isAlpha = true) :
    columnOfLetters? cs = (numberOfLetters? 0 cs).map (· - 1) := by
  rw [columnOfLetters?, if_neg (by simpa [hne] using hcs)]

theorem pos_of_numberOfLetters? {n : Nat} (hne : cs ≠ []) (hcs : ∀ c ∈ cs, c.isAlpha = true)
    (h : numberOfLetters? 0 cs = some n) : 0 < n := by
  refine Nat.pos_of_ne_zero fun hn => hne ?_
  have hname := (numberOfLetters?_eq_some_iff hcs).mp h
  rw [hn, lettersOfNumber_zero] at hname
  exact List.map_eq_nil_iff.mp hname.2

theorem columnIndex?_columnLetters (column : Nat) :
    columnIndex? (columnLetters column) = if column + 1 < columnLimit then some column else none := by
  rw [columnIndex?, columnLetters, String.toList_ofList,
    columnOfLetters?_of_isAlpha (lettersOfNumber_ne_nil (Nat.succ_pos _)) fun c => isAlpha_of_mem_lettersOfNumber,
    numberOfLetters?_lettersOfNumber]
  split <;> rfl

theorem upperAscii_eq_columnLetters_iff {s : String} {column : Nat} :
    Text.upperAscii s = columnLetters column ↔ s.toList.map Char.toUpper = lettersOfNumber (column + 1) := by
  rw [Text.upperAscii, columnLetters, ← String.toList_inj, String.toList_map, String.toList_ofList]

theorem columnIndex?_eq_some_iff {s : String} {column : Nat} (hne : s ≠ "") (hs : ∀ c ∈ s.toList, c.isAlpha = true) :
    columnIndex? s = some column ↔ column + 1 < columnLimit ∧ Text.upperAscii s = columnLetters column := by
  have hne : s.toList ≠ [] := fun h => hne (String.toList_eq_nil_iff.mp h)
  rw [columnIndex?, columnOfLetters?_of_isAlpha hne hs, upperAscii_eq_columnLetters_iff,
    ← numberOfLetters?_eq_some_iff hs, Option.map_eq_some_iff]
  constructor
  · rintro ⟨n, hn, rfl⟩
    rw [Nat.sub_add_cancel (pos_of_numberOfLetters? hne hs hn)]
    exact hn
  · intro h
    exact ⟨column + 1, h, rfl⟩

end

inductive Overflow where
  | above
  | below
  deriving DecidableEq, Repr

namespace MachineWord

def fit (bits n : Nat) : Except Overflow Nat := if n < 2 ^ bits then .ok n else .error .above

def difference (m n : Nat) : Except Overflow Nat := if n ≤ m then .ok (m - n) else .error .below

def lettersOfNumber : Nat → Except Overflow (List Char)
  | 0 => .ok []
  | n + 1 => do
      let code ← fit 8 (65 + n % 26)
      let front ← lettersOfNumber (n / 26)
      return front ++ [Char.ofNat code]

def columnLetters (column : Nat) : Except Overflow String := do
  let n ← fit 64 (column + 1)
  return String.ofList (← lettersOfNumber n)

def letterNumber (c : Char) : Except Overflow Nat := do
  fit 8 ((← difference c.toUpper.toNat 65) + 1)

def numberOfLetters? (n : Nat) : List Char → Except Overflow (Option Nat)
  | [] => .ok (some n)
  | c :: cs => do
      let shifted ← fit 64 (n * 26)
      let place ← letterNumber c
      let next ← fit 64 (shifted + place)
      if next < columnLimit then numberOfLetters? next cs else return none

def columnIndex? (letters : String) : Except Overflow (Option Nat) := do
  if letters.toList.isEmpty || !letters.toList.all Char.isAlpha then return none
  match ← numberOfLetters? 0 letters.toList with
  | none => return none
  | some n =>
      let column ← difference n 1
      return if column < columnLimit then some column else none

theorem fit_of_lt {bits n : Nat} (h : n < 2 ^ bits) : fit bits n = .ok n := if_pos h

theorem difference_of_le {m n : Nat} (h : n ≤ m) : difference m n = .ok (m - n) := if_pos h

theorem lettersOfNumber_eq (n : Nat) : lettersOfNumber n = .ok (LiveSheet.lettersOfNumber n) := by
  induction n using lettersOfNumber.induct with
  | case1 => rw [lettersOfNumber, lettersOfNumber_zero]
  | case2 n ih =>
      have hlast : n % 26 < 26 := Nat.mod_lt _ (by decide)
      rw [lettersOfNumber, fit_of_lt (by omega), ih, lettersOfNumber_pos (Nat.succ_pos n)]
      rfl

theorem columnLetters_eq {column : Nat} (h : column < columnLimit) :
    columnLetters column = .ok (LiveSheet.columnLetters column) := by
  have hlimit : columnLimit < 2 ^ 64 := by decide
  rw [columnLetters, fit_of_lt (by omega)]
  simp only [bind, Except.bind, lettersOfNumber_eq]
  rfl

theorem letterNumber_eq {c : Char} (h : c.isAlpha = true) : letterNumber c = .ok (LiveSheet.letterNumber c) := by
  have hpos := letterNumber_pos h
  have hle := letterNumber_le h
  simp only [LiveSheet.letterNumber] at hpos hle ⊢
  have hplace : c.toUpper.toNat - 65 + 1 = c.toUpper.toNat - 64 := by omega
  rw [letterNumber, difference_of_le (by omega)]
  simp only [bind, Except.bind, hplace]
  exact fit_of_lt (by omega)

theorem numberOfLetters?_eq {cs : List Char} (hcs : ∀ c ∈ cs, c.isAlpha = true) {n : Nat} (hn : n < columnLimit) :
    numberOfLetters? n cs = .ok (LiveSheet.numberOfLetters? n cs) := by
  induction cs generalizing n with
  | nil => rfl
  | cons c cs ih =>
      have hc := hcs c List.mem_cons_self
      have hlimit : columnLimit = 2 ^ 32 := rfl
      have hle := letterNumber_le hc
      rw [numberOfLetters?, LiveSheet.numberOfLetters?, fit_of_lt (by omega), letterNumber_eq hc]
      have hnext : fit 64 (n * 26 + LiveSheet.letterNumber c) = .ok (n * 26 + LiveSheet.letterNumber c) :=
        fit_of_lt (by omega)
      simp only [bind, Except.bind, hnext]
      split
      next hnext => exact ih (fun d hd => hcs d (List.mem_cons_of_mem _ hd)) hnext
      next => rfl

theorem columnIndex?_eq (s : String) : columnIndex? s = .ok (LiveSheet.columnIndex? s) := by
  rw [columnIndex?, LiveSheet.columnIndex?, columnOfLetters?]
  split
  next => rfl
  next h =>
    obtain ⟨hne, hs⟩ : s.toList ≠ [] ∧ ∀ c ∈ s.toList, c.isAlpha = true := by simpa using h
    simp only [bind, Except.bind, numberOfLetters?_eq hs (show 0 < columnLimit by decide)]
    cases hn : LiveSheet.numberOfLetters? 0 s.toList with
    | none => rfl
    | some n =>
        -- a name is not empty, so that the one-based number is not zero
        have hpos := pos_of_numberOfLetters? hne hs hn
        have hlt := numberOfLetters?_lt (by decide) hn
        simp only [difference_of_le (show 1 ≤ n from hpos)]
        rw [if_pos (by omega)]
        rfl

end MachineWord

/-- Letters and indices of columns are inverse but for the last column of the grid, whose letters are not read back. -/
theorem columns_inverse (column : Nat) (s : String) (hcolumn : column < Cell.gridSide) (hne : s ≠ "")
    (hs : ∀ c ∈ s.toList, c.isAlpha = true) :
    MachineWord.columnLetters column = .ok (columnLetters column) ∧
      (columnIndex? (columnLetters column) = if column + 1 < Cell.gridSide then some column else none) ∧
      (∀ named, columnIndex? s = some named ↔
        named + 1 < Cell.gridSide ∧ Text.upperAscii s = columnLetters named) ∧
      MachineWord.columnIndex? s = .ok (columnIndex? s) := by
  refine ⟨MachineWord.columnLetters_eq hcolumn, columnIndex?_columnLetters column, fun named => ?_,
    MachineWord.columnIndex?_eq s⟩
  exact columnIndex?_eq_some_iff hne hs

theorem columns_inverse_small_letters :
    26 < Cell.gridSide ∧ columnIndex? (columnLetters 26) = some 26 ∧
      "xfd" ≠ "" ∧ (∀ c ∈ "xfd".toList, c.isAlpha = true) ∧ Text.upperAscii "xfd" = columnLetters 16383 ∧
      MachineWord.columnIndex? "xfd" = .ok (some 16383) := by
  have hs : ∀ c ∈ "xfd".toList, c.isAlpha = true := List.all_eq_true.mp (by decide)
  have hback : columnIndex? "xfd" = some 16383 := by decide
  obtain ⟨-, hletters, hname, hword⟩ := columns_inverse 26 "xfd" (by decide) (by decide) hs
  exact ⟨by decide, hletters, by decide, hs, ((hname 16383).mp hback).2, hback ▸ hword⟩

theorem last_column_not_read_back :
    ¬ ∀ column < Cell.gridSide, columnIndex? (columnLetters column) = some column := by
  intro h
  have hlast := h 4294967295 (by decide)
  rw [columnIndex?_columnLetters, if_neg (by decide)] at hlast
  cases hlast

end LiveSheet
