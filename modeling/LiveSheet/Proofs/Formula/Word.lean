import LiveSheet.Formula.Parser
import Mathlib

namespace LiveSheet

section

variable {p : Char → Bool} {xs ys : List Char}

theorem takeWhile_append_of_head? (hxs : ∀ c ∈ xs, p c = true) (hys : ∀ c ∈ ys.head?, p c = false) :
    (xs ++ ys).takeWhile p = xs := by
  rw [List.takeWhile_append_of_pos hxs]
  cases ys with
  | nil => simp
  | cons c ys => simp [hys c rfl]

theorem dropWhile_append_of_head? (hxs : ∀ c ∈ xs, p c = true) (hys : ∀ c ∈ ys.head?, p c = false) :
    (xs ++ ys).dropWhile p = ys := by
  rw [List.dropWhile_append_of_pos hxs]
  cases ys with
  | nil => simp
  | cons c ys => simp [hys c rfl]

end

theorem isAlpha_of_isDigit {c : Char} (h : c.isDigit = true) : c.isAlpha = false := by
  simp only [Char.isDigit, Bool.and_eq_true, decide_eq_true_eq, ge_iff_le, UInt32.le_iff_toNat_le] at h
  simp only [Char.isAlpha, Char.isUpper, Char.isLower, Bool.or_eq_false_iff, Bool.and_eq_false_iff,
    decide_eq_false_iff_not, ge_iff_le, UInt32.le_iff_toNat_le]
  revert h
  simp
  omega

namespace Address

def anchor (fixed : Bool) : List Char := if fixed then ['$'] else []

def takeAnchor : List Char → Bool × List Char
  | '$' :: rest => (true, rest)
  | cs => (false, cs)

theorem anchor_takeAnchor (cs : List Char) : anchor (takeAnchor cs).1 ++ (takeAnchor cs).2 = cs := by
  unfold takeAnchor
  split <;> rfl

theorem takeAnchor_append (fixed : Bool) {rest : List Char} (h : rest.head? ≠ some '$') :
    takeAnchor (anchor fixed ++ rest) = (fixed, rest) := by
  cases fixed with
  | true => rfl
  | false =>
      cases rest with
      | nil => rfl
      | cons c rest =>
          have hc : c ≠ '$' := by simpa using h
          simp [takeAnchor, anchor, hc]

def ofParts? (columnFixed : Bool) (letters : List Char) (rowFixed : Bool) (digits : List Char) : Option Address :=
  if letters.isEmpty || 3 < letters.length || digits.isEmpty || !digits.all Char.isDigit then none
  else if Number.valueOf digits = 0 ∨ Cell.gridSide ≤ Number.valueOf digits then none
  else (columnOfLetters? letters).map fun column =>
    ⟨⟨Number.valueOf digits - 1, column⟩, rowFixed, columnFixed⟩

theorem ofWord?_eq (w : String) : ofWord? w =
    ofParts? (takeAnchor w.toList).1 ((takeAnchor w.toList).2.takeWhile Char.isAlpha)
      (takeAnchor ((takeAnchor w.toList).2.dropWhile Char.isAlpha)).1
      (takeAnchor ((takeAnchor w.toList).2.dropWhile Char.isAlpha)).2 := rfl

structure NamedBy (a : Address) (letters digits : List Char) : Prop where
  letters_ne : letters ≠ []
  length_letters : letters.length ≤ 3
  isAlpha : ∀ c ∈ letters, c.isAlpha = true
  digits_ne : digits ≠ []
  isDigit : ∀ c ∈ digits, c.isDigit = true
  row : Number.valueOf digits = a.cell.row + 1
  row_lt : a.cell.row + 1 < Cell.gridSide
  column : columnOfLetters? letters = some a.cell.column

def spelling (a : Address) (letters digits : List Char) : List Char :=
  anchor a.columnFixed ++ (letters ++ (anchor a.rowFixed ++ digits))

variable {w : String} {a : Address} {letters digits : List Char}

theorem ofWord?_eq_some_iff : ofWord? w = some a ↔
    ∃ letters digits, w.toList = a.spelling letters digits ∧ a.NamedBy letters digits := by
  constructor
  · intro h
    rw [ofWord?_eq] at h
    have hcolumn := anchor_takeAnchor w.toList
    generalize takeAnchor w.toList = p at h hcolumn
    have hrow := anchor_takeAnchor (p.2.dropWhile Char.isAlpha)
    generalize takeAnchor (p.2.dropWhile Char.isAlpha) = q at h hrow
    unfold ofParts? at h
    split at h
    · cases h
    next hshape =>
    split at h
    · cases h
    next hvalue =>
    obtain ⟨column, hletters, rfl⟩ := Option.map_eq_some_iff.mp h
    simp only [Bool.or_eq_true, List.isEmpty_iff, decide_eq_true_eq, Bool.not_eq_true', not_or, Bool.not_eq_false,
      List.all_eq_true] at hshape
    refine ⟨p.2.takeWhile Char.isAlpha, q.2, ?_, ?_⟩
    · rw [spelling, hrow, List.takeWhile_append_dropWhile, hcolumn]
    · obtain ⟨⟨⟨hletters_ne, hlength⟩, hdigits_ne⟩, hdigits⟩ := hshape
      refine ⟨hletters_ne, by omega, fun c => List.mem_takeWhile_imp, hdigits_ne, hdigits, ?_, ?_, hletters⟩
      · show _ = _ - 1 + 1
        omega
      · show _ - 1 + 1 < _
        omega
  · rintro ⟨letters, digits, hw, h⟩
    have hhead : letters.head? ≠ some '$' := fun hc =>
      absurd (h.isAlpha '$' (List.mem_of_mem_head? hc)) (by decide)
    have hdigits : digits.head? ≠ some '$' := fun hc =>
      absurd (h.isDigit '$' (List.mem_of_mem_head? hc)) (by decide)
    have hbehind : ∀ c ∈ (anchor a.rowFixed ++ digits).head?, c.isAlpha = false := by
      intro c hc
      cases hfixed : a.rowFixed with
      | true =>
          rw [hfixed] at hc
          cases hc
          rfl
      | false =>
          rw [hfixed] at hc
          exact isAlpha_of_isDigit (h.isDigit c (List.mem_of_mem_head? hc))
    have hrest : (letters ++ (anchor a.rowFixed ++ digits)).head? ≠ some '$' := by
      rwa [List.head?_append_of_ne_nil _ h.letters_ne]
    rw [ofWord?_eq, hw, spelling, takeAnchor_append _ hrest]
    simp only [takeWhile_append_of_head? h.isAlpha hbehind, dropWhile_append_of_head? h.isAlpha hbehind,
      takeAnchor_append _ hdigits]
    have hlength : ¬3 < letters.length := Nat.not_lt.mpr h.length_letters
    have hrow : ¬Cell.gridSide ≤ a.cell.row + 1 := Nat.not_le.mpr h.row_lt
    simp [ofParts?, h.letters_ne, h.digits_ne, hlength, hrow, List.all_eq_true.mpr h.isDigit, h.row, h.column]

theorem exists_isDigit (h : ofWord? w = some a) : ∃ c ∈ w.toList, c.isDigit = true := by
  obtain ⟨letters, digits, hw, h⟩ := ofWord?_eq_some_iff.mp h
  obtain ⟨c, hc⟩ := List.exists_mem_of_ne_nil digits h.digits_ne
  exact ⟨c, by simp [hw, spelling, hc], h.isDigit c hc⟩

end Address

theorem toUpper_of_isDigit {c : Char} (h : c.isDigit = true) : c.toUpper = c := by
  have hcase := isAlpha_of_isDigit h
  simp only [Char.isAlpha, Char.isLower, Bool.or_eq_false_iff, Bool.and_eq_false_iff, decide_eq_false_iff_not] at hcase
  exact dif_neg fun hc => hcase.2.elim (· hc.1) (· hc.2)

theorem Address.ofWord?_of_upperAscii {w u : String} (h : Text.upperAscii w = u)
    (hu : ∀ c ∈ u.toList, c.isDigit = false) : Address.ofWord? w = none := by
  cases ha : Address.ofWord? w with
  | none => rfl
  | some a =>
      obtain ⟨c, hc, hdigit⟩ := Address.exists_isDigit ha
      have hmem : c ∈ u.toList := by
        rw [← h, Text.upperAscii, String.toList_map]
        exact List.mem_map.mpr ⟨c, hc, toUpper_of_isDigit hdigit⟩
      rw [hu c hmem] at hdigit
      cases hdigit

theorem not_mem_of_upperAscii {w u : String} (h : Text.upperAscii w = u) (hu : '$' ∉ u.toList) : '$' ∉ w.toList := by
  intro hw
  apply hu
  rw [← h, Text.upperAscii, String.toList_map]
  exact List.mem_map.mpr ⟨'$', hw, rfl⟩

end LiveSheet
