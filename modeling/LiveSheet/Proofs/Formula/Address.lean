import LiveSheet.Formula.Printer
import LiveSheet.Proofs.Cell.Column
import LiveSheet.Proofs.Formula.Word

namespace LiveSheet

def columnsInReach : Nat := 26 + 26 ^ 2 + 26 ^ 3

theorem length_lettersOfNumber {n : Nat} (h : n ≤ columnsInReach) : (lettersOfNumber n).length ≤ 3 := by
  have step : ∀ {n k : Nat}, (0 < n → (lettersOfNumber ((n - 1) / 26)).length ≤ k) →
      (lettersOfNumber n).length ≤ k + 1 := by
    intro n k hk
    by_cases hn : n = 0
    · rw [hn, lettersOfNumber_zero]
      exact Nat.zero_le _
    · rw [lettersOfNumber_pos (Nat.pos_of_ne_zero hn), List.length_append]
      exact Nat.succ_le_succ (hk (Nat.pos_of_ne_zero hn))
  simp only [columnsInReach] at h
  refine step fun _ => step fun _ => step fun _ => ?_
  have hzero : ((((n - 1) / 26 - 1) / 26) - 1) / 26 = 0 := by omega
  rw [hzero, lettersOfNumber_zero]
  exact Nat.le_refl 0

theorem numberOfLetters?_le {n m : Nat} {cs : List Char} (hcs : ∀ c ∈ cs, c.isAlpha = true)
    (h : numberOfLetters? n cs = some m) : 25 * m + 26 ≤ (25 * n + 26) * 26 ^ cs.length := by
  induction cs generalizing n with
  | nil =>
      cases h
      simp
  | cons c cs ih =>
      rw [numberOfLetters?] at h
      split at h
      · have hc := letterNumber_le (hcs c List.mem_cons_self)
        calc 25 * m + 26 ≤ (25 * (n * 26 + letterNumber c) + 26) * 26 ^ cs.length :=
              ih (fun d hd => hcs d (List.mem_cons_of_mem _ hd)) h
          _ ≤ ((25 * n + 26) * 26) * 26 ^ cs.length := Nat.mul_le_mul_right _ (by omega)
          _ = (25 * n + 26) * 26 ^ (c :: cs).length := by
            rw [List.length_cons, Nat.pow_succ, Nat.mul_assoc, Nat.mul_comm 26]
      · cases h

namespace Address

structure IsNear (a : Address) : Prop where
  column : a.cell.column < columnsInReach
  row : a.cell.row + 1 < Cell.gridSide

instance (a : Address) : Decidable a.IsNear :=
  decidable_of_iff (a.cell.column < columnsInReach ∧ a.cell.row + 1 < Cell.gridSide)
    ⟨fun h => ⟨h.1, h.2⟩, fun h => ⟨h.1, h.2⟩⟩

theorem toList_text (a : Address) :
    a.text.toList = a.spelling (lettersOfNumber (a.cell.column + 1)) (Nat.toDigits 10 (a.cell.row + 1)) := by
  have hanchor (fixed : Bool) : (if fixed then "$" else "").toList = anchor fixed := by cases fixed <;> rfl
  simp [text, spelling, columnLetters, hanchor]

variable {w : String} {a : Address}

theorem ofWord?_text (h : a.IsNear) : ofWord? a.text = some a := by
  have hne : lettersOfNumber (a.cell.column + 1) ≠ [] := lettersOfNumber_ne_nil (Nat.succ_pos _)
  have halpha : ∀ c ∈ lettersOfNumber (a.cell.column + 1), c.isAlpha = true := fun c => isAlpha_of_mem_lettersOfNumber
  have hcolumn := h.column
  have hlimit : columnsInReach < columnLimit := by decide
  refine ofWord?_eq_some_iff.mpr ⟨_, _, a.toList_text, hne, length_lettersOfNumber hcolumn, halpha, Nat.toDigits_ne_nil,
    fun c => Nat.isDigit_of_mem_toDigits (by decide) (by decide), Nat.ofDigitChars_ten_toDigits, h.row, ?_⟩
  rw [columnOfLetters?_of_isAlpha hne halpha, numberOfLetters?_lettersOfNumber, if_pos (by omega)]
  rfl

theorem isNear_of_ofWord? (h : ofWord? w = some a) : a.IsNear := by
  obtain ⟨letters, digits, -, h⟩ := ofWord?_eq_some_iff.mp h
  refine ⟨?_, h.row_lt⟩
  have hcolumn := h.column
  rw [columnOfLetters?] at hcolumn
  split at hcolumn
  · cases hcolumn
  obtain ⟨m, hm, hsub⟩ := Option.map_eq_some_iff.mp hcolumn
  have hle := numberOfLetters?_le h.isAlpha hm
  have hpow : 26 ^ letters.length ≤ 26 ^ 3 := Nat.pow_le_pow_right (by decide) h.length_letters
  simp only [columnsInReach]
  omega

end Address

end LiveSheet
