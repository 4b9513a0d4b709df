import LiveSheet.Proofs.Formula.Function

namespace LiveSheet.Formula

mutual

def failures : Formula → List CellError
  | .failure e => [e]
  | .negate operand => operand.failures
  | .binary _ left right => left.failures ++ right.failures
  | .call _ arguments => allFailures arguments
  | _ => []

def allFailures : List Formula → List CellError
  | [] => []
  | argument :: rest => argument.failures ++ allFailures rest

end

open Reading

structure Shared (through : CellError → Prop) (g g' : Grid) (cells : List Cell) (usesRowCount : Bool)
    (failures : List CellError) : Prop where
  own : ∀ e, e ≠ .cycle → through e
  cells : ∀ c ∈ cells, Agree through Value.Alike (g.value c) (g'.value c)
  rowCount : usesRowCount = true → g.rowCount = g'.rowCount
  failures : ∀ e ∈ failures, through e

theorem Shared.left {through : CellError → Prop} {g g' : Grid} {cs ds : List Cell} {a b : Bool}
    {es fs : List CellError} (h : Shared through g g' (cs ++ ds) (a || b) (es ++ fs)) :
    Shared through g g' cs a es :=
  ⟨h.own, fun c hc => h.cells c (List.mem_append_left _ hc), fun ha => h.rowCount (by simp [ha]),
    fun e he => h.failures e (List.mem_append_left _ he)⟩

theorem Shared.right {through : CellError → Prop} {g g' : Grid} {cs ds : List Cell} {a b : Bool}
    {es fs : List CellError} (h : Shared through g g' (cs ++ ds) (a || b) (es ++ fs)) :
    Shared through g g' ds b fs :=
  ⟨h.own, fun c hc => h.cells c (List.mem_append_right _ hc), fun hb => h.rowCount (by simp [hb]),
    fun e he => h.failures e (List.mem_append_right _ he)⟩

variable {through : CellError → Prop} {g g' : Grid}

mutual

theorem evaluate_matched : ∀ f : Formula, Shared through g g' f.cells f.usesRowCount f.failures →
    Matched through g g' Value.Alike f.evaluate f.evaluate
  | .literal _, _ => .ok (.refl _)
  | .failure e, h => .error (h.failures e (by simp [failures]))
  | .cell a, h => h.cells a.cell (by simp [cells])
  | .range _ _, h => .error (h.own _ (by simp))
  | .rowCount, h => by
      have hrows : g.rowCount = g'.rowCount := h.rowCount rfl
      refine matched_bind (R := Eq) (.ok hrows) fun m n hmn => ?_
      subst hmn
      exact matched_pure (.refl _)
  | .name _, h => .error (h.own _ (by simp))
  | .negate operand, h => by
      unfold evaluate
      refine matched_bind (evaluate_matched operand h) fun v w hv => ?_
      refine matched_bind (matched_ofResult (number_matched h.own hv)) fun m n hn => ?_
      exact matched_pure (.number (Number.neg_alike hn))
  | .binary o left right, h => by
      unfold evaluate
      refine matched_bind (evaluate_matched left h.left) fun a a' ha => ?_
      refine matched_bind (evaluate_matched right h.right) fun b b' hb => ?_
      exact matched_ofResult (o.apply_matched h.own ha hb)
  | .call word arguments, h => by
      unfold evaluate
      split
      · exact Function.apply_matched h.own (operands_matched arguments h) _
      · exact matched_fail (h.own _ (by simp))

theorem operands_matched : ∀ fs : List Formula,
    Shared through g g' (allCells fs) (anyUsesRowCount fs) (allFailures fs) →
    List.Forall₂ (Operand.Matched through g g') (operands fs) (operands fs)
  | [], _ => .nil
  | f :: fs, h => by
      have rest := operands_matched fs h.right
      cases f with
      | range a b => exact .cons (.range h.left.cells) rest
      | _ => exact .cons (.single (evaluate_matched _ h.left)) rest

end

theorem valueIn_alike {f : Formula} (hcells : ∀ c ∈ f.cells, Outcome.Alike (g.value c) (g'.value c))
    (hrows : f.usesRowCount = true → g.rowCount = g'.rowCount) : Outcome.Alike (f.valueIn g) (f.valueIn g') :=
  evaluate_matched f ⟨fun _ _ => trivial, hcells, hrows, fun _ _ => trivial⟩

theorem valueIn_ne_cycle {f : Formula} (hspelled : .cycle ∉ f.failures)
    (hcells : ∀ c ∈ f.cells, g.value c ≠ .error .cycle) : f.valueIn g ≠ .error .cycle := by
  have hshared : Shared (· ≠ .cycle) g g f.cells f.usesRowCount f.failures := by
    refine ⟨fun _ he => he, fun c hc => ?_, fun _ => rfl, fun e he hcycle => hspelled (hcycle ▸ he)⟩
    cases h : g.value c with
    | ok v => exact .ok (.refl v)
    | error e => exact .error fun he => hcells c hc (he ▸ h)
  intro h
  have hmatched := evaluate_matched f hshared
  unfold Matched at hmatched
  change (f.evaluate g).result = _ at h
  rw [h] at hmatched
  cases hmatched with
  | error he => exact he rfl

end LiveSheet.Formula
