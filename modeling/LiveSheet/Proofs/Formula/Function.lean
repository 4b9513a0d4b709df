import LiveSheet.Formula.Evaluate
import LiveSheet.Proofs.Formula.Matching

namespace LiveSheet

open Reading

variable {through : CellError → Prop} (hown : ∀ e, e ≠ .cycle → through e)

include hown

theorem finite_matched {m n : Float} (h : Number.Alike m n) : Agree through Value.Alike (finite m) (finite n) := by
  unfold finite
  rw [Number.isFinite_alike h]
  split
  · exact .ok (.number h)
  · exact .error (hown _ (by simp))

theorem number_matched {v w : Value} (h : v.Alike w) : Agree through Number.Alike v.asNumber w.asNumber :=
  Value.asNumber_alike (hown _ (by simp)) h

theorem truth_matched {v w : Value} (h : v.Alike w) : Agree through Eq v.asTruth w.asTruth := by
  rw [Value.asTruth_alike h]
  cases w with
  | text s =>
      simp only [Value.asTruth]
      split
      · exact .ok rfl
      split
      · exact .ok rfl
      · exact .error (hown _ (by simp))
  | _ => exact .ok rfl

theorem Operator.apply_matched (o : Operator) {a a' b b' : Value} (h : a.Alike a') (k : b.Alike b') :
    Agree through Value.Alike (o.apply a b) (o.apply a' b') := by
  have arithmetic {f : Float → Float → Float}
      (hf : ∀ m m' n n', Number.Alike m m' → Number.Alike n n' → Number.Alike (f m n) (f m' n')) :
      Agree through Value.Alike (do finite (f (← a.asNumber) (← b.asNumber)))
        (do finite (f (← a'.asNumber) (← b'.asNumber))) :=
    (number_matched hown h).bind fun m m' hm => (number_matched hown k).bind fun n n' hn =>
      finite_matched hown (hf m m' n n' hm hn)
  have hjoin : Outcome.display (.ok a) ++ Outcome.display (.ok b) =
      Outcome.display (.ok a') ++ Outcome.display (.ok b') := by
    simp only [Outcome.display, Value.display_alike h, Value.display_alike k]
  cases o with
  | add => exact arithmetic fun _ _ _ _ => Number.add_alike
  | subtract => exact arithmetic fun _ _ _ _ => Number.sub_alike
  | multiply => exact arithmetic fun _ _ _ _ => Number.mul_alike
  | power => exact arithmetic fun _ _ _ _ => Number.power_alike
  | divide =>
      refine (number_matched hown k).bind fun n n' hn => (number_matched hown h).bind fun m m' hm => ?_
      rw [Number.isZero_alike hn]
      split
      · exact .error (hown _ (by simp))
      · next hz =>
          have hn : n = n' := Number.eq_of_alike hn (by rw [Number.isZero_alike hn]; simpa using hz)
          subst hn
          exact finite_matched hown (Number.div_alike hm)
  | join =>
      simp only [Operator.apply, hjoin]
      exact .ok (.refl _)
  | equal | unequal | less | atMost | greater | atLeast =>
      simp only [Operator.apply, Value.order_alike h k]
      exact .ok (.refl _)

omit hown in
inductive Operand.Matched (through : CellError → Prop) (g g' : Grid) : Operand → Operand → Prop
  | range {cells : Rectangle} (h : ∀ c ∈ cells.cells, Agree through Value.Alike (g.value c) (g'.value c)) :
      Matched through g g' (.range cells) (.range cells)
  | single {x y : Reading Value} (h : Reading.Matched through g g' Value.Alike x y) :
      Matched through g g' (.single x) (.single y)

def SuppliedAlike (s t : Supplied) : Prop := s.value.Alike t.value ∧ s.ranged = t.ranged

variable {g g' : Grid}

namespace Operand

variable {o o' : Operand}

omit hown in
theorem forall₂_cells {α β : Type} {R : α → β → Prop} {f : Cell → α} {k : Cell → β} {cells : List Cell}
    (h : ∀ c ∈ cells, R (f c) (k c)) : List.Forall₂ R (cells.map f) (cells.map k) := by
  rw [List.forall₂_map_left_iff, List.forall₂_map_right_iff, List.forall₂_same]
  exact h

theorem scalar_matched (h : Matched through g g' o o') :
    Reading.Matched through g g' Value.Alike o.scalar o'.scalar := by
  cases h with
  | range => exact matched_fail (hown _ (by simp))
  | single h => exact h

theorem number_matched (h : Matched through g g' o o') :
    Reading.Matched through g g' Number.Alike o.number o'.number :=
  matched_bind (scalar_matched hown h) fun _ _ hv => matched_ofResult (LiveSheet.number_matched hown hv)

theorem truth_matched (h : Matched through g g' o o') : Reading.Matched through g g' Eq o.truth o'.truth :=
  matched_bind (scalar_matched hown h) fun _ _ hv => matched_ofResult (LiveSheet.truth_matched hown hv)

omit hown in
theorem supplied_matched (h : Matched through g g' o o') :
    Reading.Matched through g g' (List.Forall₂ SuppliedAlike) o.supplied o'.supplied := by
  cases h with
  | range h =>
      refine matched_all (forall₂_cells fun c hc => ?_)
      exact matched_bind (R := Value.Alike) (h c hc) fun _ _ hv => matched_pure ⟨hv, rfl⟩
  | single h => exact matched_bind h fun _ _ hv => matched_pure (.cons ⟨hv, rfl⟩ .nil)

omit hown in
theorem outcomes_matched (h : Matched through g g' o o') :
    Reading.Matched through g g' (List.Forall₂ (Agree through Value.Alike)) o.outcomes o'.outcomes := by
  cases h with
  | range h => exact matched_all (forall₂_cells fun c hc => matched_outcome (h c hc))
  | single h => exact matched_bind (matched_outcome h) fun _ _ hv => matched_pure (.cons hv .nil)

end Operand

variable {os os' : List Operand} (h : List.Forall₂ (Operand.Matched through g g') os os')

include h

omit hown in
theorem forall₂_map {α β : Type} {R : Reading α → Reading β → Prop} {f : Operand → Reading α}
    {k : Operand → Reading β} (hf : ∀ o o', Operand.Matched through g g' o o' → R (f o) (k o')) :
    List.Forall₂ R (os.map f) (os'.map k) := by
  rw [List.forall₂_map_left_iff, List.forall₂_map_right_iff]
  exact h.imp hf

omit hown in
theorem suppliedValues_matched :
    Matched through g g' (List.Forall₂ SuppliedAlike) (suppliedValues os) (suppliedValues os') :=
  matched_bind (matched_all (forall₂_map h fun _ _ => Operand.supplied_matched)) fun _ _ hs =>
    matched_pure (List.rel_flatten hs)

omit h in
theorem countedNumber_matched {s t : Supplied} (hs : SuppliedAlike s t) :
    Agree through (Option.Rel Number.Alike) (countedNumber s) (countedNumber t) := by
  obtain ⟨v, ranged⟩ := s
  obtain ⟨w, ranged'⟩ := t
  obtain ⟨hv, rfl⟩ : v.Alike w ∧ ranged = ranged' := hs
  have hnumber : Agree through (Option.Rel Number.Alike) (v.asNumber.map some) (w.asNumber.map some) :=
    (number_matched hown hv).map fun _ _ hn => .some hn
  cases hv with
  | refl =>
      cases ranged with
      | false =>
          cases v with
          | blank => exact .ok .none
          | _ => exact hnumber
      | true =>
          cases v with
          | number n => exact .ok (.some (.refl n))
          | _ => exact .ok .none
  | number hn =>
      cases ranged
      · exact hnumber
      · exact .ok (.some hn)

omit h in
theorem countedTruth_matched {s t : Supplied} (hs : SuppliedAlike s t) :
    Agree through Eq (countedTruth s) (countedTruth t) := by
  obtain ⟨v, _⟩ := s
  obtain ⟨w, _⟩ := t
  obtain ⟨hv, -⟩ : v.Alike w ∧ _ := hs
  have htruth : Agree through Eq (v.asTruth.map some) (w.asTruth.map some) :=
    (truth_matched hown hv).map fun _ _ hb => congrArg some hb
  cases hv with
  | refl =>
      cases v with
      | blank => exact .ok rfl
      | _ => exact htruth
  | number hn => exact htruth

theorem numbers_matched : Matched through g g' (List.Forall₂ Number.Alike) (numbers os) (numbers os') := by
  refine matched_bind (suppliedValues_matched h) fun ss ts hs => matched_ofResult ?_
  refine (Agree.mapM hs fun _ _ => countedNumber_matched hown).map fun xs ys hxs => ?_
  induction hxs with
  | nil => exact .nil
  | cons hn _ ih =>
      cases hn with
      | none => exact ih
      | some hn => exact .cons hn ih

theorem truths_matched : Matched through g g' Eq (truths os) (truths os') := by
  refine matched_bind (suppliedValues_matched h) fun ss ts hs => matched_ofResult ?_
  refine (Agree.mapM hs fun _ _ => countedTruth_matched hown).map fun xs ys hxs => ?_
  rw [List.forall₂_eq_eq_eq] at hxs
  rw [hxs]

omit hown h in
theorem foldl_alike {f : Float → Float → Float}
    (hf : ∀ m m' n n', Number.Alike m m' → Number.Alike n n' → Number.Alike (f m n) (f m' n'))
    {ms ns : List Float} (h : List.Forall₂ Number.Alike ms ns) {m n : Float} (hm : Number.Alike m n) :
    Number.Alike (ms.foldl f m) (ns.foldl f n) := by
  induction h generalizing m n with
  | nil => exact hm
  | cons hn _ ih => exact ih (hf _ _ _ _ hm hn)

omit hown h in
theorem total_alike {ms ns : List Float} (h : List.Forall₂ Number.Alike ms ns) :
    Number.Alike (total ms) (total ns) :=
  foldl_alike (fun _ _ _ _ => Number.add_alike) h (.refl _)

omit hown h in
theorem winner_alike {better : Float → Float → Float}
    (hb : ∀ m m' n n', Number.Alike m m' → Number.Alike n n' → Number.Alike (better m n) (better m' n'))
    {ms ns : List Float} (h : List.Forall₂ Number.Alike ms ns) :
    Number.Alike (winner better ms) (winner better ns) := by
  cases h with
  | nil => exact .refl _
  | cons hm hms => exact foldl_alike hb hms hm

omit hown h in
theorem roundTo_alike {m n : Float} (h : Number.Alike m n) (digits : Int) :
    Number.Alike (roundTo m digits) (roundTo n digits) :=
  Number.div_alike (Number.round_alike (Number.mul_alike h (.refl _)))

omit hown h in
theorem countNumbers_alike {as bs : List Outcome} (h : List.Forall₂ (Agree through Value.Alike) as bs) :
    as.countP isNumberOutcome = bs.countP isNumberOutcome := by
  induction h with
  | nil => rfl
  | cons hab _ ih =>
      rw [List.countP_cons, List.countP_cons, ih]
      cases hab with
      | ok hv => cases hv <;> rfl
      | error => rfl

theorem Function.apply_matched (f : Function) :
    Matched through g g' Value.Alike (f.apply os) (f.apply os') := by
  have refused : ∀ e, e ≠ .cycle →
      Matched through g g' Value.Alike (.fail e : Reading Value) (.fail e : Reading Value) :=
    fun e he => matched_fail (hown e he)
  cases f with
  | sum =>
      exact matched_bind (numbers_matched hown h) fun _ _ hn =>
        matched_ofResult (finite_matched hown (total_alike hn))
  | average =>
      refine matched_bind (numbers_matched hown h) fun ms ns hn => ?_
      have hempty : ms.isEmpty = ns.isEmpty := by cases hn <;> rfl
      rw [hempty, hn.length_eq]
      split
      · exact refused _ (by simp)
      · exact matched_ofResult (finite_matched hown (Number.div_alike (total_alike hn)))
  | least =>
      exact matched_bind (numbers_matched hown h) fun _ _ hn =>
        matched_pure (.number (winner_alike (fun _ _ _ _ => Number.least_alike) hn))
  | greatest =>
      exact matched_bind (numbers_matched hown h) fun _ _ hn =>
        matched_pure (.number (winner_alike (fun _ _ _ _ => Number.greatest_alike) hn))
  | count =>
      refine matched_bind (matched_all (forall₂_map h fun _ _ => Operand.outcomes_matched)) fun as bs has => ?_
      rw [countNumbers_alike (List.rel_flatten has)]
      exact matched_pure (.refl _)
  | allTrue | anyTrue =>
      refine matched_bind (truths_matched hown h) fun bs cs hb => ?_
      subst hb
      split
      · exact refused _ (by simp)
      · exact matched_pure (.refl _)
  | concatenate =>
      refine matched_bind (suppliedValues_matched h) fun ss ts hs => ?_
      have hdisplay : ss.map (fun s => s.value.display) = ts.map (fun s => s.value.display) := by
        rw [← List.forall₂_eq_eq_eq, List.forall₂_map_left_iff, List.forall₂_map_right_iff]
        exact hs.imp fun _ _ hst => Value.display_alike hst.1
      rw [hdisplay]
      exact matched_pure (.refl _)
  | absolute =>
      rcases h with _ | ⟨hx, _ | _⟩
      · exact refused _ (by simp)
      · exact matched_bind (Operand.number_matched hown hx) fun _ _ hn =>
          matched_pure (.number (Number.abs_alike hn))
      · exact refused _ (by simp)
  | squareRoot =>
      rcases h with _ | ⟨hx, _ | _⟩
      · exact refused _ (by simp)
      · refine matched_bind (Operand.number_matched hown hx) fun m n hn => ?_
        rw [Number.below_alike hn (.refl 0)]
        split
        · exact refused _ (by simp)
        · exact matched_pure (.number (Number.sqrt_alike hn))
      · exact refused _ (by simp)
  | round =>
      rcases h with _ | ⟨hx, _ | ⟨hd, _ | _⟩⟩
      · exact refused _ (by simp)
      · exact matched_bind (Operand.number_matched hown hx) fun _ _ hn =>
          matched_ofResult (finite_matched hown (roundTo_alike hn 0))
      · refine matched_bind (Operand.number_matched hown hx) fun _ _ hn =>
          matched_bind (Operand.number_matched hown hd) fun d d' hdd => matched_ofResult ?_
        have hdigits : digitCount d = digitCount d' := Number.truncateWithin_alike hdd
        rw [hdigits]
        exact finite_matched hown (roundTo_alike hn _)
      · exact refused _ (by simp)
  | choose =>
      rcases h with _ | ⟨hc, _ | ⟨hy, _ | ⟨hn, _ | _⟩⟩⟩
      · exact refused _ (by simp)
      · exact refused _ (by simp)
      · refine matched_bind (Operand.truth_matched hown hc) fun b b' hb => ?_
        subst hb
        split
        · exact Operand.scalar_matched hown hy
        · exact matched_pure (.refl _)
      · refine matched_bind (Operand.truth_matched hown hc) fun b b' hb => ?_
        subst hb
        split
        · exact Operand.scalar_matched hown hy
        · exact Operand.scalar_matched hown hn
      · exact refused _ (by simp)
  | negated =>
      rcases h with _ | ⟨hx, _ | _⟩
      · exact refused _ (by simp)
      · refine matched_bind (Operand.truth_matched hown hx) fun b b' hb => ?_
        subst hb
        exact matched_pure (.refl _)
      · exact refused _ (by simp)
  | length =>
      rcases h with _ | ⟨hx, _ | _⟩
      · exact refused _ (by simp)
      · refine matched_bind (Operand.scalar_matched hown hx) fun v w hv => ?_
        rw [Value.display_alike hv]
        exact matched_pure (.refl _)
      · exact refused _ (by simp)

end LiveSheet
