import LiveSheet.Formula.Reading
import LiveSheet.Proofs.Cell.Alike
import Mathlib.Data.List.Forall2

namespace LiveSheet

namespace Agree

variable {α β γ δ : Type} {through : CellError → Prop} {R : α → β → Prop} {S : γ → δ → Prop}

theorem bind {x : Except CellError α} {y : Except CellError β} {f : α → Except CellError γ}
    {k : β → Except CellError δ} (h : Agree through R x y)
    (hf : ∀ a b, R a b → Agree through S (f a) (k b)) : Agree through S (x >>= f) (y >>= k) := by
  cases h with
  | ok h => exact hf _ _ h
  | error h => exact .error h

theorem map {x : Except CellError α} {y : Except CellError β} {f : α → γ} {k : β → δ}
    (h : Agree through R x y) (hf : ∀ a b, R a b → S (f a) (k b)) :
    Agree through S (x.map f) (y.map k) := by
  cases h with
  | ok h => exact .ok (hf _ _ h)
  | error h => exact .error h

theorem mapM {xs : List α} {ys : List β} {f : α → Except CellError γ} {k : β → Except CellError δ}
    (h : List.Forall₂ R xs ys) (hf : ∀ a b, R a b → Agree through S (f a) (k b)) :
    Agree through (List.Forall₂ S) (xs.mapM f) (ys.mapM k) := by
  induction h with
  | nil => exact .ok .nil
  | cons hab _ ih =>
      simp only [List.mapM_cons]
      exact (hf _ _ hab).bind fun _ _ hc => ih.bind fun _ _ hcs => .ok (.cons hc hcs)

end Agree

namespace Reading

variable {α β γ δ : Type} (through : CellError → Prop) (g g' : Grid)

def Matched (R : α → β → Prop) (x : Reading α) (y : Reading β) : Prop :=
  Agree through R (x g).result (y g').result

variable {through g g'} {R : α → β → Prop} {S : γ → δ → Prop}

theorem matched_pure {a : α} {b : β} (h : R a b) :
    Matched through g g' R (pure a : Reading α) (pure b : Reading β) :=
  .ok h

theorem matched_ofResult {x : Except CellError α} {y : Except CellError β} (h : Agree through R x y) :
    Matched through g g' R (.ofResult x) (.ofResult y) :=
  h

theorem matched_fail {e : CellError} (h : through e) :
    Matched through g g' R (.fail e : Reading α) (.fail e : Reading β) :=
  .error h

theorem result_bind (x : Reading α) (f : α → Reading β) (g : Grid) :
    ((x >>= f) g).result = (x g).result >>= fun a => (f a g).result := by
  change (andThen x f g).result = _
  unfold andThen
  rcases h : x g with ⟨reads, e | a⟩ <;> rfl

theorem matched_bind {x : Reading α} {y : Reading β} {f : α → Reading γ} {k : β → Reading δ}
    (h : Matched through g g' R x y) (hf : ∀ a b, R a b → Matched through g g' S (f a) (k b)) :
    Matched through g g' S (x >>= f) (y >>= k) := by
  unfold Matched
  rw [result_bind, result_bind]
  exact Agree.bind h hf

theorem matched_outcome {x : Reading α} {y : Reading β} (h : Matched through g g' R x y) :
    Matched through g g' (Agree through R) x.outcome y.outcome :=
  .ok h

theorem allBehind_matched {xs : List (Reading α)} {ys : List (Reading β)}
    (h : List.Forall₂ (Matched through g g' R) xs ys) {reads reads' : List Cell} {found : List α}
    {found' : List β} (hfound : List.Forall₂ R found found') :
    Agree through (List.Forall₂ R) (allBehind g reads found xs).result
      (allBehind g' reads' found' ys).result := by
  induction h generalizing reads reads' found found' with
  | nil => exact .ok (List.rel_reverse hfound)
  | @cons x y xs ys hxy _ ih =>
      unfold Matched at hxy
      simp only [allBehind]
      rcases hx : x g with ⟨rx, ex | a⟩ <;> rcases hy : y g' with ⟨ry, ey | b⟩ <;>
        simp only [hx, hy] at hxy
      · cases hxy with
        | error he => exact .error he
      · nomatch hxy
      · nomatch hxy
      · cases hxy with
        | ok hab => exact ih (.cons hab hfound)

theorem matched_all {xs : List (Reading α)} {ys : List (Reading β)}
    (h : List.Forall₂ (Matched through g g' R) xs ys) :
    Matched through g g' (List.Forall₂ R) (all xs) (all ys) :=
  allBehind_matched h .nil

end Reading

end LiveSheet
