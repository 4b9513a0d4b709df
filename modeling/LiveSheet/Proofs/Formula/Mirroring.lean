import LiveSheet.Formula.Evaluate
import Mathlib.Data.List.Forall2

namespace LiveSheet

def Answer.moved {α : Type} (σ : Cell → Cell) (a : Answer α) : Answer α := { a with reads := a.reads.map σ }

namespace Reading

variable {α β : Type} (σ : Cell → Cell) (cells : List Cell) (g g' : Grid)

structure Mirrored (x y : Reading α) : Prop where
  answer : y g' = (x g).moved σ
  within : ∀ c ∈ (x g).reads, c ∈ cells

variable {σ cells g g'}

theorem mirrored_ofResult (r : Except CellError α) : Mirrored σ cells g g' (.ofResult r) (.ofResult r) :=
  ⟨rfl, fun _ hc => absurd hc List.not_mem_nil⟩

theorem mirrored_pure (a : α) : Mirrored σ cells g g' (pure a : Reading α) (pure a) := mirrored_ofResult (.ok a)

theorem mirrored_fail (e : CellError) : Mirrored σ cells g g' (.fail e : Reading α) (.fail e) :=
  mirrored_ofResult (.error e)

theorem mirrored_cell {c : Cell} (hvalue : g'.value (σ c) = g.value c) (hc : c ∈ cells) :
    Mirrored σ cells g g' (.cell c) (.cell (σ c)) :=
  ⟨congrArg (Answer.mk [σ c]) hvalue, fun _ hd => List.mem_singleton.mp hd ▸ hc⟩

theorem mirrored_rowCount (h : g'.rowCount = g.rowCount) : Mirrored σ cells g g' .rowCount .rowCount :=
  ⟨congrArg (fun n => Answer.mk [] (.ok n)) h, fun _ hc => absurd hc List.not_mem_nil⟩

theorem mirrored_bind {x y : Reading α} {f k : α → Reading β} (h : Mirrored σ cells g g' x y)
    (hf : ∀ a, Mirrored σ cells g g' (f a) (k a)) : Mirrored σ cells g g' (x >>= f) (y >>= k) := by
  change Mirrored σ cells g g' (andThen x f) (andThen y k)
  have hanswer := h.answer
  have hwithin := h.within
  rcases hx : x g with ⟨reads, e | a⟩ <;> rw [hx] at hanswer hwithin
  · refine ⟨?_, ?_⟩
    · simp only [andThen, hx, hanswer, Answer.moved]
    · simpa only [andThen, hx] using hwithin
  · refine ⟨?_, ?_⟩
    · simp only [andThen, hx, hanswer, Answer.moved, (hf a).answer, List.map_append]
    · simp only [andThen, hx]
      exact fun c hc => (List.mem_append.mp hc).elim (hwithin c) ((hf a).within c)

theorem Mirrored.outcome {x y : Reading α} (h : Mirrored σ cells g g' x y) :
    Mirrored σ cells g g' x.outcome y.outcome := by
  refine ⟨?_, h.within⟩
  simp only [Reading.outcome, h.answer, Answer.moved]

theorem allBehind_mirrored {xs ys : List (Reading α)} (h : List.Forall₂ (Mirrored σ cells g g') xs ys)
    {reads : List Cell} (hreads : ∀ c ∈ reads, c ∈ cells) (found : List α) :
    allBehind g' (reads.map σ) found ys = (allBehind g reads found xs).moved σ ∧
      ∀ c ∈ (allBehind g reads found xs).reads, c ∈ cells := by
  induction h generalizing reads found with
  | nil =>
      refine ⟨?_, fun c hc => hreads c (List.mem_reverse.mp hc)⟩
      simp only [allBehind, Answer.moved, List.map_reverse]
  | @cons x y xs ys hxy _ ih =>
      have hanswer := hxy.answer
      have hwithin := hxy.within
      rcases hx : x g with ⟨more, e | a⟩ <;> rw [hx] at hanswer hwithin
      all_goals
        have hall : ∀ c ∈ more.reverse ++ reads, c ∈ cells := fun c hc =>
          (List.mem_append.mp hc).elim (fun hc => hwithin c (List.mem_reverse.mp hc)) (hreads c)
        have hmap : (more.map σ).reverse ++ reads.map σ = (more.reverse ++ reads).map σ := by
          rw [List.map_append, List.map_reverse]
        simp only [allBehind, hx, hanswer, Answer.moved, hmap]
      · exact ⟨congrArg (Answer.mk · _) List.map_reverse.symm, fun c hc => hall c (List.mem_reverse.mp hc)⟩
      · exact ih hall (a :: found)

theorem mirrored_all {xs ys : List (Reading α)} (h : List.Forall₂ (Mirrored σ cells g g') xs ys) :
    Mirrored σ cells g g' (all xs) (all ys) :=
  have hall := allBehind_mirrored h (fun _ hc => absurd hc List.not_mem_nil) []
  ⟨hall.1, hall.2⟩

end Reading

open Reading

variable {σ : Cell → Cell} {cells : List Cell} {g g' : Grid}

inductive Operand.Mirrored (σ : Cell → Cell) (cells : List Cell) (g g' : Grid) : Operand → Operand → Prop
  | range {r r' : Rectangle} (hmoved : r'.cells = r.cells.map σ)
      (h : ∀ c ∈ r.cells, g'.value (σ c) = g.value c ∧ c ∈ cells) : Mirrored σ cells g g' (.range r) (.range r')
  | single {x y : Reading Value} (h : Reading.Mirrored σ cells g g' x y) : Mirrored σ cells g g' (.single x) (.single y)

namespace Operand

variable {o o' : Operand} (h : Operand.Mirrored σ cells g g' o o')

include h

theorem Mirrored.scalar : Reading.Mirrored σ cells g g' o.scalar o'.scalar := by
  cases h with
  | range => exact mirrored_fail _
  | single h => exact h

theorem Mirrored.number : Reading.Mirrored σ cells g g' o.number o'.number :=
  mirrored_bind h.scalar fun v => mirrored_ofResult v.asNumber

theorem Mirrored.truth : Reading.Mirrored σ cells g g' o.truth o'.truth :=
  mirrored_bind h.scalar fun v => mirrored_ofResult v.asTruth

omit h in
theorem forall₂_moved {α : Type} {r r' : Rectangle} {k : Cell → Reading α} (hmoved : r'.cells = r.cells.map σ)
    (hk : ∀ c ∈ r.cells, Reading.Mirrored σ cells g g' (k c) (k (σ c))) :
    List.Forall₂ (Reading.Mirrored σ cells g g') (r.cells.map k) (r'.cells.map k) := by
  rw [hmoved, List.map_map, List.forall₂_map_left_iff, List.forall₂_map_right_iff, List.forall₂_same]
  exact hk

theorem Mirrored.supplied : Reading.Mirrored σ cells g g' o.supplied o'.supplied := by
  cases h with
  | range hmoved h =>
      refine mirrored_all (forall₂_moved hmoved fun c hc => ?_)
      exact mirrored_bind (mirrored_cell (h c hc).1 (h c hc).2) fun v => mirrored_pure _
  | single h => exact mirrored_bind h fun v => mirrored_pure _

theorem Mirrored.outcomes : Reading.Mirrored σ cells g g' o.outcomes o'.outcomes := by
  cases h with
  | range hmoved h =>
      exact mirrored_all (forall₂_moved hmoved fun c hc => (mirrored_cell (h c hc).1 (h c hc).2).outcome)
  | single h => exact mirrored_bind h.outcome fun v => mirrored_pure _

end Operand

variable {os os' : List Operand} (h : List.Forall₂ (Operand.Mirrored σ cells g g') os os')

include h

theorem mirrored_allOperands {α : Type} {k : Operand → Reading α}
    (hk : ∀ {o o'}, Operand.Mirrored σ cells g g' o o' → Reading.Mirrored σ cells g g' (k o) (k o')) :
    Reading.Mirrored σ cells g g' (.all (os.map k)) (.all (os'.map k)) := by
  refine mirrored_all ?_
  rw [List.forall₂_map_left_iff, List.forall₂_map_right_iff]
  exact h.imp fun _ _ ho => hk ho

theorem suppliedValues_mirrored : Reading.Mirrored σ cells g g' (suppliedValues os) (suppliedValues os') :=
  mirrored_bind (mirrored_allOperands h Operand.Mirrored.supplied) fun _ => mirrored_pure _

theorem numbers_mirrored : Reading.Mirrored σ cells g g' (numbers os) (numbers os') :=
  mirrored_bind (suppliedValues_mirrored h) fun _ => mirrored_ofResult _

theorem truths_mirrored : Reading.Mirrored σ cells g g' (truths os) (truths os') :=
  mirrored_bind (suppliedValues_mirrored h) fun _ => mirrored_ofResult _

theorem Function.apply_mirrored (f : Function) : Reading.Mirrored σ cells g g' (f.apply os) (f.apply os') := by
  cases f with
  | sum => exact mirrored_bind (numbers_mirrored h) fun ns => mirrored_ofResult (finite (total ns))
  | average =>
      refine mirrored_bind (numbers_mirrored h) fun ns => ?_
      split
      · exact mirrored_fail _
      · exact mirrored_ofResult _
  | least | greatest => exact mirrored_bind (numbers_mirrored h) fun ns => mirrored_pure _
  | count => exact mirrored_bind (mirrored_allOperands h Operand.Mirrored.outcomes) fun found => mirrored_pure _
  | allTrue | anyTrue =>
      refine mirrored_bind (truths_mirrored h) fun bs => ?_
      split
      · exact mirrored_fail _
      · exact mirrored_pure _
  | concatenate => exact mirrored_bind (suppliedValues_mirrored h) fun values => mirrored_pure _
  | absolute =>
      rcases h with _ | ⟨hx, _ | _⟩
      · exact mirrored_fail _
      · exact mirrored_bind hx.number fun n => mirrored_pure _
      · exact mirrored_fail _
  | squareRoot =>
      rcases h with _ | ⟨hx, _ | _⟩
      · exact mirrored_fail _
      · refine mirrored_bind hx.number fun n => ?_
        split
        · exact mirrored_fail _
        · exact mirrored_pure _
      · exact mirrored_fail _
  | round =>
      rcases h with _ | ⟨hx, _ | ⟨hdigits, _ | _⟩⟩
      · exact mirrored_fail _
      · exact mirrored_bind hx.number fun n => mirrored_ofResult _
      · exact mirrored_bind hx.number fun n => mirrored_bind hdigits.number fun d => mirrored_ofResult _
      · exact mirrored_fail _
  | choose =>
      rcases h with _ | ⟨hcondition, _ | ⟨hyes, _ | ⟨hno, _ | _⟩⟩⟩
      · exact mirrored_fail _
      · exact mirrored_fail _
      · refine mirrored_bind hcondition.truth fun b => ?_
        split
        · exact hyes.scalar
        · exact mirrored_pure _
      · refine mirrored_bind hcondition.truth fun b => ?_
        split
        · exact hyes.scalar
        · exact hno.scalar
      · exact mirrored_fail _
  | negated =>
      rcases h with _ | ⟨hx, _ | _⟩
      · exact mirrored_fail _
      · exact mirrored_bind hx.truth fun b => mirrored_pure _
      · exact mirrored_fail _
  | length =>
      rcases h with _ | ⟨hx, _ | _⟩
      · exact mirrored_fail _
      · exact mirrored_bind hx.scalar fun v => mirrored_pure _
      · exact mirrored_fail _

end LiveSheet
