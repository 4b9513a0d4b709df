import LiveSheet.Graph.Graph

/-!
The order in which edited cells, and all that depends on them, are brought up to date. The cells that are
reached from the edited ones along readers are ordered so that each comes behind its reached precedents;
those on a reference cycle, or behind one, are left over. Nothing depends on the order among the readers of
one cell, so a visit order is free to choose it.
-/

namespace LiveSheet

structure VisitOrder where
  list : Cell → CellSet → List Cell
  perm : ∀ c s, (list c s).Perm s.toList

def VisitOrder.ascending : VisitOrder := ⟨fun _ s => s.toList, fun _ s => List.Perm.refl s.toList⟩

structure Schedule where
  order : List Cell := []
  cyclic : List Cell := []
  deriving DecidableEq, Repr

namespace Graph

structure Survey where
  unmet : CellMap Node
  met : List Cell

namespace Survey

def meet (s : Survey) (c : Cell) : Survey :=
  if c ∈ s.unmet then ⟨s.unmet.erase c, c :: s.met⟩ else s

def meetAll (unmet : CellMap Node) (cells : List Cell) : Survey := cells.foldl meet ⟨unmet, []⟩

theorem size_meet (s : Survey) (c : Cell) :
    (s.meet c).unmet.size + (s.meet c).met.length = s.unmet.size + s.met.length := by
  unfold meet
  split
  · next h =>
    have hpos : s.unmet.size ≠ 0 := by
      intro h0
      have : s.unmet = ∅ := Std.ExtTreeMap.eq_empty_iff_size_eq_zero.mpr h0
      simp [this] at h
    simp only [Std.ExtTreeMap.size_erase, Std.ExtTreeMap.contains_iff_mem, h, if_true, List.length_cons]
    omega
  · rfl

theorem size_foldl_meet (cells : List Cell) (s : Survey) :
    (cells.foldl meet s).unmet.size + (cells.foldl meet s).met.length = s.unmet.size + s.met.length := by
  induction cells generalizing s with
  | nil => rfl
  | cons c cells ih => rw [List.foldl_cons, ih, size_meet]

theorem size_meetAll (unmet : CellMap Node) (cells : List Cell) :
    (meetAll unmet cells).unmet.size + (meetAll unmet cells).met.length = unmet.size := by
  simpa [meetAll] using size_foldl_meet cells ⟨unmet, []⟩

end Survey

def spread (g : Graph) (visit : VisitOrder) (unmet : CellMap Node) (found wave : List Cell) : List Cell :=
  let survey := Survey.meetAll unmet wave
  if _done : survey.met = [] then found.reverse
  else
    spread g visit survey.unmet (survey.met ++ found)
      (survey.met.reverse.flatMap fun c => visit.list c (g.readers c))
termination_by unmet.size
decreasing_by
  have := Survey.size_meetAll unmet wave
  have : 0 < (Survey.meetAll unmet wave).met.length := List.length_pos_iff.mpr _done
  omega

def reached (g : Graph) (visit : VisitOrder) (cells : List Cell) : List Cell :=
  g.spread visit g.nodes [] cells

structure Queue where
  waiting : CellMap Nat
  released : List Cell

namespace Queue

def advance (q : Queue) (reader : Cell) : Queue :=
  match q.waiting[reader]? with
  | none => q
  | some count =>
      if count ≤ 1 then ⟨q.waiting.erase reader, reader :: q.released⟩
      else { q with waiting := q.waiting.insert reader (count - 1) }

theorem size_advance (q : Queue) (c : Cell) :
    (q.advance c).waiting.size + (q.advance c).released.length = q.waiting.size + q.released.length := by
  unfold advance
  split
  · rfl
  · next count h =>
    have hmem : c ∈ q.waiting := Std.ExtTreeMap.mem_iff_isSome_getElem?.mpr (by simp [h])
    have hpos : q.waiting.size ≠ 0 := by
      intro h0
      have : q.waiting = ∅ := Std.ExtTreeMap.eq_empty_iff_size_eq_zero.mpr h0
      simp [this] at hmem
    split
    · simp only [Std.ExtTreeMap.size_erase, Std.ExtTreeMap.contains_iff_mem, hmem, if_true, List.length_cons]
      omega
    · simp [Std.ExtTreeMap.size_insert, hmem]

theorem size_foldl_advance (cells : List Cell) (q : Queue) :
    (cells.foldl advance q).waiting.size + (cells.foldl advance q).released.length =
      q.waiting.size + q.released.length := by
  induction cells generalizing q with
  | nil => rfl
  | cons c cells ih => rw [List.foldl_cons, ih, size_advance]

end Queue

def release (g : Graph) (visit : VisitOrder) (waiting : CellMap Nat) (wave : List Cell) : Queue :=
  (wave.flatMap fun c => visit.list c (g.readers c)).foldl Queue.advance ⟨waiting, []⟩

theorem size_release (g : Graph) (visit : VisitOrder) (waiting : CellMap Nat) (wave : List Cell) :
    (g.release visit waiting wave).waiting.size + (g.release visit waiting wave).released.length =
      waiting.size := by
  simpa [release] using
    Queue.size_foldl_advance (wave.flatMap fun c => visit.list c (g.readers c)) ⟨waiting, []⟩

def arrange (g : Graph) (visit : VisitOrder) (waiting : CellMap Nat) (ordered wave : List Cell) : Schedule :=
  let queue := g.release visit waiting wave
  if _done : queue.released = [] then ⟨(wave.reverse ++ ordered).reverse, queue.waiting.keys⟩
  else g.arrange visit queue.waiting (wave.reverse ++ ordered) queue.released.reverse
termination_by waiting.size
decreasing_by
  have := size_release g visit waiting wave
  have : 0 < (g.release visit waiting wave).released.length := List.length_pos_iff.mpr _done
  omega

def precedentsWithin (g : Graph) (members : CellSet) (c : Cell) : Nat :=
  (g.precedents c).toList.countP (· ∈ members)

def schedule (g : Graph) (visit : VisitOrder) (cells : List Cell) : Schedule :=
  let members : CellSet := .ofList cells
  let counts := cells.map fun c => (c, g.precedentsWithin members c)
  g.arrange visit (.ofList (counts.filter fun p => p.2 ≠ 0)) []
    ((counts.filter fun p => p.2 = 0).map Prod.fst)

def markChanged (g : Graph) (visit : VisitOrder) (edited : List Cell) : Graph × Schedule :=
  let cells := g.reached visit edited
  (cells.foldl doubt (edited.foldl (setFreshness .stale) g), g.schedule visit cells)

def isOrdered (g : Graph) : List Cell → Bool
  | [] => true
  | c :: cs => !(c :: cs).any (· ∈ g.precedents c) && isOrdered g cs

end Graph

end LiveSheet
