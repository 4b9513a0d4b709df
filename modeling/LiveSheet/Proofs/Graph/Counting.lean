import LiveSheet.Proofs.Graph.Order

/-!
Cells taken one at a time from the front of a line. Counts stay at zero here, so that nothing but the edges keeps a
cell from being let go again; with edges kept at both ends it never is, and the line empties in the order of the
schedule.
-/

namespace LiveSheet.Graph

structure Line where
  counts : CellMap Nat
  ready : List Cell

namespace Line

def advance (l : Line) (reader : Cell) : Line :=
  match l.counts[reader]? with
  | none => l
  | some count => ⟨l.counts.insert reader (count - 1), if count - 1 = 0 then l.ready ++ [reader] else l.ready⟩

end Line

inductive Empties (g : Graph) (visit : VisitOrder) : Line → List Cell → Prop where
  | done (counts : CellMap Nat) : Empties g visit ⟨counts, []⟩ []
  | serve (counts : CellMap Nat) (c : Cell) (ready order : List Cell)
      (h : Empties g visit ((visit.list c (g.readers c)).foldl Line.advance ⟨counts, ready⟩) order) :
      Empties g visit ⟨counts, c :: ready⟩ (c :: order)

structure Agree (cells : List Cell) (waiting counts : CellMap Nat) : Prop where
  waiting : ∀ c : Cell, waiting[c]? = counts[c]?.filter (0 < ·)
  mem_cells : ∀ (c : Cell) (n : Nat), counts[c]? = some n → c ∈ cells

def Bounded (counts : CellMap Nat) (met : List Cell) : Prop :=
  ∀ (r : Cell) (n : Nat), counts[r]? = some n → met.count r ≤ n

variable {cells before met rest : List Cell} {q : Queue} {l : Line} {counts : CellMap Nat} {r : Cell}

theorem getElem?_counts_advance (c : Cell) :
    (l.advance r).counts[c]? = if r = c then l.counts[c]?.map (· - 1) else l.counts[c]? := by
  unfold Line.advance
  by_cases h : r = c
  · subst h
    cases hn : l.counts[r]? <;> simp [hn]
  · cases l.counts[r]? <;> simp [h, Std.ExtTreeMap.getElem?_insert]

theorem Bounded.advance (h : Bounded l.counts (r :: met)) : Bounded (l.advance r).counts met := by
  intro c n hn
  rw [getElem?_counts_advance] at hn
  split at hn
  · next hrc =>
      subst hrc
      obtain ⟨m, hm, rfl⟩ := Option.map_eq_some_iff.mp hn
      have hle := h r m hm
      rw [List.count_cons_self] at hle
      omega
  · next hrc =>
      have hle := h c n hn
      rwa [List.count_cons_of_ne hrc] at hle

theorem Agree.advance (h : Agree cells q.waiting l.counts) (hr : l.counts[r]? ≠ some 0)
    (hready : l.ready = before ++ q.released.reverse) :
    Agree cells (q.advance r).waiting (l.advance r).counts ∧
      (l.advance r).ready = before ++ (q.advance r).released.reverse := by
  have hwaits := h.waiting r
  refine ⟨⟨fun c => ?_, fun c n hn => ?_⟩, ?_⟩
  · rw [Queue.getElem?_waiting_advance, getElem?_counts_advance, h.waiting c]
    split
    · cases hn : l.counts[c]? with
      | none => rfl
      | some n =>
          rcases n with _ | _ | n <;> simp [Option.filter]
    · rfl
  · rw [getElem?_counts_advance] at hn
    split at hn
    · obtain ⟨m, hm, -⟩ := Option.map_eq_some_iff.mp hn
      exact h.mem_cells c m hm
    · exact h.mem_cells c n hn
  · unfold Line.advance Queue.advance
    cases hn : l.counts[r]? with
    | none => simp [hwaits, hn, hready]
    | some n =>
        have hpos : 0 < n := Nat.pos_of_ne_zero fun h0 => hr (by rw [hn, h0])
        have hlook : q.waiting[r]? = some n := by simp [hwaits, hn, hpos]
        rw [hlook]
        by_cases hle : n ≤ 1
        · have h0 : n - 1 = 0 := by omega
          simp [hle, h0, hready]
        · have h0 : n - 1 ≠ 0 := by omega
          simp [hle, h0, hready]

theorem Agree.foldl_advance (h : Agree cells q.waiting l.counts) (hbound : Bounded l.counts (met ++ rest))
    (hready : l.ready = before ++ q.released.reverse) :
    Agree cells (met.foldl Queue.advance q).waiting (met.foldl Line.advance l).counts ∧
      Bounded (met.foldl Line.advance l).counts rest ∧
      (met.foldl Line.advance l).ready = before ++ (met.foldl Queue.advance q).released.reverse := by
  induction met generalizing q l with
  | nil => exact ⟨h, hbound, hready⟩
  | cons r met ih =>
      have hr : l.counts[r]? ≠ some 0 := by
        intro h0
        have hle := hbound r 0 h0
        simp at hle
      obtain ⟨hagree, hready⟩ := h.advance hr hready
      exact ih hagree hbound.advance hready

variable {g : Graph} {visit : VisitOrder}

theorem Agree.empties_wave {wave : List Cell} (h : Agree cells q.waiting counts)
    (hbound : Bounded counts (wave.flatMap fun c => visit.list c (g.readers c))) :
    let q' := (wave.flatMap fun c => visit.list c (g.readers c)).foldl Queue.advance q
    ∃ counts', Agree cells q'.waiting counts' ∧ ∀ order, g.Empties visit ⟨counts', q'.released.reverse⟩ order →
      g.Empties visit ⟨counts, wave ++ q.released.reverse⟩ (wave ++ order) := by
  induction wave generalizing q counts with
  | nil => exact ⟨counts, h, fun _ horder => horder⟩
  | cons c wave ih =>
      obtain ⟨hagree, hbound, hready⟩ := h.foldl_advance (l := ⟨counts, wave ++ q.released.reverse⟩) hbound rfl
      obtain ⟨counts', hagree', hrest⟩ := ih hagree hbound
      rw [List.flatMap_cons, List.foldl_append]
      refine ⟨counts', hagree', fun order horder => ?_⟩
      have hnext := hrest order horder
      rw [← hready] at hnext
      exact .serve counts c _ _ hnext

variable {waiting : CellMap Nat} {order wave : List Cell} (hg : g.Mirrored)

include hg

theorem Arranging.bounded (h : g.Arranging cells waiting order wave) (hagree : Agree cells waiting counts) :
    Bounded counts (wave.flatMap fun c => visit.list c (g.readers c)) := by
  intro r n hn
  have hwaits := hagree.waiting r
  rw [hn] at hwaits
  rw [count_nextWave, countP_readers hg (List.nodup_append.mp h.nodup).2.1]
  rcases Nat.eq_zero_or_pos n with rfl | hpos
  · -- a count at zero belongs to a cell whose precedents are all ordered before this wave
    have hw : r ∉ waiting := by simp [Std.ExtTreeMap.mem_iff_isSome_getElem?, hwaits]
    have hr : r ∈ order ++ wave := ((h.covers r).mp (hagree.mem_cells r 0 hn)).resolve_right hw
    rw [Nat.le_zero, List.countP_eq_zero]
    intro p hp hpw
    rw [decide_eq_true_eq] at hpw
    have hpc : p ∈ cells := (h.covers p).mpr (.inl (List.mem_append_right _ hpw))
    have hpo : p ∈ order := by
      rcases List.mem_append.mp hr with hr | hr
      · obtain ⟨i, hi⟩ := List.mem_iff_getElem?.mp hr
        exact List.mem_of_mem_take (h.behind i r hi p (Std.ExtTreeSet.mem_toList.mp hp) hpc)
      · exact h.ready r hr p (Std.ExtTreeSet.mem_toList.mp hp) hpc
    exact (List.nodup_append.mp h.nodup).2.2 p hpo p hpw rfl
  · have hcount := (h.counts r n (by simp [hwaits, hpos])).2
    rw [unordered_append h] at hcount
    omega

theorem Arranging.empties {reversed : List Cell} (h : g.Arranging cells waiting reversed.reverse wave)
    (hagree : Agree cells waiting counts) : ∃ ordered,
    (g.arrange visit waiting reversed wave).order = reversed.reverse ++ ordered ∧
      g.Empties visit ⟨counts, wave⟩ ordered := by
  revert counts
  fun_induction arrange g visit waiting reversed wave with
  | case1 waiting reversed wave queue hdone =>
      intro counts hagree
      obtain ⟨counts', -, hserve⟩ := hagree.empties_wave (q := ⟨waiting, []⟩) (h.bounded hg hagree)
      change ∀ order, g.Empties visit ⟨counts', queue.released.reverse⟩ order → _ at hserve
      rw [hdone] at hserve
      have hlast := hserve [] (.done counts')
      exact ⟨wave, by simp, by simpa using hlast⟩
  | case2 waiting reversed wave queue _ ih =>
      intro counts hagree
      simp only [List.unattach_reverse, List.unattach_attach] at ih
      have hnext := h.next visit hg
      obtain ⟨counts', hagree', hserve⟩ := hagree.empties_wave (q := ⟨waiting, []⟩) (h.bounded hg hagree)
      obtain ⟨ordered, horder, hempties⟩ := ih (by simpa using hnext) hagree'
      refine ⟨wave ++ ordered, by simpa using horder, ?_⟩
      simpa using hserve ordered hempties

def line (g : Graph) (cells : List Cell) : Line :=
  let counts := cells.map fun c => (c, g.precedentsWithin (.ofList cells) c)
  ⟨.ofList counts, (counts.filter fun p => p.2 = 0).map Prod.fst⟩

omit hg in
theorem agree_start (hcells : cells.Nodup) :
    Agree cells (.ofList ((cells.map fun c => (c, g.precedentsWithin (.ofList cells) c)).filter fun p => p.2 ≠ 0))
      (g.line cells).counts := by
  have hall := getElem?_ofList_counts hcells (g.precedentsWithin (.ofList cells)) fun _ => true
  have hwaiting := getElem?_ofList_counts hcells (g.precedentsWithin (.ofList cells)) fun n => n ≠ 0
  simp only [List.filter_true, and_true] at hall
  refine ⟨fun c => ?_, fun c n hn => ?_⟩
  · unfold line
    rw [hwaiting, hall]
    by_cases hc : c ∈ cells
    · simp [hc, Option.filter, Nat.pos_iff_ne_zero]
    · simp [hc]
  · unfold line at hn
    rw [hall] at hn
    by_contra hc
    simp [hc] at hn

theorem empties_schedule (hcells : cells.Nodup) : g.Empties visit (g.line cells) (g.schedule visit cells).order := by
  have hstart := g.arranging_start hcells
  rw [← List.reverse_nil] at hstart
  obtain ⟨ordered, horder, hempties⟩ := hstart.empties hg (agree_start hcells)
  rw [List.reverse_nil, List.nil_append] at horder
  unfold schedule
  rw [horder]
  exact hempties

end LiveSheet.Graph
