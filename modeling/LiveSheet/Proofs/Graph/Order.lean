import LiveSheet.Proofs.Graph.Reached

namespace LiveSheet.Graph

namespace Queue

variable (cells : List Cell) (q : Queue) {c : Cell}

theorem getElem?_waiting_advance (r : Cell) : (q.advance r).waiting[c]? =
    if r = c then q.waiting[c]?.bind fun n => if 1 < n then some (n - 1) else none else q.waiting[c]? := by
  unfold advance
  by_cases h : r = c
  · subst h
    cases hn : q.waiting[r]? with
    | none => simp [hn]
    | some n =>
        by_cases hle : n ≤ 1
        · simp [hle]
        · simp [hle, Nat.lt_of_not_le hle]
  · cases q.waiting[r]? with
    | none => simp [h]
    | some n =>
        by_cases hle : n ≤ 1
        · simp [hle, h, Std.ExtTreeMap.getElem?_erase]
        · simp [hle, h, Std.ExtTreeMap.getElem?_insert]

theorem mem_released_advance (r : Cell) : c ∈ (q.advance r).released ↔
    c ∈ q.released ∨ r = c ∧ ∃ n, q.waiting[c]? = some n ∧ n ≤ 1 := by
  unfold advance
  cases hn : q.waiting[r]? with
  | none =>
      refine ⟨.inl, fun h => h.elim id ?_⟩
      rintro ⟨rfl, n, hc, -⟩
      simp [hn] at hc
  | some n =>
      by_cases hle : n ≤ 1
      · simp only [hle, if_true, List.mem_cons]
        constructor
        · rintro (rfl | h)
          · exact .inr ⟨rfl, n, hn, hle⟩
          · exact .inl h
        · rintro (h | ⟨rfl, -⟩)
          · exact .inr h
          · exact .inl rfl
      · simp only [hle, if_false]
        refine ⟨.inl, fun h => h.elim id ?_⟩
        rintro ⟨rfl, m, hm, hm'⟩
        rw [hn] at hm
        cases hm
        exact absurd hm' hle

theorem getElem?_waiting_foldl_advance (hpos : ∀ n, q.waiting[c]? = some n → 0 < n) :
    (cells.foldl advance q).waiting[c]? =
      q.waiting[c]?.bind fun n => if cells.count c < n then some (n - cells.count c) else none := by
  induction cells generalizing q with
  | nil =>
      cases hn : q.waiting[c]? with
      | none => simp [hn]
      | some n => simp [hn, hpos n hn]
  | cons r cells ih =>
      have hstep := q.getElem?_waiting_advance (c := c) r
      rw [List.foldl_cons, ih, hstep]
      · by_cases h : r = c
        · subst h
          cases hn : q.waiting[r]? with
          | none => simp
          | some n =>
              by_cases hlt : 1 < n
              · simp only [if_true, Option.bind_some, hlt, List.count_cons_self]
                have : cells.count r < n - 1 ↔ cells.count r + 1 < n := by omega
                simp only [this, Nat.sub_sub, Nat.add_comm]
              · simp only [if_true, Option.bind_some, hlt, if_false, Option.bind_none, List.count_cons_self]
                rw [if_neg (by omega)]
        · rw [if_neg h, List.count_cons_of_ne h]
      · intro n hn
        rw [hstep] at hn
        split at hn
        · cases hm : q.waiting[c]? with
          | none => simp [hm] at hn
          | some m =>
              simp only [hm, Option.bind_some, Option.ite_none_right_eq_some, Option.some.injEq] at hn
              omega
        · exact hpos n hn

theorem mem_released_foldl_advance (hpos : ∀ n, q.waiting[c]? = some n → 0 < n) :
    c ∈ (cells.foldl advance q).released ↔
      c ∈ q.released ∨ ∃ n, q.waiting[c]? = some n ∧ n ≤ cells.count c := by
  induction cells generalizing q with
  | nil =>
      refine ⟨.inl, fun h => h.elim id ?_⟩
      rintro ⟨n, hn, hle⟩
      exact absurd (hpos n hn) (Nat.not_lt.mpr hle)
  | cons r cells ih =>
      have hstep := q.getElem?_waiting_advance (c := c) r
      rw [List.foldl_cons, ih, mem_released_advance, hstep]
      · by_cases h : r = c
        · subst h
          cases hn : q.waiting[r]? with
          | none => simp
          | some n =>
              have hn0 := hpos n hn
              by_cases hlt : 1 < n
              · have hle : ¬n ≤ 1 := Nat.not_le.mpr hlt
                simp [hlt, hle, List.count_cons_self]
              · have hle : n ≤ 1 := Nat.not_lt.mp hlt
                have hcount : n ≤ cells.count r + 1 := by omega
                simp [hlt, hle, hcount, List.count_cons_self]
        · simp [h, List.count_cons_of_ne h]
      · intro n hn
        rw [hstep] at hn
        split at hn
        · cases hm : q.waiting[c]? with
          | none => simp [hm] at hn
          | some m =>
              simp only [hm, Option.bind_some, Option.ite_none_right_eq_some, Option.some.injEq] at hn
              omega
        · exact hpos n hn

theorem nodup_foldl_advance (hq : q.released.Nodup) (hd : ∀ c ∈ q.released, q.waiting[c]? = none) :
    (cells.foldl advance q).released.Nodup := by
  induction cells generalizing q with
  | nil => exact hq
  | cons r cells ih =>
      have hkept : ∀ c ∈ q.released, (q.advance r).waiting[c]? = none := by
        intro c hc
        rw [getElem?_waiting_advance, hd c hc]
        simp
      rw [List.foldl_cons]
      apply ih
      · unfold advance
        split
        · exact hq
        · next n hn =>
            split
            · refine List.nodup_cons.mpr ⟨fun h => ?_, hq⟩
              simp [hd r h] at hn
            · exact hq
      · intro c hc
        rcases (mem_released_advance q r).mp hc with hc | ⟨rfl, n, hn, hle⟩
        · exact hkept c hc
        · rw [getElem?_waiting_advance, if_pos rfl, hn]
          simp [Nat.not_lt.mpr hle]

end Queue

variable (g : Graph) (visit : VisitOrder)

theorem count_nextWave (wave : List Cell) (r : Cell) :
    (wave.flatMap fun c => visit.list c (g.readers c)).count r = wave.countP fun c => r ∈ g.readers c := by
  induction wave with
  | nil => rfl
  | cons c wave ih =>
      rw [List.flatMap_cons, List.count_append, ih, List.countP_cons, Nat.add_comm]
      by_cases hr : r ∈ g.readers c
      · rw [List.count_eq_one_of_mem (visit.nodup_list c _) (visit.mem_list.mpr hr)]
        simp [hr]
      · rw [List.count_eq_zero_of_not_mem fun h => hr (visit.mem_list.mp h)]
        simp [hr]

theorem countP_mem_comm {xs ys : List Cell} (hx : xs.Nodup) (hy : ys.Nodup) :
    xs.countP (· ∈ ys) = ys.countP (· ∈ xs) := by
  rw [List.countP_eq_length_filter, List.countP_eq_length_filter]
  apply List.Perm.length_eq
  rw [List.perm_ext_iff_of_nodup (hx.filter _) (hy.filter _)]
  intro c
  simp [and_comm]

def Behind (cells order : List Cell) : Prop :=
  ∀ i c, order[i]? = some c → ∀ p ∈ g.precedents c, p ∈ cells → p ∈ order.take i

def unordered (cells order : List Cell) (c : Cell) : Nat :=
  (g.precedents c).toList.countP fun p => p ∈ cells ∧ p ∉ order

structure Arranging (cells : List Cell) (waiting : CellMap Nat) (order wave : List Cell) : Prop where
  nodup : (order ++ wave).Nodup
  covers : ∀ c, c ∈ cells ↔ c ∈ order ++ wave ∨ c ∈ waiting
  apart : ∀ c ∈ waiting, c ∉ order ++ wave
  behind : g.Behind cells order
  ready : ∀ c ∈ wave, ∀ p ∈ g.precedents c, p ∈ cells → p ∈ order
  counts : ∀ c n, waiting[c]? = some n → 0 < n ∧ n = g.unordered cells order c

variable {g} {cells : List Cell} {waiting : CellMap Nat} {order wave : List Cell}

theorem behind_append (h : g.Behind cells order)
    (hw : ∀ c ∈ wave, ∀ p ∈ g.precedents c, p ∈ cells → p ∈ order) : g.Behind cells (order ++ wave) := by
  intro i c hc p hp hpc
  by_cases hi : i < order.length
  · rw [List.getElem?_append_left hi] at hc
    rw [List.take_append_of_le_length (Nat.le_of_lt hi)]
    exact h i c hc p hp hpc
  · rw [List.getElem?_append_right (Nat.le_of_not_lt hi)] at hc
    have hmem := hw c (List.mem_of_getElem? hc) p hp hpc
    rw [List.take_append, List.take_of_length_le (Nat.le_of_not_lt hi)]
    exact List.mem_append_left _ hmem

theorem countP_readers (hg : g.Mirrored) (hw : wave.Nodup) (c : Cell) :
    (wave.countP fun w => c ∈ g.readers w) = (g.precedents c).toList.countP (· ∈ wave) := by
  have hp : (g.precedents c).toList.Nodup := by
    simpa [List.Nodup] using (g.precedents c).distinct_toList
  rw [countP_mem_comm hp hw]
  simp only [hg c, Std.ExtTreeSet.mem_toList]

theorem unordered_append (h : g.Arranging cells waiting order wave) (c : Cell) :
    g.unordered cells order c =
      (g.precedents c).toList.countP (· ∈ wave) + g.unordered cells (order ++ wave) c := by
  unfold unordered
  induction (g.precedents c).toList with
  | nil => rfl
  | cons p ps ih =>
      simp only [List.countP_cons, ih]
      by_cases hw : p ∈ wave
      · have hc : p ∈ cells := (h.covers p).mpr (.inl (List.mem_append_right _ hw))
        have ho : p ∉ order := fun ho => (List.nodup_append.mp h.nodup).2.2 p ho p hw rfl
        simp [hw, hc, ho]
        omega
      · simp [hw]
        omega

variable (hg : g.Mirrored)

include hg

theorem Arranging.waiting_release (h : g.Arranging cells waiting order wave) (c : Cell) :
    (g.release visit waiting wave).waiting[c]? = waiting[c]?.bind fun _ =>
      if 0 < g.unordered cells (order ++ wave) c then some (g.unordered cells (order ++ wave) c) else none := by
  unfold release
  rw [Queue.getElem?_waiting_foldl_advance _ _ fun n hn => (h.counts c n hn).1, count_nextWave,
    countP_readers hg (List.nodup_append.mp h.nodup).2.1]
  cases hn : waiting[c]? with
  | none => rfl
  | some n =>
      have hcount := (h.counts c n hn).2
      rw [unordered_append h] at hcount
      simp only [Option.bind_some, hcount, Nat.add_sub_cancel_left]
      congr 1
      exact propext (by omega)

theorem Arranging.mem_released (h : g.Arranging cells waiting order wave) (c : Cell) :
    c ∈ (g.release visit waiting wave).released ↔ c ∈ waiting ∧ g.unordered cells (order ++ wave) c = 0 := by
  unfold release
  rw [Queue.mem_released_foldl_advance _ _ fun n hn => (h.counts c n hn).1, count_nextWave,
    countP_readers hg (List.nodup_append.mp h.nodup).2.1, Std.ExtTreeMap.mem_iff_isSome_getElem?]
  cases hn : waiting[c]? with
  | none => simp
  | some n =>
      have hcount := (h.counts c n hn).2
      rw [unordered_append h] at hcount
      simp
      omega

theorem Arranging.mem_waiting (h : g.Arranging cells waiting order wave) (c : Cell) :
    c ∈ (g.release visit waiting wave).waiting ↔ c ∈ waiting ∧ 0 < g.unordered cells (order ++ wave) c := by
  rw [Std.ExtTreeMap.mem_iff_isSome_getElem?, h.waiting_release visit hg, Std.ExtTreeMap.mem_iff_isSome_getElem?]
  cases waiting[c]? with
  | none => simp
  | some n => by_cases h0 : 0 < g.unordered cells (order ++ wave) c <;> simp [h0]

theorem Arranging.next (h : g.Arranging cells waiting order wave) :
    g.Arranging cells (g.release visit waiting wave).waiting (order ++ wave)
      (g.release visit waiting wave).released.reverse := by
  have hreleased := h.mem_released visit hg
  have hwaiting := h.mem_waiting visit hg
  refine ⟨?_, fun c => ?_, fun c hc => ?_, behind_append h.behind h.ready, fun c hc p hp hpc => ?_, ?_⟩
  · rw [List.nodup_append]
    refine ⟨h.nodup, List.nodup_reverse.mpr (Queue.nodup_foldl_advance _ _ List.nodup_nil (by simp)), ?_⟩
    rintro c hc _ hr rfl
    exact h.apart c ((hreleased c).mp (List.mem_reverse.mp hr)).1 hc
  · rw [h.covers c, List.mem_append (s := order ++ wave), List.mem_reverse, hreleased, hwaiting]
    by_cases hw : c ∈ waiting
    · by_cases h0 : g.unordered cells (order ++ wave) c = 0
      · simp [hw, h0]
      · simp [hw, h0, Nat.pos_of_ne_zero h0]
    · simp [hw]
  · obtain ⟨hw, hpos⟩ := (hwaiting c).mp hc
    rw [List.mem_append (s := order ++ wave), List.mem_reverse, hreleased]
    rintro (ho | ⟨-, h0⟩)
    · exact h.apart c hw ho
    · omega
  · have h0 := ((hreleased c).mp (List.mem_reverse.mp hc)).2
    unfold unordered at h0
    by_contra hpo
    rw [List.countP_eq_zero] at h0
    exact h0 p (Std.ExtTreeSet.mem_toList.mpr hp) (by simpa using ⟨hpc, by simpa using hpo⟩)
  · intro c n hn
    rw [h.waiting_release visit hg] at hn
    cases hm : waiting[c]? with
    | none => simp [hm] at hn
    | some m =>
        simp only [hm, Option.bind_some, Option.ite_none_right_eq_some, Option.some.injEq] at hn
        omega

omit hg

structure Scheduled (g : Graph) (cells : List Cell) (s : Schedule) : Prop where
  nodup : s.order.Nodup
  covers : ∀ c, c ∈ cells ↔ c ∈ s.order ∨ c ∈ s.cyclic
  apart : ∀ c ∈ s.cyclic, c ∉ s.order
  behind : g.Behind cells s.order
  stuck : ∀ c ∈ s.cyclic, ∃ p ∈ g.precedents c, p ∈ s.cyclic

include hg

theorem scheduled_arrange {reversed : List Cell} (h : g.Arranging cells waiting reversed.reverse wave) :
    g.Scheduled cells (g.arrange visit waiting reversed wave) := by
  fun_induction arrange g visit waiting reversed wave with
  | case1 waiting reversed wave queue hdone =>
      have hwaiting := h.mem_waiting visit hg
      have hnext := h.next visit hg
      have hall (c : Cell) : c ∈ cells ↔ c ∈ reversed.reverse ++ wave ∨ c ∈ queue.waiting := by
        have := hnext.covers c
        rwa [show (g.release visit waiting wave).released = [] from hdone, List.reverse_nil,
          List.append_nil] at this
      rw [List.reverse_append, List.reverse_reverse]
      refine ⟨h.nodup, fun c => ?_, fun c hc => ?_, behind_append h.behind h.ready, fun c hc => ?_⟩
      · rw [hall c, Std.ExtTreeMap.mem_keys]
      · exact h.apart c ((hwaiting c).mp (Std.ExtTreeMap.mem_keys.mp hc)).1
      · obtain ⟨-, hpos⟩ := (hwaiting c).mp (Std.ExtTreeMap.mem_keys.mp hc)
        obtain ⟨p, hp, hpc⟩ := List.countP_pos_iff.mp hpos
        simp only [decide_eq_true_eq] at hpc
        refine ⟨p, Std.ExtTreeSet.mem_toList.mp hp, Std.ExtTreeMap.mem_keys.mpr ?_⟩
        exact ((hall p).mp hpc.1).resolve_left hpc.2
  | case2 waiting reversed wave queue _ ih =>
      simp only [List.unattach_reverse, List.unattach_attach] at ih
      apply ih
      rw [List.reverse_append, List.reverse_reverse]
      exact h.next visit hg

omit hg in
theorem getElem?_ofList_counts (hcells : cells.Nodup) (count : Cell → Nat) (p : Nat → Bool) (c : Cell) :
    (.ofList ((cells.map fun d => (d, count d)).filter fun e => p e.2) : CellMap Nat)[c]? =
      if c ∈ cells ∧ p (count c) then some (count c) else none := by
  split
  · next h =>
      apply Std.ExtTreeMap.getElem?_ofList_of_mem Std.ReflCmp.compare_self
      · have hkeys : ((cells.map fun d => (d, count d)).map Prod.fst).Nodup := by
          simpa [Function.comp_def] using hcells
        simpa [List.Nodup, List.pairwise_map] using hkeys.sublist (List.filter_sublist.map Prod.fst)
      · simpa using h
  · next h =>
      apply Std.ExtTreeMap.getElem?_ofList_of_contains_eq_false
      simpa using h

omit hg in
theorem arranging_start (hcells : cells.Nodup) :
    let counts := cells.map fun c => (c, g.precedentsWithin (.ofList cells) c)
    g.Arranging cells (.ofList (counts.filter fun p => p.2 ≠ 0)) []
      ((counts.filter fun p => p.2 = 0).map Prod.fst) := by
  intro counts
  have hcount (c : Cell) : g.precedentsWithin (.ofList cells) c = g.unordered cells [] c := by
    unfold precedentsWithin unordered
    congr 1
    funext p
    simp
  have hwave (c : Cell) : c ∈ (counts.filter fun p => p.2 = 0).map Prod.fst ↔
      c ∈ cells ∧ g.unordered cells [] c = 0 := by
    simp [counts, hcount]
  have hwaiting (c : Cell) : c ∈ (.ofList (counts.filter fun p => p.2 ≠ 0) : CellMap Nat) ↔
      c ∈ cells ∧ g.unordered cells [] c ≠ 0 := by
    simp [counts, hcount]
  have hkeys : (counts.map Prod.fst).Nodup := by
    simpa [counts, Function.comp_def] using hcells
  refine ⟨?_, fun c => ?_, fun c hc => ?_, ?_, fun c hc p hp hpc => ?_, fun c n hn => ?_⟩
  · exact hkeys.sublist (List.filter_sublist.map _)
  · rw [List.nil_append, hwave, hwaiting]
    tauto
  · rw [List.nil_append, hwave]
    exact fun h => ((hwaiting c).mp hc).2 h.2
  · intro i c hc
    simp at hc
  · have h0 := ((hwave c).mp hc).2
    unfold unordered at h0
    rw [List.countP_eq_zero] at h0
    exact absurd (by simpa using hpc) (h0 p (Std.ExtTreeSet.mem_toList.mpr hp))
  · obtain ⟨hc, h0⟩ := (hwaiting c).mp (Std.ExtTreeMap.mem_iff_isSome_getElem?.mpr (by rw [hn]; rfl))
    have hlookup := getElem?_ofList_counts hcells (g.precedentsWithin (.ofList cells)) (fun n => n ≠ 0) c
    rw [if_pos ⟨hc, by simpa [hcount] using h0⟩, hcount] at hlookup
    rw [hlookup] at hn
    cases hn
    exact ⟨Nat.pos_of_ne_zero h0, rfl⟩

theorem scheduled_schedule (hcells : cells.Nodup) : g.Scheduled cells (g.schedule visit cells) :=
  scheduled_arrange visit hg (arranging_start hcells)

end LiveSheet.Graph
