import LiveSheet.Proofs.Sheet.Graph

namespace LiveSheet

namespace Operation

def plainCell? : Operation → Option Cell
  | .enterText row column text => if Formula.isFormula text then none else Cell.at? row column
  | .enterValue row column _ => Cell.at? row column
  | _ => none

/-- The cell is emptied, given a formula, or read by one that is entered. -/
def TakesUp (c : Cell) : Operation → Prop
  | .enterText row column text => Formula.isFormula text = true ∧ ∃ d, Cell.at? row column = some d ∧
      (c = d ∨ c ∈ (Entry.ofFormulaText text).precedents)
  | .clear row column => Cell.at? row column = some c
  | .reset => True
  | _ => False

end Operation

namespace Sheet

/-- The formula of a cell gives way to a plain value, and no formula reads the cell, not even its own. -/
def Drops (s : Sheet) (o : Operation) (c : Cell) : Prop :=
  o.plainCell? = some c ∧ s.isFormula c = true ∧ ∀ d, ¬Entries.Reads s.entries d c

def LeftBehind (history : List Operation) (c : Cell) : Prop :=
  ∃ before o later, history = before ++ o :: later ∧ (after before).Drops o c ∧ ∀ next ∈ later, ¬next.TakesUp c

theorem after_concat (history : List Operation) (o : Operation) : after (history ++ [o]) = (after history).perform o := by
  simp [after]

theorem not_leftBehind_nil (c : Cell) : ¬LeftBehind [] c := by
  rintro ⟨before, o, later, h, -⟩
  simp at h

theorem leftBehind_concat {history : List Operation} {o : Operation} {c : Cell} : LeftBehind (history ++ [o]) c ↔
    LeftBehind history c ∧ ¬o.TakesUp c ∨ (after history).Drops o c := by
  constructor
  · rintro ⟨before, first, later, h, hdrops, hlater⟩
    rcases List.eq_nil_or_concat later with rfl | ⟨later, last, rfl⟩
    · obtain ⟨rfl, hfirst⟩ := List.append_inj' h rfl
      cases hfirst
      exact .inr hdrops
    · rw [List.concat_eq_append, ← List.cons_append, ← List.append_assoc] at h
      obtain ⟨rfl, hlast⟩ := List.append_inj' h rfl
      cases hlast
      refine .inl ⟨⟨before, first, later, rfl, hdrops, fun next hnext => hlater next (by simp [hnext])⟩, ?_⟩
      exact hlater _ (by simp)
  · rintro (⟨⟨before, first, later, rfl, hdrops, hlater⟩, ho⟩ | hdrops)
    · refine ⟨before, first, later ++ [o], by simp, hdrops, fun next hnext => ?_⟩
      rcases List.mem_append.mp hnext with hnext | hnext
      · exact hlater next hnext
      · rwa [List.mem_singleton.mp hnext]
    · exact ⟨history, o, [], rfl, hdrops, by simp⟩

variable {s : Sheet} {d x : Cell}

theorem mem_entries_of_isFormula (hd : s.isFormula d = true) : d ∈ s.entries := by
  obtain ⟨text, reading, he⟩ := isFormula_iff.mp hd
  simp [Std.ExtTreeMap.mem_iff_isSome_getElem?, he]

section Step

variable (h : Sound s)

include h

theorem readers_eq_empty_iff : s.graph.readers d = ∅ ↔ ∀ c, ¬Entries.Reads s.entries c d := by
  rw [Std.ExtTreeSet.eq_empty_iff_forall_not_mem]
  exact forall_congr' fun c => not_congr (feeds_iff h)

theorem not_isDetached_of_isFormula (hd : s.isFormula d = true) : ¬s.graph.isDetached d = true :=
  Graph.not_isDetached_of_holdsFormula ((h.holdsFormula d).mpr hd)

theorem not_isDetached_of_reads {c : Cell} (hd : Entries.Reads s.entries c d) : ¬s.graph.isDetached d = true :=
  Graph.not_isDetached_of_mem_readers ((feeds_iff h).mpr hd)

theorem isDetached_plain : (s.plain d).graph.isDetached x = true ↔
    s.graph.isDetached x = true ∨ x = d ∧ s.isFormula x = true ∧ ∀ c, ¬Entries.Reads s.entries c x := by
  unfold plain
  by_cases hx : x = d
  · subst hx
    by_cases hd : s.isFormula x = true
    · rw [if_pos hd, demote, Graph.isDetached_setPrecedents_self h.mirrored, readers_eq_empty_iff h]
      simp [hd, not_isDetached_of_isFormula h hd]
    · simp [hd]
  · by_cases hd : s.isFormula d = true
    · rw [if_pos hd, demote, Graph.isDetached_setPrecedents_of_ne h.mirrored _ _ hx]
      simp [hx]
    · simp [hd, hx]

theorem isDetached_enterValue (v : Value) : (s.enterValue d v).graph.isDetached x = true ↔
    s.graph.isDetached x = true ∨ x = d ∧ s.isFormula x = true ∧ ∀ c, ¬Entries.Reads s.entries c x := by
  by_cases hv : s.holdsValue d v = true
  · have hd : s.isFormula d = false := by
      unfold holdsValue at hv
      unfold isFormula
      split at hv
      · next he => simp [he, Entry.isFormula]
      · cases hv
    rw [enterValue, if_pos hv]
    refine ⟨.inl, fun hx => hx.resolve_right ?_⟩
    rintro ⟨rfl, hx, -⟩
    simp [hd] at hx
  · rw [enterValue_eq hv]
    exact isDetached_plain h

theorem isDetached_enterFormula (text : String) : (s.enterFormula d text).graph.isDetached x = true ↔
    s.graph.isDetached x = true ∧ ¬(x = d ∨ x ∈ (Entry.ofFormulaText text).precedents) := by
  unfold enterFormula
  by_cases ht : s.formulaText? d = some text
  · -- the cell reads already what its text reads
    obtain ⟨reading, he⟩ := formulaText?_eq_some_iff.mp ht
    rw [if_pos ht, h.parsed d text reading he]
    refine ⟨fun hx => ⟨hx, ?_⟩, And.left⟩
    rintro (rfl | hp)
    · exact not_isDetached_of_isFormula h (isFormula_iff.mpr ⟨text, reading, he⟩) hx
    · exact not_isDetached_of_reads h ⟨_, he, hp⟩ hx
  · rw [if_neg ht]
    by_cases hx : x = d
    · subst hx
      simp [Graph.isDetached_setPrecedents_self h.mirrored]
    · simp [Graph.isDetached_setPrecedents_of_ne h.mirrored _ _ hx, hx, and_comm]

theorem isDetached_clear (hentered : s.graph.isDetached d = true → d ∈ s.entries) :
    (s.clear d).graph.isDetached x = true ↔ s.graph.isDetached x = true ∧ x ≠ d := by
  by_cases hd : d ∈ s.entries
  · rw [clear_eq hd, Graph.isDetached_prune, isDetached_plain h]
    by_cases hx : x = d <;> simp [hx]
  · rw [clear, if_neg hd]
    refine ⟨fun hx => ⟨hx, ?_⟩, And.left⟩
    rintro rfl
    exact hd (hentered hx)

theorem isDetached_recalculate (visit : VisitOrder) :
    (s.recalculate visit).1.graph.isDetached x = true ↔ s.graph.isDetached x = true := by
  unfold recalculate
  split
  · rfl
  · have hedges := (refreshed_refresh h visit).content.edges
    rw [Graph.isDetached_iff_edges, Graph.isDetached_iff_edges, hedges.nodes, hedges.holdsFormula, hedges.precedents,
      hedges.readers]

theorem mem_entries_perform (o : Operation) (hx : x ∈ s.entries) (ho : ¬o.TakesUp x) : x ∈ (s.perform o).entries := by
  rw [Std.ExtTreeMap.mem_iff_isSome_getElem?] at hx ⊢
  have hvalue (d : Cell) (v : Value) : (s.enterValue d v).entries[x]?.isSome = true := by
    rw [getElem?_enterValue]
    split
    · rfl
    · exact hx
  cases o with
  | enterText row column text =>
      simp only [perform, enterTextAt, enterText]
      cases Cell.at? row column with
      | none => exact hx
      | some d =>
          by_cases ht : Formula.isFormula text = true
          · simp only [ht, if_true, getElem?_enterFormula]
            split
            · rfl
            · exact hx
          · simpa [ht] using hvalue d _
  | enterValue row column v =>
      simp only [perform, enterValueAt]
      cases Cell.at? row column with
      | none => exact hx
      | some d => exact hvalue d v
  | clear row column =>
      simp only [perform, clearAt]
      simp only [Operation.TakesUp] at ho
      cases hd : Cell.at? row column with
      | none => exact hx
      | some d =>
          rw [hd, Option.some.injEq] at ho
          simpa [getElem?_clear, Ne.symm ho] using hx
  | setRowCount rows =>
      simp only [perform, setRowCount]
      split <;> exact hx
  | reset => simp [Operation.TakesUp] at ho
  | recalculate visit =>
      rw [perform, (content_recalculate visit h).1]
      exact hx

def Entered (s : Sheet) : Prop := ∀ c, s.graph.isDetached c = true → c ∈ s.entries

variable (hentered : s.Entered)

include hentered

theorem isDetached_perform (o : Operation) : (s.perform o).graph.isDetached x = true ↔
    s.graph.isDetached x = true ∧ ¬o.TakesUp x ∨ s.Drops o x := by
  unfold Drops
  cases o with
  | enterText row column text =>
      simp only [perform, enterTextAt, enterText, Operation.TakesUp, Operation.plainCell?]
      cases hc : Cell.at? row column with
      | none => simp
      | some c =>
          by_cases ht : Formula.isFormula text = true
          · simp [ht, isDetached_enterFormula h]
          · simp [ht, isDetached_enterValue h, eq_comm (a := c)]
  | enterValue row column v =>
      simp only [perform, enterValueAt, Operation.TakesUp, Operation.plainCell?]
      cases hc : Cell.at? row column with
      | none => simp
      | some c => simp [isDetached_enterValue h, eq_comm (a := c)]
  | clear row column =>
      simp only [perform, clearAt, Operation.TakesUp, Operation.plainCell?]
      cases hc : Cell.at? row column with
      | none => simp
      | some c => simp [isDetached_clear h (hentered c), eq_comm (a := c)]
  | setRowCount rows =>
      simp only [perform, setRowCount, Operation.TakesUp, Operation.plainCell?]
      split <;> simp
  | reset => simp [perform, empty, Operation.TakesUp, Operation.plainCell?]
  | recalculate visit => simp [perform, isDetached_recalculate h, Operation.TakesUp, Operation.plainCell?]

theorem entered_perform (o : Operation) : (s.perform o).Entered := by
  intro c hc
  rcases (isDetached_perform h hentered o).mp hc with ⟨hc, ho⟩ | ⟨hplain, hc, -⟩
  · exact mem_entries_perform h o (hentered c hc) ho
  · refine mem_entries_perform h o (mem_entries_of_isFormula hc) ?_
    cases o <;> simp_all [Operation.plainCell?, Operation.TakesUp]

end Step

theorem entered_empty : Entered .empty := by
  intro c hc
  simp [empty] at hc

theorem entered_after (history : List Operation) : (after history).Entered := by
  induction history using List.reverseRecOn with
  | nil => exact entered_empty
  | append_singleton history o ih =>
      rw [after_concat]
      exact entered_perform (keeps_after history).sound ih o

theorem isDetached_after (history : List Operation) (c : Cell) :
    (after history).graph.isDetached c = true ↔ LeftBehind history c := by
  induction history using List.reverseRecOn with
  | nil => simp [not_leftBehind_nil, after, empty]
  | append_singleton history o ih =>
      rw [after_concat, isDetached_perform (keeps_after history).sound (entered_after history), leftBehind_concat, ih]

def formulaCells (s : Sheet) : List Cell := s.entries.keys.filter s.isFormula

def referenced (s : Sheet) : CellSet := .ofList (s.entries.toList.flatMap fun p => p.2.precedents)

theorem mem_formulaCells {c : Cell} : c ∈ s.formulaCells ↔ s.isFormula c = true := by
  rw [formulaCells, List.mem_filter, Std.ExtTreeMap.mem_keys]
  exact and_iff_right_of_imp mem_entries_of_isFormula

theorem mem_referenced {c : Cell} : c ∈ s.referenced ↔ ∃ d, Entries.Reads s.entries d c := by
  unfold referenced Entries.Reads
  simp [Std.ExtTreeMap.mem_toList_iff_getElem?_eq_some]

theorem mem_nodes_iff (h : Sound s) {c : Cell} :
    c ∈ s.graph.nodes ↔ c ∈ s.formulaCells ∨ c ∈ s.referenced ∨ s.graph.isDetached c = true := by
  rw [mem_formulaCells, mem_referenced, Graph.isDetached_iff_edges, h.holdsFormula, readers_eq_empty_iff h]
  constructor
  · intro hc
    by_cases hf : s.isFormula c = true
    · exact .inl hf
    by_cases hread : ∃ d, Entries.Reads s.entries d c
    · exact .inr (.inl hread)
    exact .inr (.inr ⟨hc, hf, h.precedents_eq_empty hf, not_exists.mp hread⟩)
  · rintro (hf | ⟨d, hd⟩ | ⟨hc, -⟩)
    · exact Graph.mem_nodes_of_holdsFormula ((h.holdsFormula c).mpr hf)
    · exact Graph.mem_nodes_of_feeds ((feeds_iff h).mpr hd)
    · exact hc

theorem nodeCount_le {left : List Cell}
    (hnodes : ∀ c ∈ s.graph.nodes, c ∈ s.formulaCells ∨ c ∈ s.referenced ∨ c ∈ left) :
    s.graph.nodeCount ≤ s.formulaCells.length + s.referenced.size + left.length := by
  have hsubset : s.graph.nodes.keys ⊆ s.formulaCells ++ s.referenced.toList ++ left := by
    intro c hc
    simpa [or_assoc] using hnodes c (Std.ExtTreeMap.mem_keys.mp hc)
  have hlength := (Std.ExtTreeMap.nodup_keys.subperm hsubset).length_le
  simpa [Graph.nodeCount, Nat.add_assoc] using hlength

/-- A node is of a formula, of a cell that formulas read, or of a plain value that took the place of an unread formula. -/
theorem nodes_of_formulas (history : List Operation) :
    let s := after history
    (∀ c, c ∈ s.graph.nodes ↔ c ∈ s.formulaCells ∨ c ∈ s.referenced ∨ LeftBehind history c) ∧
      (∀ c, LeftBehind history c → c ∈ s.entries ∧ c ∉ s.formulaCells ∧ c ∉ s.referenced) ∧
      ∀ left : List Cell, (∀ c, LeftBehind history c → c ∈ left) →
        s.graph.nodeCount ≤ s.formulaCells.length + s.referenced.size + left.length := by
  intro s
  have h : Sound s := (keeps_after history).sound
  have hnodes (c : Cell) : c ∈ s.graph.nodes ↔ c ∈ s.formulaCells ∨ c ∈ s.referenced ∨ LeftBehind history c := by
    rw [mem_nodes_iff h, isDetached_after]
  refine ⟨hnodes, fun c hc => ?_, fun left hleft => nodeCount_le fun c hc => ?_⟩
  · have hdetached := (isDetached_after history c).mpr hc
    rw [mem_formulaCells, mem_referenced]
    exact ⟨entered_after history c hdetached, fun hf => not_isDetached_of_isFormula h hf hdetached,
      fun ⟨d, hd⟩ => not_isDetached_of_reads h hd hdetached⟩
  · exact ((hnodes c).mp hc).imp_right (Or.imp_right (hleft c))

theorem nodes_of_formulas_behind_values :
    let history : List Operation := [.enterText 0 0 "=1", .enterText 0 0 "1", .enterText 0 1 "=2", .enterText 0 1 "2",
      .enterText 0 2 "=B1"]
    let s := after history
    (∀ c, LeftBehind history c → c ∈ [⟨0, 0⟩]) ∧
      s.graph.nodeCount ≤ s.formulaCells.length + s.referenced.size + [(⟨0, 0⟩ : Cell)].length := by
  intro history s
  obtain ⟨hnodes, hapart, hcount⟩ := nodes_of_formulas history
  have hkeys : s.graph.nodes.keys = [⟨0, 0⟩, ⟨0, 1⟩, ⟨0, 2⟩] := by decide +kernel
  have hread : (⟨0, 1⟩ : Cell) ∈ s.referenced := by decide +kernel
  have hformula : (⟨0, 2⟩ : Cell) ∈ s.formulaCells := by decide +kernel
  have hleft (c : Cell) (hc : LeftBehind history c) : c ∈ [⟨0, 0⟩] := by
    have hnode : c ∈ s.graph.nodes.keys := Std.ExtTreeMap.mem_keys.mpr ((hnodes c).mpr (.inr (.inr hc)))
    rw [hkeys, List.mem_cons, List.mem_cons, List.mem_singleton] at hnode
    rcases hnode with rfl | rfl | rfl
    · exact List.mem_singleton.mpr rfl
    · exact absurd hread (hapart _ hc).2.2
    · exact absurd hformula (hapart _ hc).2.1
  exact ⟨hleft, hcount _ hleft⟩

theorem node_left_behind :
    let s := after [.enterText 0 0 "=1", .enterText 0 0 "1"]
    (⟨0, 0⟩ : Cell) ∈ s.graph.nodes ∧ ⟨0, 0⟩ ∉ s.formulaCells ∧ (⟨0, 0⟩ : Cell) ∉ s.referenced ∧
      ¬s.graph.nodeCount ≤ s.formulaCells.length + s.referenced.size := by
  decide +kernel

end Sheet

end LiveSheet
