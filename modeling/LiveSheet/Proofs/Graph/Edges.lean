import LiveSheet.Proofs.Graph.Scheduling

namespace LiveSheet.Graph

def Filed (g : Graph) : Prop := g.Each fun c n => n.cell = c

theorem unwired_cell : Unwired fun c n => n.cell = c := ⟨fun _ => rfl, fun _ _ _ _ _ h => h⟩

theorem filed_empty : empty.Filed := by
  intro c n hn
  simp [empty, node?] at hn

theorem filed_foldl_mark {g : Graph} (h : g.Filed) (f : Freshness → Freshness) (cells : List Cell) :
    (cells.foldl (mark f) g).Filed := by
  induction cells generalizing g with
  | nil => exact h
  | cons c cells ih => exact ih (each_adjust h fun _ hn => hn)

theorem filed_markChanged {g : Graph} (h : g.Filed) (visit : VisitOrder) (edited : List Cell) :
    (g.markChanged visit edited).1.Filed :=
  filed_foldl_mark (filed_foldl_mark h (fun _ => .stale) edited) Freshness.doubted (g.reached visit edited)

theorem filed_perform {g : Graph} (h : g.Filed) (change : Change) : (g.perform change).Filed := by
  cases change with
  | setPrecedents c role precedents => exact each_setPrecedents unwired_cell h role precedents
  | link c reader => exact each_link unwired_cell h
  | unlink c reader => exact each_unlink unwired_cell h
  | prune c => exact each_prune h c
  | markChanged visit edited => exact filed_markChanged h visit edited
  | setFresh c => exact each_adjust h fun _ hn => hn
  | clear => exact filed_empty

theorem filed_after (history : List Change) : (after history).Filed := by
  have hrun (g : Graph) (h : g.Filed) : (history.foldl perform g).Filed := by
    induction history generalizing g with
    | nil => exact h
    | cons change history ih => exact ih _ (filed_perform h change)
  exact hrun .empty filed_empty

/-- A cell has a role and reads the given cells, and all other edges are as they were. Its node is gone only where nothing
is left of it: it read itself, and that was the last edge of an input. -/
structure Rewired (g new : Graph) (c : Cell) (role : Role) (ps : List Cell) : Prop where
  node : ∀ n, new.node? c = some n → n.role = role ∧ ∀ p, p ∈ n.precedents ↔ p ∈ ps
  gone : new.node? c = none ↔ role = .input ∧ ps = [] ∧ c ∈ g.precedents c ∧ ∀ r ∈ g.readers c, r = c
  precedents : ∀ r p, r ≠ c → (p ∈ new.precedents r ↔ p ∈ g.precedents r)
  readers : ∀ r p, r ≠ c → (r ∈ new.readers p ↔ r ∈ g.readers p)

theorem rewired_setPrecedents (g : Graph) (c : Cell) (role : Role) (ps : List Cell) :
    g.Rewired (g.setPrecedents c role ps) c role ps := by
  refine ⟨fun n hn => ⟨?_, fun p => ?_⟩, node?_setPrecedents_eq_none_iff role ps, fun r p hr => ?_, fun r p hr => ?_⟩
  · have hformula := holdsFormula_setPrecedents (g := g) c c role ps
    simp only [HoldsFormula, hn, Option.some.injEq, exists_eq_left', if_true] at hformula
    cases hrole : n.role <;> cases role <;> simp_all
  · have hread := mem_precedents_setPrecedents (g := g) c c role ps (y := p)
    simpa [precedents, hn] using hread
  · rw [mem_precedents_setPrecedents, if_neg hr]
  · rw [setPrecedents_eq, mem_readers_foldl_link, mem_readers_foldl_forget, readers_cut]
    simp [Ne.symm hr]

/-- Both ends of every edge agree, and an exchange of precedents touches the edges of one cell alone. -/
theorem edges_agree (history : List Change) :
    let g := after history
    (∀ p r, p ∈ g.precedents r ↔ r ∈ g.readers p) ∧
      (∀ p r, p ∈ g.precedents r → p ∈ g.nodes ∧ r ∈ g.nodes) ∧
      (∀ c n, g.node? c = some n → n.cell = c) ∧
      ∀ c role ps, g.Rewired (g.setPrecedents c role ps) c role ps := by
  intro g
  have hmirrored : g.Mirrored := mirrored_after history
  refine ⟨fun p r => (hmirrored r p).symm, fun p r hp => ⟨?_, mem_nodes_of_reads hp⟩, filed_after history,
    rewired_setPrecedents g⟩
  exact mem_nodes_of_feeds ((hmirrored r p).mpr hp)

end LiveSheet.Graph
