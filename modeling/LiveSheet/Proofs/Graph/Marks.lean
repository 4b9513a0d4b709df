import LiveSheet.Proofs.Graph.Nodes
import LiveSheet.Proofs.Graph.Reached

namespace LiveSheet

def Node.mark (f : Freshness → Freshness) (n : Node) : Node := { n with freshness := f n.freshness }

namespace Graph

def Rested (g : Graph) : Prop := ∀ c, g.freshness c = .fresh

section Edges

variable {g : Graph}

theorem rested_iff : g.Rested ↔ g.Each fun _ n => n.freshness = .fresh := by
  constructor
  · intro h c n hn
    have hc := h c
    simpa [freshness, hn] using hc
  · intro h c
    unfold freshness
    cases hn : g.node? c with
    | none => rfl
    | some n => exact h c n hn

theorem unwired_fresh : Unwired fun _ n => n.freshness = .fresh := ⟨fun _ => rfl, fun _ _ _ _ _ h => h⟩

variable (h : g.Rested) (c : Cell)

include h

theorem rested_prune : (g.prune c).Rested := rested_iff.mpr (each_prune (rested_iff.mp h) c)

theorem rested_setPrecedents (role : Role) (ps : List Cell) : (g.setPrecedents c role ps).Rested :=
  rested_iff.mpr (each_setPrecedents unwired_fresh (rested_iff.mp h) role ps)

end Edges

structure SameEdges (g g' : Graph) : Prop where
  nodes : ∀ c, c ∈ g'.nodes ↔ c ∈ g.nodes
  precedents : ∀ c, g'.precedents c = g.precedents c
  readers : ∀ c, g'.readers c = g.readers c
  holdsFormula : ∀ c, g'.HoldsFormula c ↔ g.HoldsFormula c

theorem SameEdges.refl (g : Graph) : SameEdges g g :=
  ⟨fun _ => .rfl, fun _ => rfl, fun _ => rfl, fun _ => .rfl⟩

theorem SameEdges.trans {g g' g'' : Graph} (h : SameEdges g g') (k : SameEdges g' g'') : SameEdges g g'' :=
  ⟨fun c => (k.nodes c).trans (h.nodes c), fun c => (k.precedents c).trans (h.precedents c),
    fun c => (k.readers c).trans (h.readers c), fun c => (k.holdsFormula c).trans (h.holdsFormula c)⟩

theorem SameEdges.mirrored {g g' : Graph} (h : SameEdges g g') (hg : g.Mirrored) : g'.Mirrored := by
  intro c d
  rw [h.readers, h.precedents]
  exact hg c d

variable (g : Graph) (c x : Cell)

def mark (f : Freshness → Freshness) (g : Graph) (c : Cell) : Graph :=
  g.adjust c fun n => { n with freshness := f n.freshness }

theorem setFreshness_eq (f : Freshness) : setFreshness f = mark fun _ => f := rfl

theorem doubt_eq : doubt = mark Freshness.doubted := rfl

variable (f : Freshness → Freshness)

theorem node?_mark : (g.mark f c).node? x = if c = x then (g.node? x).map (Node.mark f) else g.node? x := by
  unfold mark
  rw [node?_adjust]
  split
  · next h =>
      subst h
      rfl
  · rfl

theorem sameEdges_mark : SameEdges g (g.mark f c) := by
  unfold mark
  refine ⟨fun x => ?_, fun x => ?_, fun x => ?_, fun x => ?_⟩
  · simp [adjust, Std.ExtTreeMap.mem_modify]
  · unfold precedents
    rw [node?_adjust]
    split
    · next h =>
        subst h
        cases g.node? c <;> rfl
    · rfl
  · unfold readers
    rw [node?_adjust]
    split
    · next h =>
        subst h
        cases g.node? c <;> rfl
    · rfl
  · unfold HoldsFormula
    rw [node?_adjust]
    split
    · next h =>
        subst h
        cases g.node? c <;> simp
    · rfl

theorem freshness_mark :
    (g.mark f c).freshness x = if c = x ∧ x ∈ g.nodes then f (g.freshness x) else g.freshness x := by
  unfold mark freshness
  rw [node?_adjust]
  by_cases h : c = x
  · subst h
    cases hn : g.node? c with
    | none =>
        have hc : c ∉ g.nodes := by
          rw [Std.ExtTreeMap.mem_iff_isSome_getElem?, show g.nodes[c]? = none from hn]
          simp
        simp [hc]
    | some n =>
        have hc : c ∈ g.nodes := by
          rw [Std.ExtTreeMap.mem_iff_isSome_getElem?, show g.nodes[c]? = some n from hn]
          rfl
        simp [hc]
  · simp [h]

variable (cells : List Cell)

theorem sameEdges_foldl_mark : SameEdges g (cells.foldl (mark f) g) := by
  induction cells generalizing g with
  | nil => exact .refl g
  | cons c cells ih => exact (g.sameEdges_mark c f).trans (ih _)

theorem freshness_foldl_mark (hf : ∀ a, f (f a) = f a) : (cells.foldl (mark f) g).freshness x =
    if x ∈ cells ∧ x ∈ g.nodes then f (g.freshness x) else g.freshness x := by
  induction cells generalizing g with
  | nil => simp
  | cons c cells ih =>
      rw [List.foldl_cons, ih, g.freshness_mark]
      simp only [(g.sameEdges_mark c f).nodes x, List.mem_cons]
      by_cases hx : x ∈ g.nodes
      · by_cases hc : c = x
        · simp [hx, hc, hf]
        · simp [hx, hc, Ne.symm hc]
      · simp [hx]

theorem node?_foldl_mark (hf : ∀ a, f (f a) = f a) : (cells.foldl (mark f) g).node? x =
    if x ∈ cells then (g.node? x).map (Node.mark f) else g.node? x := by
  have htwice : Node.mark f ∘ Node.mark f = Node.mark f := by
    funext n
    simp [Node.mark, hf]
  induction cells generalizing g with
  | nil => simp
  | cons c cells ih =>
      rw [List.foldl_cons, ih, node?_mark]
      by_cases hc : c = x
      · simp [hc, htwice]
      · simp [hc, Ne.symm hc]

variable (visit : VisitOrder) (edited : List Cell)

theorem sameEdges_markChanged : SameEdges g (g.markChanged visit edited).1 :=
  (g.sameEdges_foldl_mark (fun _ => .stale) edited).trans (sameEdges_foldl_mark _ _ _)

theorem freshness_markChanged {g : Graph} (hg : g.Mirrored) (hrest : g.Rested) :
    (g.markChanged visit edited).1.freshness x =
      if x ∈ g.reached visit edited then if x ∈ edited then .stale else .suspect else .fresh := by
  have hmem : x ∈ g.reached visit edited ↔ _ := mem_reached visit hg
  have hstale := g.freshness_foldl_mark x (fun _ => .stale) edited fun _ => rfl
  have hnode := (g.sameEdges_foldl_mark (fun _ => .stale) edited).nodes x
  unfold markChanged
  rw [setFreshness_eq, doubt_eq, freshness_foldl_mark _ _ _ _ (by rintro (_ | _ | _) <;> rfl), hstale, hrest x]
  simp only [hnode]
  by_cases hx : x ∈ g.reached visit edited
  · have hn : x ∈ g.nodes := by
      obtain ⟨c, -, hc, hcx⟩ := hmem.mp hx
      rcases Relation.ReflTransGen.cases_tail hcx with rfl | ⟨d, -, hd⟩
      · exact hc
      · exact mem_nodes_of_reads ((hg x d).mp hd)
    by_cases he : x ∈ edited <;> simp [hx, hn, he, Freshness.doubted]
  · have he : ¬(x ∈ edited ∧ x ∈ g.nodes) := fun h => hx (hmem.mpr ⟨x, h.1, h.2, .refl⟩)
    simp [hx, he]

end Graph

end LiveSheet
