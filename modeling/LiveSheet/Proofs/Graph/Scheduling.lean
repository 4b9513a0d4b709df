import LiveSheet.Proofs.Graph.Counting
import LiveSheet.Proofs.Graph.Cycle
import LiveSheet.Proofs.Graph.Marks

namespace LiveSheet.Graph

inductive Change where
  | setPrecedents (c : Cell) (role : Role) (precedents : List Cell)
  | link (c reader : Cell)
  | unlink (c reader : Cell)
  | prune (c : Cell)
  | markChanged (visit : VisitOrder) (edited : List Cell)
  | setFresh (c : Cell)
  | clear

def perform (g : Graph) : Change → Graph
  | .setPrecedents c role precedents => g.setPrecedents c role precedents
  | .link c reader => g.link c reader
  | .unlink c reader => g.unlink c reader
  | .prune c => g.prune c
  | .markChanged visit edited => (g.markChanged visit edited).1
  | .setFresh c => g.setFreshness .fresh c
  | .clear => .empty

def after (history : List Change) : Graph := history.foldl perform .empty

theorem mirrored_empty : empty.Mirrored := by
  intro c d
  simp [empty, readers, precedents, node?]

theorem mirrored_perform {g : Graph} (h : g.Mirrored) (change : Change) : (g.perform change).Mirrored := by
  cases change with
  | setPrecedents c role precedents => exact mirrored_setPrecedents c role precedents h
  | link c reader => exact mirrored_link c reader h
  | unlink c reader => exact mirrored_unlink c reader h
  | prune c => exact mirrored_prune c h
  | markChanged visit edited => exact (g.sameEdges_markChanged visit edited).mirrored h
  | setFresh c => exact (g.sameEdges_mark c fun _ => .fresh).mirrored h
  | clear => exact mirrored_empty

theorem mirrored_after (history : List Change) : (after history).Mirrored := by
  have hrun (g : Graph) (h : g.Mirrored) : (history.foldl perform g).Mirrored := by
    induction history generalizing g with
    | nil => exact h
    | cons change history ih => exact ih _ (mirrored_perform h change)
  exact hrun .empty mirrored_empty

def IsReached (g : Graph) (edited : List Cell) (c : Cell) : Prop :=
  ∃ e ∈ edited, e ∈ g.nodes ∧ Relation.ReflTransGen g.Feeds e c

structure Schedules (g : Graph) (edited : List Cell) (s : Schedule) : Prop where
  once : (s.order ++ s.cyclic).Nodup
  covers : ∀ c, c ∈ s.order ++ s.cyclic ↔ g.IsReached edited c
  behind : ∀ i c, s.order[i]? = some c → ∀ p ∈ g.precedents c, g.IsReached edited p →
    p ∈ s.order.take i ∧ p ∉ s.cyclic
  sorted : s.cyclic.Pairwise fun c d => compare c d = .lt
  cyclic : ∀ c, c ∈ s.cyclic ↔ g.IsReached edited c ∧
    ∃ d, g.IsReached edited d ∧ Relation.TransGen g.Feeds d d ∧ Relation.ReflTransGen g.Feeds d c

structure MarkedBy (g marked : Graph) (edited : List Cell) : Prop where
  stale : ∀ c ∈ edited, marked.node? c = (g.node? c).map (.mark fun _ => .stale)
  suspect : ∀ c ∉ edited, g.IsReached edited c → marked.node? c = (g.node? c).map (.mark Freshness.doubted)
  untouched : ∀ c, ¬g.IsReached edited c → marked.node? c = g.node? c

theorem sorted_cyclic_arrange (g : Graph) (visit : VisitOrder) (waiting : CellMap Nat) (ordered wave : List Cell) :
    (g.arrange visit waiting ordered wave).cyclic.Pairwise fun c d => compare c d = .lt := by
  fun_induction arrange g visit waiting ordered wave with
  | case1 => exact Std.ExtTreeMap.ordered_keys
  | case2 waiting ordered wave queue _ ih => simpa using ih

variable {g : Graph} (hg : g.Mirrored) (visit : VisitOrder) (edited : List Cell)

include hg

theorem schedules_markChanged : g.Schedules edited (g.markChanged visit edited).2 := by
  have hreached (c : Cell) : c ∈ g.reached visit edited ↔ g.IsReached edited c := mem_reached visit hg
  have hs : g.Scheduled (g.reached visit edited) (g.markChanged visit edited).2 :=
    scheduled_schedule visit hg (g.nodup_reached visit edited)
  have hclosed (c d : Cell) (hcd : g.Feeds c d) (hc : c ∈ g.reached visit edited) : d ∈ g.reached visit edited := by
    obtain ⟨e, he, hnode, hec⟩ := (hreached c).mp hc
    exact (hreached d).mpr ⟨e, he, hnode, hec.tail hcd⟩
  have hsorted : (g.markChanged visit edited).2.cyclic.Pairwise fun c d => compare c d = .lt :=
    sorted_cyclic_arrange g visit _ _ _
  refine ⟨?_, fun c => ?_, fun i c hc p hp hpc => ?_, hsorted, fun c => ?_⟩
  · rw [List.nodup_append]
    refine ⟨hs.nodup, hsorted.imp fun hlt heq => ?_, fun c hc d hd heq => hs.apart d hd (heq ▸ hc)⟩
    subst heq
    simp at hlt
  · rw [List.mem_append, ← hs.covers, hreached]
  · have hbefore := hs.behind i c hc p hp ((hreached p).mpr hpc)
    exact ⟨hbefore, fun hcyclic => hs.apart p hcyclic (List.mem_of_mem_take hbefore)⟩
  · have hcovered : c ∈ (g.markChanged visit edited).2.cyclic → g.IsReached edited c :=
      fun hc => (hreached c).mp ((hs.covers c).mpr (.inr hc))
    rw [← and_iff_right_of_imp hcovered, hs.mem_cyclic_iff hg hclosed]
    simp only [hreached]

theorem markedBy_markChanged : g.MarkedBy (g.markChanged visit edited).1 edited := by
  have hreached (c : Cell) : c ∈ g.reached visit edited ↔ g.IsReached edited c := mem_reached visit hg
  have hstale (c : Cell) := g.node?_foldl_mark c (fun _ => .stale) edited fun _ => rfl
  have hnode (c : Cell) := node?_foldl_mark (edited.foldl (setFreshness .stale) g) c Freshness.doubted
    (g.reached visit edited) (by rintro (_ | _ | _) <;> rfl)
  have htwice : Node.mark Freshness.doubted ∘ Node.mark (fun _ => .stale) = Node.mark fun _ => .stale := rfl
  unfold markChanged
  simp only [doubt_eq]
  refine ⟨fun c hc => ?_, fun c hc hr => ?_, fun c hr => ?_⟩
  · rw [hnode, setFreshness_eq, hstale, if_pos hc]
    split
    · rw [Option.map_map, htwice]
    · rfl
  · rw [hnode, setFreshness_eq, hstale, if_neg hc, if_pos ((hreached c).mpr hr)]
  · rw [hnode, setFreshness_eq, hstale, if_neg fun hc => hr ((hreached c).mp hc)]
    split
    · next hc =>
        -- an edited cell that is not reached has no node
        have hnone : g.node? c = none := by
          by_contra hsome
          refine hr ⟨c, hc, Std.ExtTreeMap.mem_iff_isSome_getElem?.mpr ?_, .refl⟩
          exact Option.isSome_iff_ne_none.mpr hsome
        rw [hnone]
        rfl
    · rfl

omit hg

/-- An edit of any cells, in whatever order readers are met, schedules all that it reaches and changes only marks. The
order is that of counting down, which lets no cell go twice although counts stay at zero. -/
theorem edit_scheduled (history : List Change) (visit : VisitOrder) (edited : List Cell) :
    let g := after history
    let (marked, s) := g.markChanged visit edited
    g.Schedules edited s ∧ g.Empties visit (g.line (g.reached visit edited)) s.order ∧ g.MarkedBy marked edited := by
  have hg := mirrored_after history
  exact ⟨schedules_markChanged hg visit edited, empties_schedule hg (nodup_reached _ visit edited),
    markedBy_markChanged hg visit edited⟩

end LiveSheet.Graph
