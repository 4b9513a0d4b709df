import LiveSheet.Proofs.Graph.Order
import Mathlib.Data.Fintype.Card
import Mathlib.Data.Set.Finite.List

namespace LiveSheet

theorem exists_cycle_of_stuck {α : Type} {r : α → α → Prop} {l : List α} (hl : ∀ x ∈ l, ∃ y ∈ l, r x y) {x : α}
    (hx : x ∈ l) : ∃ y ∈ l, Relation.ReflTransGen r x y ∧ Relation.TransGen r y y := by
  by_contra hnone
  push Not at hnone
  let Ahead (b a : {y // y ∈ l ∧ Relation.ReflTransGen r x y}) : Prop := Relation.TransGen r a.1 b.1
  have : Finite {y // y ∈ l ∧ Relation.ReflTransGen r x y} :=
    Set.Finite.subset (List.finite_toSet l) fun _ h => h.1
  have : IsTrans _ Ahead := ⟨fun _ _ _ hab hbc => hbc.trans hab⟩
  have : Std.Irrefl Ahead := ⟨fun a h => hnone a.1 a.2.1 a.2.2 h⟩
  have hend (a : {y // y ∈ l ∧ Relation.ReflTransGen r x y}) : False := by
    induction a using (Finite.wellFounded_of_trans_of_irrefl Ahead).induction with
    | h a ih =>
        obtain ⟨b, hb, hab⟩ := hl a.1 a.2.1
        exact ih ⟨b, hb, a.2.2.tail hab⟩ (.single hab)
  exact hend ⟨x, hx, .refl⟩

namespace Graph.Scheduled

variable {g : Graph} {cells : List Cell} {s : Schedule} {c d : Cell}

theorem getElem?_order_of_feeds (h : g.Scheduled cells s) (hg : g.Mirrored) (hdc : g.Feeds d c) (hd : d ∈ cells)
    {i : Nat} (hi : s.order[i]? = some c) : ∃ j < i, s.order[j]? = some d := by
  have hmem : d ∈ s.order.take i := h.behind i c hi d ((hg c d).mp hdc) hd
  obtain ⟨j, hj, hjd⟩ := List.getElem_of_mem hmem
  refine ⟨j, Nat.lt_of_lt_of_le hj (List.length_take_le i _), ?_⟩
  rw [← hjd, List.getElem_take, List.getElem?_eq_getElem]

variable (h : g.Scheduled cells s) (hg : g.Mirrored) (hclosed : ∀ x y, g.Feeds x y → x ∈ cells → y ∈ cells)

include h hg hclosed

theorem getElem?_order_of_reaches (hdc : Relation.TransGen g.Feeds d c) (hd : d ∈ cells) {i : Nat}
    (hi : s.order[i]? = some c) : ∃ j < i, s.order[j]? = some d := by
  have hfound {x : Cell} (hdx : Relation.TransGen g.Feeds d x) : x ∈ cells := by
    induction hdx with
    | single hdx => exact hclosed _ _ hdx hd
    | tail _ hxy ih => exact hclosed _ _ hxy ih
  induction hdc generalizing i with
  | single hdx => exact h.getElem?_order_of_feeds hg hdx hd hi
  | tail hdx hxy ih =>
      obtain ⟨j, hj, hjx⟩ := h.getElem?_order_of_feeds hg hxy (hfound hdx) hi
      obtain ⟨k, hk, hkd⟩ := ih hjx
      exact ⟨k, Nat.lt_trans hk hj, hkd⟩

theorem mem_cyclic_of_reaches (hdc : Relation.ReflTransGen g.Feeds d c) (hd : d ∈ s.cyclic) : c ∈ s.cyclic := by
  have hcells : d ∈ cells := (h.covers d).mpr (.inr hd)
  have hc : c ∈ cells := by
    induction hdc with
    | refl => exact hcells
    | tail _ hxy ih => exact hclosed _ _ hxy ih
  refine ((h.covers c).mp hc).resolve_left fun horder => ?_
  rcases Relation.reflTransGen_iff_eq_or_transGen.mp hdc with rfl | hdc
  · exact h.apart c hd horder
  · obtain ⟨i, hi⟩ := List.mem_iff_getElem?.mp horder
    obtain ⟨j, -, hj⟩ := h.getElem?_order_of_reaches hg hclosed hdc hcells hi
    exact h.apart d hd (List.mem_of_getElem? hj)

theorem mem_cyclic_of_cycle (hcycle : Relation.TransGen g.Feeds c c) (hc : c ∈ cells) : c ∈ s.cyclic := by
  refine ((h.covers c).mp hc).resolve_left fun horder => ?_
  obtain ⟨i, hi⟩ := List.mem_iff_getElem?.mp horder
  obtain ⟨j, hj, hjc⟩ := h.getElem?_order_of_reaches hg hclosed hcycle hc hi
  have hlt := (List.getElem?_eq_some_iff.mp hi).1
  exact List.nodup_iff_getElem?_ne_getElem?.mp h.nodup j i hj hlt (hjc.trans hi.symm)

theorem mem_cyclic_iff :
    c ∈ s.cyclic ↔ ∃ d ∈ cells, Relation.TransGen g.Feeds d d ∧ Relation.ReflTransGen g.Feeds d c := by
  constructor
  · intro hc
    have hstuck : ∀ x ∈ s.cyclic, ∃ y ∈ s.cyclic, Function.swap g.Feeds x y := by
      intro x hx
      obtain ⟨y, hxy, hy⟩ := h.stuck x hx
      exact ⟨y, hy, (hg x y).mpr hxy⟩
    obtain ⟨d, hd, hcd, hcycle⟩ := exists_cycle_of_stuck hstuck hc
    exact ⟨d, (h.covers d).mpr (.inr hd), Relation.transGen_swap.mp hcycle, Relation.reflTransGen_swap.mp hcd⟩
  · rintro ⟨d, hd, hcycle, hdc⟩
    exact h.mem_cyclic_of_reaches hg hclosed hdc (h.mem_cyclic_of_cycle hg hclosed hcycle hd)

end Graph.Scheduled

end LiveSheet
