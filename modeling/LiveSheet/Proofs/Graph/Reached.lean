import LiveSheet.Proofs.Graph.Links
import Mathlib.Data.List.Nodup
import Mathlib.Logic.Relation

namespace LiveSheet

theorem VisitOrder.mem_list (visit : VisitOrder) {c x : Cell} {s : CellSet} : x ∈ visit.list c s ↔ x ∈ s := by
  rw [(visit.perm c s).mem_iff, Std.ExtTreeSet.mem_toList]

theorem VisitOrder.nodup_list (visit : VisitOrder) (c : Cell) (s : CellSet) : (visit.list c s).Nodup := by
  rw [(visit.perm c s).nodup_iff]
  simpa [List.Nodup] using s.distinct_toList

namespace Graph

def Feeds (g : Graph) (c d : Cell) : Prop := d ∈ g.readers c

theorem mem_nodes_of_feeds {g : Graph} {c d : Cell} (h : g.Feeds c d) : c ∈ g.nodes := by
  unfold Feeds readers node? at h
  cases hc : g.nodes[c]? with
  | none => simp [hc] at h
  | some n => exact Std.ExtTreeMap.mem_iff_isSome_getElem?.mpr (by simp [hc])

theorem mem_nodes_of_reads {g : Graph} {c d : Cell} (h : d ∈ g.precedents c) : c ∈ g.nodes := by
  unfold precedents node? at h
  cases hc : g.nodes[c]? with
  | none => simp [hc] at h
  | some n => exact Std.ExtTreeMap.mem_iff_isSome_getElem?.mpr (by simp [hc])

theorem mem_nodes_of_holdsFormula {g : Graph} {c : Cell} (h : g.HoldsFormula c) : c ∈ g.nodes := by
  obtain ⟨n, hn, -⟩ := h
  exact Std.ExtTreeMap.mem_iff_isSome_getElem?.mpr (by simp [show g.nodes[c]? = some n from hn])

namespace Survey

variable (cells : List Cell) (s : Survey) {x : Cell}

theorem mem_unmet_foldl_meet : x ∈ (cells.foldl meet s).unmet ↔ x ∈ s.unmet ∧ x ∉ cells := by
  induction cells generalizing s with
  | nil => simp
  | cons c cells ih =>
      rw [List.foldl_cons, ih, List.mem_cons]
      unfold meet
      by_cases hc : c ∈ s.unmet
      · simp only [hc, if_true, Std.ExtTreeMap.mem_erase]
        simp [eq_comm (a := x)]
        tauto
      · have hx : x ∈ s.unmet → x ≠ c := fun hx hxc => hc (hxc ▸ hx)
        simp only [hc, if_false]
        tauto

theorem mem_met_foldl_meet : x ∈ (cells.foldl meet s).met ↔ x ∈ s.met ∨ x ∈ s.unmet ∧ x ∈ cells := by
  induction cells generalizing s with
  | nil => simp
  | cons c cells ih =>
      rw [List.foldl_cons, ih, List.mem_cons]
      unfold meet
      by_cases hc : c ∈ s.unmet
      · by_cases hx : x = c
        · subst hx
          simp [hc]
        · simp [hc, hx, Ne.symm hx]
      · have hx : x ∈ s.unmet → x ≠ c := fun hx hxc => hc (hxc ▸ hx)
        simp only [hc, if_false]
        tauto

theorem nodup_foldl_meet (hs : s.met.Nodup) (hd : ∀ x ∈ s.met, x ∉ s.unmet) :
    (cells.foldl meet s).met.Nodup := by
  induction cells generalizing s with
  | nil => exact hs
  | cons c cells ih =>
      rw [List.foldl_cons]
      unfold meet
      by_cases hc : c ∈ s.unmet
      · simp only [hc, if_true]
        refine ih _ (List.nodup_cons.mpr ⟨fun h => hd c h hc, hs⟩) fun x hx => ?_
        rcases List.mem_cons.mp hx with rfl | hx
        · simp
        · simp [hd x hx]
      · simp only [hc, if_false]
        exact ih _ hs hd

variable (unmet : CellMap Node)

theorem mem_unmet_meetAll : x ∈ (meetAll unmet cells).unmet ↔ x ∈ unmet ∧ x ∉ cells :=
  mem_unmet_foldl_meet cells ⟨unmet, []⟩

theorem mem_met_meetAll : x ∈ (meetAll unmet cells).met ↔ x ∈ unmet ∧ x ∈ cells := by
  simpa [meetAll] using mem_met_foldl_meet (x := x) cells ⟨unmet, []⟩

theorem nodup_meetAll : (meetAll unmet cells).met.Nodup :=
  nodup_foldl_meet cells ⟨unmet, []⟩ List.nodup_nil (by simp)

end Survey

variable (g : Graph) (visit : VisitOrder)

theorem mem_nextWave (cells : List Cell) {y : Cell} :
    y ∈ cells.flatMap (fun c => visit.list c (g.readers c)) ↔ ∃ x ∈ cells, g.Feeds x y := by
  simp only [List.mem_flatMap, visit.mem_list, Feeds]

theorem nodup_spread (unmet : CellMap Node) (found wave : List Cell) (hfound : found.Nodup)
    (hunmet : ∀ x ∈ found, x ∉ unmet) : (g.spread visit unmet found wave).Nodup := by
  fun_induction spread g visit unmet found wave with
  | case1 => exact List.nodup_reverse.mpr hfound
  | case2 unmet found wave survey _ ih =>
      have hmet (x : Cell) : x ∈ survey.met ↔ x ∈ unmet ∧ x ∈ wave := Survey.mem_met_meetAll wave unmet
      have hleft (x : Cell) : x ∈ survey.unmet ↔ x ∈ unmet ∧ x ∉ wave := Survey.mem_unmet_meetAll wave unmet
      apply ih
      · rw [List.nodup_append]
        refine ⟨Survey.nodup_meetAll wave unmet, hfound, ?_⟩
        rintro x hx _ hf rfl
        exact hunmet x hf ((hmet x).mp hx).1
      · intro x hx hu
        rcases List.mem_append.mp hx with hx | hx
        · exact ((hleft x).mp hu).2 ((hmet x).mp hx).2
        · exact hunmet x hx ((hleft x).mp hu).1

theorem mem_spread_of_found (unmet : CellMap Node) (found wave : List Cell) {x : Cell}
    (h : x ∈ found ∨ x ∈ unmet ∧ x ∈ wave) : x ∈ g.spread visit unmet found wave := by
  fun_induction spread g visit unmet found wave with
  | case1 unmet found wave survey hdone =>
      rcases h with h | h
      · exact List.mem_reverse.mpr h
      · have hmet : x ∈ survey.met := (Survey.mem_met_meetAll wave unmet).mpr h
        simp [hdone] at hmet
  | case2 unmet found wave survey _ ih =>
      apply ih
      left
      rcases h with h | h
      · exact List.mem_append_right _ h
      · exact List.mem_append_left _ ((Survey.mem_met_meetAll wave unmet).mpr h)

theorem exists_of_mem_spread (unmet : CellMap Node) (found wave : List Cell) {x : Cell}
    (h : x ∈ g.spread visit unmet found wave) :
    x ∈ found ∨ x ∈ unmet ∧ ∃ w ∈ wave, Relation.ReflTransGen g.Feeds w x := by
  fun_induction spread g visit unmet found wave with
  | case1 => exact .inl (List.mem_reverse.mp h)
  | case2 unmet found wave survey _ ih =>
      have hmet (x : Cell) : x ∈ survey.met ↔ x ∈ unmet ∧ x ∈ wave := Survey.mem_met_meetAll wave unmet
      rcases ih h with hx | ⟨hx, w, hw, hwx⟩
      · rcases List.mem_append.mp hx with hx | hx
        · obtain ⟨hu, hw⟩ := (hmet x).mp hx
          exact .inr ⟨hu, x, hw, .refl⟩
        · exact .inl hx
      · obtain ⟨v, hv, hvw⟩ := (g.mem_nextWave visit _).mp hw
        have hv := ((hmet v).mp (List.mem_reverse.mp hv)).2
        exact .inr ⟨((Survey.mem_unmet_meetAll wave unmet).mp hx).1, v, hv, .head hvw hwx⟩

theorem spread_closed (unmet : CellMap Node) (found wave : List Cell)
    (hwave : ∀ x ∈ found, ∀ y, g.Feeds x y → y ∈ unmet → y ∈ wave) {x y : Cell}
    (hx : x ∈ g.spread visit unmet found wave) (hxy : g.Feeds x y) (hy : y ∈ unmet) :
    y ∈ g.spread visit unmet found wave := by
  fun_induction spread g visit unmet found wave with
  | case1 unmet found wave survey hdone =>
      have hw := hwave x (List.mem_reverse.mp hx) y hxy hy
      have hmet : y ∈ survey.met := (Survey.mem_met_meetAll wave unmet).mpr ⟨hy, hw⟩
      simp [hdone] at hmet
  | case2 unmet found wave survey _ ih =>
      have hmet (x : Cell) : x ∈ survey.met ↔ x ∈ unmet ∧ x ∈ wave := Survey.mem_met_meetAll wave unmet
      have hleft (x : Cell) : x ∈ survey.unmet ↔ x ∈ unmet ∧ x ∉ wave := Survey.mem_unmet_meetAll wave unmet
      by_cases hw : y ∈ wave
      · apply mem_spread_of_found
        exact .inl (List.mem_append_left _ ((hmet y).mpr ⟨hy, hw⟩))
      · refine ih (fun u hu v huv hv => ?_) hx ((hleft y).mpr ⟨hy, hw⟩)
        rcases List.mem_append.mp hu with hu | hu
        · exact (g.mem_nextWave visit _).mpr ⟨u, List.mem_reverse.mpr hu, huv⟩
        · obtain ⟨hv, hvw⟩ := (hleft v).mp hv
          exact absurd (hwave u hu v huv hv) hvw

theorem nodup_reached (cells : List Cell) : (g.reached visit cells).Nodup :=
  g.nodup_spread visit _ _ _ List.nodup_nil (by simp)

variable {g}

theorem mem_reached (hg : g.Mirrored) {cells : List Cell} {x : Cell} :
    x ∈ g.reached visit cells ↔ ∃ c ∈ cells, c ∈ g.nodes ∧ Relation.ReflTransGen g.Feeds c x := by
  constructor
  · intro h
    rcases g.exists_of_mem_spread visit _ _ _ h with h | ⟨hx, c, hc, hcx⟩
    · simp at h
    · refine ⟨c, hc, ?_, hcx⟩
      rcases Relation.ReflTransGen.cases_head hcx with rfl | ⟨d, hcd, -⟩
      · exact hx
      · exact mem_nodes_of_feeds hcd
  · rintro ⟨c, hc, hn, hcx⟩
    induction hcx with
    | refl => exact g.mem_spread_of_found visit _ _ _ (.inr ⟨hn, hc⟩)
    | @tail d e _ hde ih =>
        exact g.spread_closed visit _ _ _ (by simp) ih hde (mem_nodes_of_reads ((hg e d).mp hde))

end Graph

end LiveSheet
