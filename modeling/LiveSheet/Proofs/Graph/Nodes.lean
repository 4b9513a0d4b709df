import LiveSheet.Proofs.Graph.Links

namespace LiveSheet.Graph

def Each (g : Graph) (P : Cell → Node → Prop) : Prop := ∀ c n, g.node? c = some n → P c n

/-- A property of new nodes that has nothing to do with edges and roles. -/
structure Unwired (P : Cell → Node → Prop) : Prop where
  new : ∀ c, P c { cell := c }
  rewired : ∀ c n role precedents readers, P c n → P c { n with role := role, precedents := precedents, readers := readers }

section Each

variable {g : Graph} {P : Cell → Node → Prop} {f : Node → Node} {c d : Cell}

theorem each_adjust (h : g.Each P) (hf : ∀ n, P c n → P c (f n)) : (g.adjust c f).Each P := by
  intro x n hn
  rw [node?_adjust] at hn
  split at hn
  · next hcx =>
      subst hcx
      obtain ⟨old, hold, rfl⟩ := Option.map_eq_some_iff.mp hn
      exact hf old (h c old hold)
  · exact h x n hn

theorem each_prune (h : g.Each P) (c : Cell) : (g.prune c).Each P := by
  intro x n hn
  rw [node?_prune] at hn
  split at hn
  · cases hn
  · exact h x n hn

variable (hP : Unwired P)

include hP

theorem each_establish (h : g.Each P) (hf : ∀ n, P c n → P c (f n)) : (g.establish c f).Each P := by
  intro x n hn
  rw [node?_establish] at hn
  split at hn
  · next hcx =>
      subst hcx
      cases Option.some.inj hn
      cases hold : g.node? c with
      | none => exact hf _ (hP.new c)
      | some old => exact hf _ (h c old hold)
  · exact h x n hn

theorem each_forget (h : g.Each P) : (g.forget c d).Each P :=
  each_prune (each_adjust h fun n => hP.rewired d n n.role n.precedents (n.readers.erase c)) d

theorem each_foldl_forget (h : g.Each P) (ps : List Cell) : (ps.foldl (forget c) g).Each P := by
  induction ps generalizing g with
  | nil => exact h
  | cons p ps ih => exact ih (each_forget hP h)

theorem each_link (h : g.Each P) : (g.link c d).Each P :=
  each_establish hP (each_establish hP h fun n => hP.rewired c n n.role n.precedents (n.readers.insert d))
    fun n => hP.rewired d n n.role (n.precedents.insert c) n.readers

theorem each_foldl_link (h : g.Each P) (ps : List Cell) : (ps.foldl (fun g p => g.link p c) g).Each P := by
  induction ps generalizing g with
  | nil => exact h
  | cons p ps ih => exact ih (each_link hP h)

theorem each_unlink (h : g.Each P) : (g.unlink c d).Each P :=
  each_adjust (each_adjust h fun n => hP.rewired c n n.role n.precedents (n.readers.erase d))
    fun n => hP.rewired d n n.role (n.precedents.erase c) n.readers

theorem each_setPrecedents (h : g.Each P) (role : Role) (ps : List Cell) : (g.setPrecedents c role ps).Each P := by
  have hcut : (g.cut c role).Each P := each_establish hP h fun n => hP.rewired c n role ∅ n.readers
  rw [setPrecedents_eq]
  exact each_foldl_link hP (each_foldl_forget hP hcut _) ps

end Each

section Detached

variable (g : Graph) (c x : Cell)

@[simp] theorem isDetached_empty : empty.isDetached c = false := by
  simp [empty, isDetached, node?]

theorem dropReader_dropReader (n : Node) : dropReader c (dropReader c n) = dropReader c n := by
  have herase : (n.readers.erase c).erase c = n.readers.erase c := by
    apply Std.ExtTreeSet.ext_mem
    simp
  simp [dropReader, herase]

theorem node?_foldl_forget (ps : List Cell) : (ps.foldl (forget c) g).node? x =
    if x ∈ ps then ((g.node? x).map (dropReader c)).filter fun n => !n.isDetached else g.node? x := by
  induction ps generalizing g with
  | nil => simp
  | cons p ps ih =>
      rw [List.foldl_cons, ih, node?_forget]
      by_cases hp : p = x
      · subst hp
        cases hn : g.node? p with
        | none => simp
        | some n => cases hd : (dropReader c n).isDetached <;> simp [hd, Option.filter, dropReader_dropReader]
      · simp [hp, Ne.symm hp]

variable {x} in
theorem node?_foldl_link_of_ne (hx : x ≠ c) {ps : List Cell} (hps : x ∉ ps) :
    (ps.foldl (fun g p => g.link p c) g).node? x = g.node? x := by
  induction ps generalizing g with
  | nil => rfl
  | cons p ps ih =>
      obtain ⟨hp, hps⟩ := not_or.mp (List.mem_cons.not.mp hps)
      rw [List.foldl_cons, ih _ hps]
      unfold link
      rw [node?_establish, if_neg (Ne.symm hx), node?_establish, if_neg (Ne.symm hp)]

theorem node?_cut (role : Role) : (g.cut c role).node? x =
    if c = x then some { (g.node? c).getD { cell := c } with role := role, precedents := ∅ } else g.node? x := by
  unfold cut
  rw [node?_establish]

theorem isDetached_prune : (g.prune c).isDetached x = true ↔ x ≠ c ∧ g.isDetached x = true := by
  by_cases hx : c = x
  · subst hx
    cases hc : g.isDetached c with
    | false => simp [prune, hc]
    | true =>
        have hnone : (g.prune c).node? c = none := by rw [node?_prune, if_pos ⟨hc, rfl⟩]
        simp [isDetached, hnone]
  · simp [isDetached, node?_prune, hx, Ne.symm hx]

variable {g c x}

theorem isDetached_iff_edges : g.isDetached c = true ↔
    c ∈ g.nodes ∧ ¬g.HoldsFormula c ∧ g.precedents c = ∅ ∧ g.readers c = ∅ := by
  have hnodes : c ∈ g.nodes ↔ (g.node? c).isSome = true := Std.ExtTreeMap.mem_iff_isSome_getElem?
  rw [isDetached_iff, hnodes]
  unfold HoldsFormula precedents readers
  cases g.node? c with
  | none => simp
  | some n => cases hrole : n.role <;> simp [hrole]

theorem not_isDetached_of_mem_readers {y : Cell} (h : y ∈ g.readers c) : ¬g.isDetached c = true := by
  intro hd
  simp [(isDetached_iff_edges.mp hd).2.2.2] at h

theorem not_isDetached_of_mem_precedents {y : Cell} (h : y ∈ g.precedents c) : ¬g.isDetached c = true := by
  intro hd
  simp [(isDetached_iff_edges.mp hd).2.2.1] at h

theorem not_isDetached_of_holdsFormula (h : g.HoldsFormula c) : ¬g.isDetached c = true :=
  fun hd => (isDetached_iff_edges.mp hd).2.1 h

variable (hg : g.Mirrored) (role : Role) (ps : List Cell)

include hg

theorem isDetached_setPrecedents_of_ne (hx : x ≠ c) :
    (g.setPrecedents c role ps).isDetached x = true ↔ x ∉ ps ∧ g.isDetached x = true := by
  by_cases hps : x ∈ ps
  · have hreader : c ∈ (g.setPrecedents c role ps).readers x := by
      rw [setPrecedents_eq, mem_readers_foldl_link]
      exact .inl ⟨hps, rfl⟩
    simp [hps, not_isDetached_of_mem_readers hreader]
  · have hnode : (g.setPrecedents c role ps).node? x =
        if x ∈ (g.precedents c).toList then ((g.node? x).map (dropReader c)).filter fun n => !n.isDetached
        else g.node? x := by
      rw [setPrecedents_eq, node?_foldl_link_of_ne _ _ hx hps, node?_foldl_forget, node?_cut, if_neg (Ne.symm hx)]
    unfold isDetached
    rw [hnode]
    by_cases hold : x ∈ (g.precedents c).toList
    · have hreader : c ∈ g.readers x := (hg c x).mpr (Std.ExtTreeSet.mem_toList.mp hold)
      have hbefore := not_isDetached_of_mem_readers hreader
      unfold isDetached at hbefore
      simp [hold, hbefore, Option.any_filter]
    · simp [hold, hps]

omit hg in
theorem node?_setPrecedents_nil : (g.setPrecedents c role []).node? c =
    let n := { (g.node? c).getD { cell := c } with role := role, precedents := ∅ }
    if c ∈ g.precedents c then (some (dropReader c n)).filter fun n => !n.isDetached else some n := by
  rw [setPrecedents_eq, List.foldl_nil, node?_foldl_forget, node?_cut, if_pos rfl]
  simp only [Std.ExtTreeSet.mem_toList]
  rfl

omit hg in
theorem readers_getD : ((g.node? c).getD { cell := c }).readers = g.readers c := by
  unfold readers
  cases g.node? c <;> rfl

theorem isDetached_setPrecedents_self :
    (g.setPrecedents c role ps).isDetached c = true ↔ role = .input ∧ ps = [] ∧ g.readers c = ∅ := by
  cases ps with
  | nil =>
      unfold isDetached
      rw [node?_setPrecedents_nil]
      by_cases hself : c ∈ g.precedents c
      · have hreader : g.readers c ≠ ∅ := by
          intro hr
          have hc := (hg c c).mpr hself
          simp [hr] at hc
        simp [hself, hreader, Option.any_filter]
      · simp [hself, Node.isDetached, readers_getD]
  | cons p ps =>
      have hread : p ∈ (g.setPrecedents c role (p :: ps)).precedents c := by simp [mem_precedents_setPrecedents]
      simp [not_isDetached_of_mem_precedents hread]

omit hg in
theorem isDetached_dropReader (n : Node) : (dropReader c n).isDetached = true ↔
    n.role = .input ∧ n.precedents = ∅ ∧ ∀ r ∈ n.readers, r = c := by
  have herase : n.readers.erase c = ∅ ↔ ∀ r ∈ n.readers, r = c := by
    rw [Std.ExtTreeSet.eq_empty_iff_forall_not_mem]
    simp only [Std.ExtTreeSet.mem_erase, Std.compare_eq_iff_eq, not_and, not_imp_not, eq_comm (a := c)]
  simp only [Node.isDetached, dropReader, Bool.and_eq_true, beq_iff_eq, Std.ExtTreeSet.isEmpty_iff, herase, and_assoc]

omit hg in
theorem node?_setPrecedents_eq_none_iff : (g.setPrecedents c role ps).node? c = none ↔
    role = .input ∧ ps = [] ∧ c ∈ g.precedents c ∧ ∀ r ∈ g.readers c, r = c := by
  cases ps with
  | nil =>
      rw [node?_setPrecedents_nil]
      by_cases hself : c ∈ g.precedents c
      · simp [hself, Option.filter, isDetached_dropReader, readers_getD]
      · simp [hself]
  | cons p ps =>
      have hread : p ∈ (g.setPrecedents c role (p :: ps)).precedents c := by simp [mem_precedents_setPrecedents]
      have hnode : (g.setPrecedents c role (p :: ps)).node? c ≠ none := by
        intro hnone
        simp [Graph.precedents, hnone] at hread
      simp [hnode]

end Detached

end LiveSheet.Graph
