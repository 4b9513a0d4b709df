import LiveSheet.Graph.Schedule
import Mathlib.Tactic.Tauto

namespace LiveSheet

namespace Graph

variable (g : Graph) (c d x : Cell)

def HoldsFormula : Prop := ∃ n, g.node? c = some n ∧ n.role = .formula

def Mirrored : Prop := ∀ c d, c ∈ g.readers d ↔ d ∈ g.precedents c

theorem node?_establish (f : Node → Node) :
    (g.establish c f).node? d = if c = d then some (f ((g.node? c).getD { cell := c })) else g.node? d := by
  simp [establish, node?, Std.ExtTreeMap.getElem?_alter]

theorem node?_adjust (f : Node → Node) :
    (g.adjust c f).node? d = if c = d then (g.node? c).map f else g.node? d := by
  simp [adjust, node?, Std.ExtTreeMap.getElem?_modify]

theorem node?_prune : (g.prune c).node? d = if g.isDetached c ∧ c = d then none else g.node? d := by
  unfold prune
  by_cases h : g.isDetached c
  · simp [h, node?, Std.ExtTreeMap.getElem?_erase]
  · simp [h]

theorem isDetached_iff : g.isDetached c = true ↔
    ∃ n, g.node? c = some n ∧ n.role = .input ∧ n.precedents = ∅ ∧ n.readers = ∅ := by
  unfold isDetached Node.isDetached
  cases g.node? c with
  | none => simp
  | some n => simp [and_assoc, Std.ExtTreeSet.isEmpty_iff]

theorem precedents_prune : (g.prune c).precedents d = g.precedents d := by
  unfold precedents
  rw [node?_prune]
  split
  · next h =>
      obtain ⟨hd, rfl⟩ := h
      obtain ⟨n, hn, -, hp, -⟩ := (isDetached_iff g c).mp hd
      simp [hn, hp]
  · rfl

theorem readers_prune : (g.prune c).readers d = g.readers d := by
  unfold readers
  rw [node?_prune]
  split
  · next h =>
      obtain ⟨hd, rfl⟩ := h
      obtain ⟨n, hn, -, -, hr⟩ := (isDetached_iff g c).mp hd
      simp [hn, hr]
  · rfl

theorem holdsFormula_prune : (g.prune c).HoldsFormula d ↔ g.HoldsFormula d := by
  unfold HoldsFormula
  rw [node?_prune]
  split
  · next h =>
      obtain ⟨hd, rfl⟩ := h
      obtain ⟨n, hn, hrole, -⟩ := (isDetached_iff g c).mp hd
      simp [hn, hrole]
  · rfl

variable {g} in
theorem mirrored_prune (h : g.Mirrored) : (g.prune c).Mirrored := by
  intro d x
  rw [readers_prune, precedents_prune]
  exact h d x

theorem precedents_forget : (g.forget c d).precedents x = g.precedents x := by
  unfold forget
  rw [precedents_prune]
  unfold precedents
  rw [node?_adjust]
  split
  · next h =>
      subst h
      cases g.node? d <;> rfl
  · rfl

theorem mem_readers_forget {y : Cell} :
    y ∈ (g.forget c d).readers x ↔ y ∈ g.readers x ∧ ¬(c = y ∧ x = d) := by
  unfold forget
  rw [readers_prune]
  unfold readers
  rw [node?_adjust]
  by_cases h : d = x
  · subst h
    cases g.node? d with
    | none => simp
    | some n => simp [dropReader, and_comm]
  · simp [h, Ne.symm h]

theorem holdsFormula_forget : (g.forget c d).HoldsFormula x ↔ g.HoldsFormula x := by
  unfold forget
  rw [holdsFormula_prune]
  unfold HoldsFormula
  rw [node?_adjust]
  split
  · next h =>
      subst h
      cases g.node? d <;> simp [dropReader]
  · rfl

theorem node?_forget : (g.forget c d).node? x =
    if d = x then ((g.node? x).map (dropReader c)).filter fun n => !n.isDetached else g.node? x := by
  unfold forget
  rw [node?_prune]
  unfold isDetached
  rw [node?_adjust, node?_adjust]
  by_cases h : d = x
  · subst h
    cases hn : (g.node? d).map (dropReader c) with
    | none => simp
    | some n => cases hdetached : n.isDetached <;> simp [hdetached, Option.filter]
  · simp [h]

theorem forget_comm : (g.forget c d).forget c x = (g.forget c x).forget c d := by
  have hnode (y : Cell) : ((g.forget c d).forget c x).node? y = ((g.forget c x).forget c d).node? y := by
    simp only [node?_forget]
    by_cases hd : d = y
    · subst hd
      by_cases hx : x = d <;> simp [hx]
    · simp [hd]
  unfold Graph.node? at hnode
  exact congrArg Graph.mk (Std.ExtTreeMap.ext_getElem? hnode)

theorem foldl_forget_of_perm {ps qs : List Cell} (h : ps.Perm qs) :
    ps.foldl (forget c) g = qs.foldl (forget c) g :=
  h.foldl_eq' (fun p _ q _ g => forget_comm g c p q) g

theorem precedents_foldl_forget (ps : List Cell) : (ps.foldl (forget c) g).precedents x = g.precedents x := by
  induction ps generalizing g with
  | nil => rfl
  | cons p ps ih => rw [List.foldl_cons, ih, precedents_forget]

theorem mem_readers_foldl_forget (ps : List Cell) {y : Cell} :
    y ∈ (ps.foldl (forget c) g).readers x ↔ y ∈ g.readers x ∧ ¬(c = y ∧ x ∈ ps) := by
  induction ps generalizing g with
  | nil => simp
  | cons p ps ih =>
      rw [List.foldl_cons, ih, mem_readers_forget, List.mem_cons]
      tauto

theorem holdsFormula_foldl_forget (ps : List Cell) :
    (ps.foldl (forget c) g).HoldsFormula x ↔ g.HoldsFormula x := by
  induction ps generalizing g with
  | nil => rfl
  | cons p ps ih => rw [List.foldl_cons, ih, holdsFormula_forget]

theorem mem_precedents_link {y : Cell} :
    y ∈ (g.link c d).precedents x ↔ (x = d ∧ c = y) ∨ y ∈ g.precedents x := by
  unfold link precedents
  rw [node?_establish, node?_establish, node?_establish]
  by_cases hd : d = x
  · subst hd
    by_cases hc : c = d
    · subst hc
      cases g.node? c <;> simp [addPrecedent, addReader]
    · cases g.node? d <;> simp [hc, addPrecedent]
  · by_cases hc : c = x
    · subst hc
      cases g.node? c <;> simp [hd, Ne.symm hd, addReader]
    · simp [hd, hc, Ne.symm hd]

theorem mem_readers_link {y : Cell} :
    y ∈ (g.link c d).readers x ↔ (x = c ∧ d = y) ∨ y ∈ g.readers x := by
  unfold link readers
  rw [node?_establish, node?_establish, node?_establish]
  by_cases hd : d = x
  · subst hd
    by_cases hc : c = d
    · subst hc
      cases g.node? c <;> simp [addPrecedent, addReader]
    · cases g.node? d <;> simp [hc, Ne.symm hc, addPrecedent]
  · by_cases hc : c = x
    · subst hc
      cases g.node? c <;> simp [hd, addReader]
    · simp [hd, hc, Ne.symm hc]

theorem holdsFormula_establish {f : Node → Node} (hf : ∀ n, (f n).role = n.role) :
    (g.establish c f).HoldsFormula x ↔ g.HoldsFormula x := by
  unfold HoldsFormula
  rw [node?_establish]
  split
  · next h =>
      subst h
      cases h : g.node? c <;> simp [hf]
  · rfl

theorem holdsFormula_link : (g.link c d).HoldsFormula x ↔ g.HoldsFormula x := by
  unfold link
  rw [holdsFormula_establish (f := addPrecedent c) _ _ _ (fun _ => rfl),
    holdsFormula_establish (f := addReader d) _ _ _ (fun _ => rfl)]

theorem mem_precedents_foldl_link (ps : List Cell) {y : Cell} :
    y ∈ (ps.foldl (fun g p => g.link p c) g).precedents x ↔ (x = c ∧ y ∈ ps) ∨ y ∈ g.precedents x := by
  induction ps generalizing g with
  | nil => simp
  | cons p ps ih =>
      rw [List.foldl_cons, ih, mem_precedents_link, List.mem_cons, eq_comm (a := p)]
      tauto

theorem mem_readers_foldl_link (ps : List Cell) {y : Cell} :
    y ∈ (ps.foldl (fun g p => g.link p c) g).readers x ↔ (x ∈ ps ∧ c = y) ∨ y ∈ g.readers x := by
  induction ps generalizing g with
  | nil => simp
  | cons p ps ih =>
      rw [List.foldl_cons, ih, mem_readers_link, List.mem_cons]
      tauto

theorem holdsFormula_foldl_link (ps : List Cell) :
    (ps.foldl (fun g p => g.link p c) g).HoldsFormula x ↔ g.HoldsFormula x := by
  induction ps generalizing g with
  | nil => rfl
  | cons p ps ih => rw [List.foldl_cons, ih, holdsFormula_link]

section Cut

variable (role : Role)

def cut : Graph := g.establish c fun n => { n with role := role, precedents := ∅ }

theorem mem_precedents_cut {y : Cell} : y ∈ (g.cut c role).precedents x ↔ x ≠ c ∧ y ∈ g.precedents x := by
  unfold cut precedents
  rw [node?_establish]
  by_cases h : c = x
  · subst h
    simp
  · simp [h, Ne.symm h]

theorem readers_cut : (g.cut c role).readers x = g.readers x := by
  unfold cut readers
  rw [node?_establish]
  split
  · next h =>
      subst h
      cases g.node? c <;> rfl
  · rfl

theorem holdsFormula_cut :
    (g.cut c role).HoldsFormula x ↔ if x = c then role = .formula else g.HoldsFormula x := by
  unfold cut HoldsFormula
  rw [node?_establish]
  by_cases h : c = x
  · subst h
    simp
  · simp [h, Ne.symm h]

end Cut

variable {g} (role : Role) (ps : List Cell)

theorem setPrecedents_eq : g.setPrecedents c role ps =
    ps.foldl (fun g p => g.link p c) ((g.precedents c).toList.foldl (forget c) (g.cut c role)) :=
  rfl

theorem setPrecedents_eq_of_visit (visit : VisitOrder) : g.setPrecedents c role ps =
    ps.foldl (fun g p => g.link p c) ((visit.list c (g.precedents c)).foldl (forget c) (g.cut c role)) := by
  rw [setPrecedents_eq, foldl_forget_of_perm _ _ (visit.perm c _)]

theorem mem_precedents_setPrecedents {y : Cell} :
    y ∈ (g.setPrecedents c role ps).precedents x ↔ if x = c then y ∈ ps else y ∈ g.precedents x := by
  rw [setPrecedents_eq, mem_precedents_foldl_link, precedents_foldl_forget, mem_precedents_cut]
  split <;> tauto

theorem mirrored_setPrecedents (h : g.Mirrored) : (g.setPrecedents c role ps).Mirrored := by
  intro y x
  rw [mem_precedents_setPrecedents, setPrecedents_eq, mem_readers_foldl_link, mem_readers_foldl_forget,
    readers_cut, h y x, Std.ExtTreeSet.mem_toList]
  by_cases hy : y = c
  · subst hy
    simp
  · simp [hy, Ne.symm hy]

theorem holdsFormula_setPrecedents : (g.setPrecedents c role ps).HoldsFormula x ↔
    if x = c then role = .formula else g.HoldsFormula x := by
  rw [setPrecedents_eq, holdsFormula_foldl_link, holdsFormula_foldl_forget, holdsFormula_cut]

theorem mirrored_link (h : g.Mirrored) : (g.link c d).Mirrored := by
  intro y x
  rw [mem_readers_link, mem_precedents_link, h y x, eq_comm (a := x), eq_comm (a := y), and_comm]

theorem mem_precedents_unlink {y : Cell} :
    y ∈ (g.unlink c d).precedents x ↔ y ∈ g.precedents x ∧ ¬(x = d ∧ c = y) := by
  unfold unlink precedents
  simp only [node?_adjust]
  by_cases hd : d = x
  · subst hd
    by_cases hc : c = d
    · subst hc
      cases g.node? c <;> simp [dropPrecedent, dropReader, and_comm]
    · cases g.node? d <;> simp [hc, dropPrecedent, and_comm]
  · by_cases hc : c = x
    · subst hc
      cases g.node? c <;> simp [hd, Ne.symm hd, dropReader]
    · simp [hd, hc, Ne.symm hd]

theorem mem_readers_unlink {y : Cell} :
    y ∈ (g.unlink c d).readers x ↔ y ∈ g.readers x ∧ ¬(x = c ∧ d = y) := by
  unfold unlink readers
  simp only [node?_adjust]
  by_cases hd : d = x
  · subst hd
    by_cases hc : c = d
    · subst hc
      cases g.node? c <;> simp [dropPrecedent, dropReader, and_comm]
    · cases g.node? d <;> simp [hc, Ne.symm hc, dropPrecedent]
  · by_cases hc : c = x
    · subst hc
      cases g.node? c <;> simp [hd, dropReader, and_comm]
    · simp [hd, hc, Ne.symm hc]

theorem mirrored_unlink (h : g.Mirrored) : (g.unlink c d).Mirrored := by
  intro y x
  rw [mem_readers_unlink, mem_precedents_unlink, h y x, eq_comm (a := x), eq_comm (a := y), and_comm (a := c = x)]

end Graph

end LiveSheet
