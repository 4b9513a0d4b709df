import LiveSheet.Proofs.Formula.Evaluation
import LiveSheet.Proofs.Formula.Mirroring
import LiveSheet.Proofs.Formula.Moving

namespace LiveSheet

namespace Rectangle

theorem cells_eq (r : Rectangle) : r.cells =
    (List.range (r.bottom - r.top + 1)).flatMap fun i =>
      (List.range (r.right - r.left + 1)).map fun j => ⟨r.top + i, r.left + j⟩ := by
  simp only [cells, List.range'_eq_map_range, List.flatMap_map, List.map_map]
  rfl

theorem length_cells (r : Rectangle) : r.cells.length = r.size := by
  simp [cells, size, List.length_flatMap]

theorem mem_cells_between {a b c : Cell} : c ∈ (between a b).cells ↔
    (min a.row b.row ≤ c.row ∧ c.row ≤ max a.row b.row) ∧
      min a.column b.column ≤ c.column ∧ c.column ≤ max a.column b.column := by
  obtain ⟨row, column⟩ := c
  simp only [cells, between, List.mem_flatMap, List.mem_map, List.mem_range'_1, Cell.mk.injEq]
  constructor
  · rintro ⟨i, hi, j, hj, rfl, rfl⟩
    omega
  · intro h
    exact ⟨row, by omega, column, by omega, rfl, rfl⟩

end Rectangle

namespace Cell

def IsOnGrid (c : Cell) : Prop := c.row < gridSide ∧ c.column < gridSide

def shift (rows columns : Int) (c : Cell) : Cell := ⟨(c.row + rows).toNat, (c.column + columns).toNat⟩

structure Moves (rows columns : Int) (c d : Cell) : Prop where
  row : (d.row : Int) = c.row + rows
  column : (d.column : Int) = c.column + columns
  before : c.IsOnGrid
  after : d.IsOnGrid

variable {rows columns : Int} {a b c : Cell}

theorem moves_between (ha : Moves rows columns a (a.shift rows columns)) (hb : Moves rows columns b (b.shift rows columns))
    (hc : c ∈ (Rectangle.between a b).cells) : Moves rows columns c (c.shift rows columns) := by
  obtain ⟨hrow, hcolumn⟩ := Rectangle.mem_cells_between.mp hc
  obtain ⟨harow, hacolumn, habefore, haafter⟩ := ha
  obtain ⟨hbrow, hbcolumn, hbbefore, hbafter⟩ := hb
  simp only [IsOnGrid, shift] at *
  refine ⟨?_, ?_, ?_, ?_⟩ <;> simp only [IsOnGrid] <;> omega

theorem cells_between_shift (ha : Moves rows columns a (a.shift rows columns))
    (hb : Moves rows columns b (b.shift rows columns)) :
    (Rectangle.between (a.shift rows columns) (b.shift rows columns)).cells =
      (Rectangle.between a b).cells.map (shift rows columns) := by
  obtain ⟨harow, hacolumn, -, -⟩ := ha
  obtain ⟨hbrow, hbcolumn, -, -⟩ := hb
  simp only [shift] at harow hacolumn hbrow hbcolumn
  have hheight : max (a.row + rows).toNat (b.row + rows).toNat - min (a.row + rows).toNat (b.row + rows).toNat =
      max a.row b.row - min a.row b.row := by omega
  have hwidth : max (a.column + columns).toNat (b.column + columns).toNat -
      min (a.column + columns).toNat (b.column + columns).toNat =
      max a.column b.column - min a.column b.column := by omega
  simp only [Rectangle.cells_eq, Rectangle.between, shift, hheight, hwidth, List.map_flatMap, List.map_map]
  refine List.flatMap_congr fun i _ => List.map_congr_left fun j _ => ?_
  rw [Function.comp_apply, shift, mk.injEq]
  constructor <;> dsimp only <;> omega

end Cell

namespace Formula

open Reading

variable {σ : Cell → Cell} {cells : List Cell} {g g' : Grid}

mutual

def relocate (σ : Cell → Cell) : Formula → Formula
  | .cell a => .cell { a with cell := σ a.cell }
  | .range a b => .range { a with cell := σ a.cell } { b with cell := σ b.cell }
  | .negate operand => .negate (operand.relocate σ)
  | .binary operator left right => .binary operator (left.relocate σ) (right.relocate σ)
  | .call function arguments => .call function (relocateAll σ arguments)
  | f => f

def relocateAll (σ : Cell → Cell) : List Formula → List Formula
  | [] => []
  | argument :: rest => argument.relocate σ :: relocateAll σ rest

end

mutual

theorem relocate_id : ∀ f : Formula, f.relocate id = f
  | .negate f => by simp only [relocate, relocate_id f]
  | .binary o f g => by simp only [relocate, relocate_id f, relocate_id g]
  | .call w fs => by simp only [relocate, relocateAll_id fs]
  | .cell _ | .range _ _ | .literal _ | .failure _ | .rowCount | .name _ => rfl

theorem relocateAll_id : ∀ fs : List Formula, relocateAll id fs = fs
  | [] => rfl
  | f :: fs => by simp only [relocateAll, relocate_id f, relocateAll_id fs]

end

structure Carries (σ : Cell → Cell) (cells : List Cell) (usesRowCount : Bool) (g g' : Grid) : Prop where
  value : ∀ c ∈ cells, g'.value (σ c) = g.value c
  rectangle : ∀ a ∈ cells, ∀ b ∈ cells,
    (Rectangle.between (σ a) (σ b)).cells = (Rectangle.between a b).cells.map σ
  rowCount : usesRowCount = true → g'.rowCount = g.rowCount

theorem corners_mem (a b : Cell) : a ∈ (Rectangle.between a b).cells ∧ b ∈ (Rectangle.between a b).cells := by
  simp only [Rectangle.mem_cells_between]
  omega

section Carried

variable {rows : Bool} (h : Carries σ cells rows g g')

include h

mutual

theorem evaluate_relocate : ∀ f : Formula, f.cells ⊆ cells → (f.usesRowCount = true → rows = true) →
    Mirrored σ cells g g' f.evaluate (f.relocate σ).evaluate
  | .literal v, _, _ => mirrored_pure v
  | .failure e, _, _ => mirrored_fail e
  | .cell a, hcells, _ => by
      have ha : a.cell ∈ cells := hcells List.mem_cons_self
      exact mirrored_cell (h.value _ ha) ha
  | .range _ _, _, _ => mirrored_fail .wrongKind
  | .rowCount, _, hrows => mirrored_bind (mirrored_rowCount (h.rowCount (hrows rfl))) fun n => mirrored_pure _
  | .name w, _, _ => mirrored_fail (.unknownName w)
  | .negate f, hcells, hrows => by
      simp only [relocate, evaluate]
      exact mirrored_bind (evaluate_relocate f hcells hrows) fun v =>
        mirrored_bind (mirrored_ofResult v.asNumber) fun n => mirrored_pure _
  | .binary o f k, hcells, hrows => by
      have hleft := evaluate_relocate f (fun c hc => hcells (List.mem_append_left _ hc))
        (fun hf => hrows (by simp [usesRowCount, hf]))
      have hright := evaluate_relocate k (fun c hc => hcells (List.mem_append_right _ hc))
        (fun hk => hrows (by simp [usesRowCount, hk]))
      simp only [relocate, evaluate]
      exact mirrored_bind hleft fun a => mirrored_bind hright fun b => mirrored_ofResult _
  | .call w fs, hcells, hrows => by
      simp only [relocate, evaluate]
      split
      · exact Function.apply_mirrored (operands_relocate fs hcells hrows) _
      · exact mirrored_fail _

theorem operands_relocate : ∀ fs : List Formula, allCells fs ⊆ cells → (anyUsesRowCount fs = true → rows = true) →
    List.Forall₂ (Operand.Mirrored σ cells g g') (operands fs) (operands (relocateAll σ fs))
  | [], _, _ => .nil
  | f :: fs, hcells, hrows => by
      have hfirst : f.cells ⊆ cells := fun c hc => hcells (List.mem_append_left _ hc)
      have hrest := operands_relocate fs (fun c hc => hcells (List.mem_append_right _ hc))
        (fun hfs => hrows (by simp [anyUsesRowCount, hfs]))
      have hsingle := evaluate_relocate f hfirst (fun hf => hrows (by simp [anyUsesRowCount, hf]))
      cases f with
      | range a b =>
          obtain ⟨ha, hb⟩ := corners_mem a.cell b.cell
          exact .cons (.range (h.rectangle _ (hfirst ha) _ (hfirst hb)) fun c hc => ⟨h.value c (hfirst hc), hfirst hc⟩)
            hrest
      | _ => exact .cons (.single hsingle) hrest

end

end Carried

variable {limit count : Nat}

mutual

theorem tally?_of_le : ∀ (f : Formula) {count : Nat}, count + f.cells.length ≤ limit →
    f.tally? limit count = some (count + f.cells.length)
  | .cell _, _, _ => rfl
  | .range a b, count, hle => by
      rw [Formula.cells, Rectangle.length_cells] at hle ⊢
      simp only [tally?]
      rw [if_neg (by omega), Nat.add_comm]
  | .negate f, _, hle => tally?_of_le f hle
  | .binary _ f k, count, hle => by
      simp only [Formula.cells, List.length_append] at hle ⊢
      rw [tally?, tally?_of_le f (by omega), Option.bind_some, tally?_of_le k (by omega), Nat.add_assoc]
  | .call _ fs, _, hle => tallyAll?_of_le fs hle
  | .literal _, _, _ | .failure _, _, _ | .rowCount, _, _ | .name _, _, _ => rfl

theorem tallyAll?_of_le : ∀ (fs : List Formula) {count : Nat}, count + (allCells fs).length ≤ limit →
    tallyAll? limit count fs = some (count + (allCells fs).length)
  | [], _, _ => rfl
  | f :: fs, count, hle => by
      simp only [allCells, List.length_append] at hle ⊢
      rw [tallyAll?, tally?_of_le f (by omega), Option.bind_some, tallyAll?_of_le fs (by omega), Nat.add_assoc]

end

theorem references_of_le {f : Formula} (hle : f.cells.length ≤ limit) : f.references limit = .ok f.cells := by
  rw [references, tally?_of_le f (by omega)]

theorem eq_cells_of_references {f : Formula} (h : f.references limit = .ok cells) : cells = f.cells := by
  unfold references at h
  split at h <;> cases h
  rfl

/-- The references of a formula are all that it asks a grid for, in any of its branches, and with the number of rows, if
it names it, all that its value depends on. -/
theorem evaluate_from_references (f : Formula) : ∃ cells : List Cell,
    (∀ limit, cells.length ≤ limit → f.references limit = .ok cells) ∧
      (∀ limit others, f.references limit = .ok others → others = cells) ∧
      (∀ g : Grid, ∀ c ∈ (f.evaluate g).reads, c ∈ cells) ∧
      ∀ g g' : Grid, (f.usesRowCount = true → g'.rowCount = g.rowCount) →
        ((∀ c ∈ cells, g'.value c = g.value c) → f.evaluate g' = f.evaluate g) ∧
          ((∀ c ∈ cells, Outcome.Alike (g'.value c) (g.value c)) → Outcome.Alike (f.valueIn g') (f.valueIn g)) := by
  have hmirrored (g g' : Grid) (hrows : f.usesRowCount = true → g'.rowCount = g.rowCount)
      (hvalues : ∀ c ∈ f.cells, g'.value c = g.value c) : Mirrored id f.cells g g' f.evaluate f.evaluate := by
    have hcarries : Carries id f.cells f.usesRowCount g g' :=
      ⟨hvalues, fun _ _ _ _ => (List.map_id _).symm, hrows⟩
    have hrelocated := evaluate_relocate hcarries f (List.Subset.refl _) id
    rwa [relocate_id] at hrelocated
  refine ⟨f.cells, fun limit => references_of_le, fun limit others => eq_cells_of_references, fun g => ?_,
    fun g g' hrows => ⟨fun hvalues => ?_, fun hvalues => valueIn_alike hvalues hrows⟩⟩
  · exact (hmirrored g g (fun _ => rfl) fun _ _ => rfl).within
  · refine (hmirrored g g' hrows hvalues).answer.trans ?_
    rw [Answer.moved, List.map_id]

variable {rows columns : Int}

def IsRelative : Formula → Prop
  | .cell a => a.rowFixed = false ∧ a.columnFixed = false
  | .range a b => (a.rowFixed = false ∧ a.columnFixed = false) ∧ b.rowFixed = false ∧ b.columnFixed = false
  | _ => True

end Formula

theorem Address.eq_shift_of_moves {a b : Address} (hfixed : a.rowFixed = false ∧ a.columnFixed = false)
    (h : a.Moves rows columns b) :
    b = { a with cell := a.cell.shift rows columns } ∧ b.cell.IsOnGrid ∧
      (b.cell.row : Int) = a.cell.row + rows ∧ (b.cell.column : Int) = a.cell.column + columns := by
  obtain ⟨⟨row, column⟩, rowFixed, columnFixed⟩ := b
  obtain ⟨hrowFixed, hcolumnFixed, hrow, hcolumn⟩ := h
  simp only [CoordinateMoves, hfixed, Bool.false_eq_true, if_false] at hrow hcolumn hrowFixed hcolumnFixed
  refine ⟨?_, ⟨hrow.2, hcolumn.2⟩, hrow.1, hcolumn.1⟩
  subst hrowFixed hcolumnFixed
  simp only [Cell.shift, hfixed, Address.mk.injEq, Cell.mk.injEq, and_true]
  omega

namespace Formula

mutual

theorem offset_eq_relocate : ∀ f : Formula, (∀ p ∈ f.parts, p.IsRelative) → (∀ p ∈ f.parts, p.Stays rows columns) →
    f.offset rows columns = f.relocate (Cell.shift rows columns)
  | .cell a, hrelative, hstays => by
      obtain ⟨b, hb⟩ : ∃ b, a.Moves rows columns b := hstays _ List.mem_cons_self
      rw [offset, Address.offset?_eq_some_iff.mpr hb]
      exact congrArg cell (Address.eq_shift_of_moves (hrelative _ List.mem_cons_self) hb).1
  | .range a b, hrelative, hstays => by
      obtain ⟨⟨c, hc⟩, d, hd⟩ : (∃ c, a.Moves rows columns c) ∧ ∃ d, b.Moves rows columns d :=
        hstays _ List.mem_cons_self
      obtain ⟨ha, hb⟩ := hrelative _ List.mem_cons_self
      rw [offset, Address.offset?_eq_some_iff.mpr hc, Address.offset?_eq_some_iff.mpr hd]
      exact congrArg₂ range (Address.eq_shift_of_moves ha hc).1 (Address.eq_shift_of_moves hb hd).1
  | .negate f, hrelative, hstays => by
      simp only [offset, relocate, offset_eq_relocate f (fun p hp => hrelative p (List.mem_cons_of_mem _ hp))
        fun p hp => hstays p (List.mem_cons_of_mem _ hp)]
  | .binary o f g, hrelative, hstays => by
      have hf := offset_eq_relocate f (fun p hp => hrelative p (by simp [parts, hp])) fun p hp =>
        hstays p (by simp [parts, hp])
      have hg := offset_eq_relocate g (fun p hp => hrelative p (by simp [parts, hp])) fun p hp =>
        hstays p (by simp [parts, hp])
      simp only [offset, relocate, hf, hg]
  | .call w fs, hrelative, hstays => by
      simp only [offset, relocate, offsetAll_eq_relocateAll fs (fun p hp => hrelative p (List.mem_cons_of_mem _ hp))
        fun p hp => hstays p (List.mem_cons_of_mem _ hp)]
  | .literal _, _, _ | .failure _, _, _ | .rowCount, _, _ | .name _, _, _ => rfl

theorem offsetAll_eq_relocateAll : ∀ fs : List Formula, (∀ p ∈ allParts fs, p.IsRelative) →
    (∀ p ∈ allParts fs, p.Stays rows columns) →
    offsetAll rows columns fs = relocateAll (Cell.shift rows columns) fs
  | [], _, _ => rfl
  | f :: fs, hrelative, hstays => by
      have hf := offset_eq_relocate f (fun p hp => hrelative p (List.mem_append_left _ hp)) fun p hp =>
        hstays p (List.mem_append_left _ hp)
      have hfs := offsetAll_eq_relocateAll fs (fun p hp => hrelative p (List.mem_append_right _ hp)) fun p hp =>
        hstays p (List.mem_append_right _ hp)
      simp only [offsetAll, relocateAll, hf, hfs]

end

end Formula

theorem Address.IsNear.isOnGrid {a : Address} (h : a.IsNear) : a.cell.IsOnGrid := by
  obtain ⟨hcolumn, hrow⟩ := h
  simp only [columnsInReach] at hcolumn
  simp only [Cell.IsOnGrid, Cell.gridSide] at hrow ⊢
  omega

theorem Address.moves_shift {a b : Address} (hnear : a.IsNear) (hfixed : a.rowFixed = false ∧ a.columnFixed = false)
    (h : a.Moves rows columns b) : Cell.Moves rows columns a.cell (a.cell.shift rows columns) := by
  obtain ⟨rfl, hgrid, hrow, hcolumn⟩ := eq_shift_of_moves hfixed h
  exact ⟨hrow, hcolumn, hnear.isOnGrid, hgrid⟩

namespace Formula

def ownCells : Formula → List Cell
  | .cell a => [a.cell]
  | .range a b => (Rectangle.between a.cell b.cell).cells
  | _ => []

mutual

theorem cells_eq_flatMap : ∀ f : Formula, f.cells = f.parts.flatMap ownCells
  | .negate f => cells_eq_flatMap f
  | .binary _ f g => by
      simp only [cells, parts, List.flatMap_cons, List.flatMap_append, cells_eq_flatMap f, cells_eq_flatMap g]
      rfl
  | .call _ fs => allCells_eq_flatMap fs
  | .cell _ | .range _ _ => (List.flatMap_singleton ..).symm
  | .literal _ | .failure _ | .rowCount | .name _ => rfl

theorem allCells_eq_flatMap : ∀ fs : List Formula, allCells fs = (allParts fs).flatMap ownCells
  | [] => rfl
  | f :: fs => by
      simp only [allCells, allParts, List.flatMap_append, cells_eq_flatMap f, allCells_eq_flatMap fs]

end

section Parsed

variable {f : Formula} {s : String} (hparse : parse s = .ok f) (hrelative : ∀ p ∈ f.parts, p.IsRelative)
  (hstays : ∀ p ∈ f.parts, p.Stays rows columns)

include hparse hrelative hstays

theorem moves_shift_of_parse {c : Cell} (hc : c ∈ f.cells) : c.Moves rows columns (c.shift rows columns) := by
  obtain ⟨ts, -, d, -, -, hspells⟩ := drawn_of_parse hparse
  rw [cells_eq_flatMap] at hc
  obtain ⟨p, hp, hc⟩ := List.mem_flatMap.mp hc
  have hnear : p.IsDrawnFrom ts := hspells.drawn p hp
  have hfixed := hrelative p hp
  have hmoves := hstays p hp
  cases p with
  | cell a =>
      obtain rfl := List.mem_singleton.mp hc
      obtain ⟨b, hb⟩ := hmoves
      exact Address.moves_shift hnear hfixed hb
  | range a b =>
      obtain ⟨⟨_, ha⟩, _, hb⟩ := hmoves
      exact Cell.moves_between (Address.moves_shift hnear.1 hfixed.1 ha) (Address.moves_shift hnear.2 hfixed.2 hb) hc
  | _ => exact absurd hc List.not_mem_nil

/-- Where no coordinate is fixed, moving a formula is the same as moving the grid under it. Over the moved grid the moved
formula has the value that the formula has over the old one, and it asks for the moved cells in the same order. -/
theorem offset_evaluates_moved {g g' : Grid} (hrows : g'.rowCount = g.rowCount)
    (hmoved : ∀ c d : Cell, c.Moves rows columns d → g'.value d = g.value c) :
    (f.offset rows columns).valueIn g' = f.valueIn g ∧
      ((f.offset rows columns).evaluate g').reads = (f.evaluate g).reads.map (Cell.shift rows columns) := by
  have hcells {c : Cell} (hc : c ∈ f.cells) := moves_shift_of_parse hparse hrelative hstays hc
  have hcarries : Carries (Cell.shift rows columns) f.cells true g g' :=
    ⟨fun c hc => hmoved _ _ (hcells hc), fun a ha b hb => Cell.cells_between_shift (hcells ha) (hcells hb),
      fun _ => hrows⟩
  have hmirrored := evaluate_relocate hcarries f (List.Subset.refl _) fun _ => rfl
  rw [← offset_eq_relocate f hrelative hstays] at hmirrored
  rw [valueIn, valueIn, hmirrored.answer]
  exact ⟨rfl, rfl⟩

end Parsed

theorem offset_evaluates_moved_sum : ∃ (f : Formula) (g g' : Grid),
    parse "=IF(SUM(B3:A1)>A1, COUNT(A1:B3), nope)" = .ok f ∧
      f.valueIn g = .ok (.number 6) ∧ (f.offset 2 1).valueIn g' = .ok (.number 6) := by
  have hparse : parse "=IF(SUM(B3:A1)>A1, COUNT(A1:B3), nope)" = .ok (.call "IF"
      [.binary .greater (.call "SUM" [.range ⟨⟨2, 1⟩, false, false⟩ ⟨⟨0, 0⟩, false, false⟩])
          (.cell ⟨⟨0, 0⟩, false, false⟩),
        .call "COUNT" [.range ⟨⟨0, 0⟩, false, false⟩ ⟨⟨2, 1⟩, false, false⟩], .name "nope"]) := by cbv
  have hmoves (row column : Nat) (hrow : row < 3) (hcolumn : column < 2) :
      ∃ b, Address.Moves 2 1 ⟨⟨row, column⟩, false, false⟩ b :=
    ⟨⟨⟨row + 2, column + 1⟩, false, false⟩, rfl, rfl, by simp [CoordinateMoves, Cell.gridSide]; omega,
      by simp [CoordinateMoves, Cell.gridSide]; omega⟩
  let g : Grid := ⟨fun c => .ok (.number (Number.ofNat (c.row + c.column))), 6⟩
  let g' : Grid := ⟨fun d => g.value ⟨d.row - 2, d.column - 1⟩, 6⟩
  have hmoved (c d : Cell) (h : c.Moves 2 1 d) : g'.value d = g.value c := by
    have hrow := h.row
    have hcolumn := h.column
    have hc : (⟨d.row - 2, d.column - 1⟩ : Cell) = c := by
      rw [← (show (⟨c.row, c.column⟩ : Cell) = c from rfl), Cell.mk.injEq]
      omega
    exact congrArg g.value hc
  have hshifted := @offset_evaluates_moved 2 1 _ _ hparse (by simp [parts, allParts, IsRelative])
    (by simp [parts, allParts, Stays, hmoves]) g g' rfl hmoved
  exact ⟨_, g, g', hparse, by decide +kernel, hshifted.1.trans (by decide +kernel)⟩

end Formula

end LiveSheet
