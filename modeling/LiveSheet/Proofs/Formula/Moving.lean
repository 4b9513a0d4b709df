import LiveSheet.Proofs.Formula.Reprint

namespace LiveSheet

variable {rows columns rows' columns' : Int}

def CoordinateMoves (fixed : Bool) (coordinate : Nat) (distance : Int) (moved : Nat) : Prop :=
  if fixed then moved = coordinate else (moved : Int) = coordinate + distance ∧ moved < Cell.gridSide

theorem moveCoordinate?_eq_some_iff {fixed : Bool} {coordinate moved : Nat} {distance : Int} :
    moveCoordinate? fixed coordinate distance = some moved ↔ CoordinateMoves fixed coordinate distance moved := by
  unfold moveCoordinate? CoordinateMoves
  cases fixed with
  | true => simp [eq_comm]
  | false =>
      simp only [Bool.false_eq_true, if_false]
      split <;> simp <;> omega

namespace Address

structure Moves (rows columns : Int) (a b : Address) : Prop where
  rowFixed : b.rowFixed = a.rowFixed
  columnFixed : b.columnFixed = a.columnFixed
  row : CoordinateMoves a.rowFixed a.cell.row rows b.cell.row
  column : CoordinateMoves a.columnFixed a.cell.column columns b.cell.column

theorem offset?_eq_some_iff {a b : Address} : a.offset? rows columns = some b ↔ a.Moves rows columns b := by
  constructor
  · intro h
    unfold offset? at h
    split at h
    · next row column hrow hcolumn =>
        cases h
        exact ⟨rfl, rfl, moveCoordinate?_eq_some_iff.mp hrow, moveCoordinate?_eq_some_iff.mp hcolumn⟩
    · cases h
  · intro h
    obtain ⟨⟨row, column⟩, rowFixed, columnFixed⟩ := b
    obtain ⟨hrowFixed, hcolumnFixed, hrow, hcolumn⟩ := h
    rw [offset?, moveCoordinate?_eq_some_iff.mpr hrow, moveCoordinate?_eq_some_iff.mpr hcolumn]
    simp_all

theorem offset?_eq_none_iff {a : Address} : a.offset? rows columns = none ↔ ∀ b, ¬a.Moves rows columns b := by
  simp only [Option.eq_none_iff_forall_ne_some, ne_eq, offset?_eq_some_iff]

instance (a : Address) : Decidable (∃ b, a.Moves rows columns b) :=
  decidable_of_iff _ (Option.isSome_iff_exists.trans (exists_congr fun _ => offset?_eq_some_iff))

end Address

namespace Formula

/-- `f.Moves rows columns g`: `g` is `f` with its references moved by the distance, or lost where they leave the grid,
and is otherwise the same. -/
inductive Moves (rows columns : Int) : Formula → Formula → Prop where
  | literal (v : Value) : Moves rows columns (.literal v) (.literal v)
  | failure (e : CellError) : Moves rows columns (.failure e) (.failure e)
  | cell {a b : Address} : a.Moves rows columns b → Moves rows columns (.cell a) (.cell b)
  | lostCell {a : Address} : (∀ b, ¬a.Moves rows columns b) → Moves rows columns (.cell a) (.failure .reference)
  | range {a b c d : Address} : a.Moves rows columns c → b.Moves rows columns d →
      Moves rows columns (.range a b) (.range c d)
  | lostRange {a b : Address} : (∀ c, ¬a.Moves rows columns c) ∨ (∀ d, ¬b.Moves rows columns d) →
      Moves rows columns (.range a b) (.failure .reference)
  | rowCount : Moves rows columns .rowCount .rowCount
  | name (w : String) : Moves rows columns (.name w) (.name w)
  | negate {f g : Formula} : Moves rows columns f g → Moves rows columns (.negate f) (.negate g)
  | binary (o : Operator) {f g h k : Formula} : Moves rows columns f h → Moves rows columns g k →
      Moves rows columns (.binary o f g) (.binary o h k)
  | call (w : String) {fs gs : List Formula} : List.Forall₂ (Moves rows columns) fs gs →
      Moves rows columns (.call w fs) (.call w gs)

mutual

theorem moves_offset : ∀ f : Formula, f.Moves rows columns (f.offset rows columns)
  | .literal v => .literal v
  | .failure e => .failure e
  | .cell a => by
      rw [offset]
      cases ha : a.offset? rows columns with
      | none => exact .lostCell (Address.offset?_eq_none_iff.mp ha)
      | some b => exact .cell (Address.offset?_eq_some_iff.mp ha)
  | .range a b => by
      rw [offset]
      cases ha : a.offset? rows columns with
      | none => exact .lostRange (.inl (Address.offset?_eq_none_iff.mp ha))
      | some c =>
          cases hb : b.offset? rows columns with
          | none => exact .lostRange (.inr (Address.offset?_eq_none_iff.mp hb))
          | some d => exact .range (Address.offset?_eq_some_iff.mp ha) (Address.offset?_eq_some_iff.mp hb)
  | .rowCount => .rowCount
  | .name w => .name w
  | .negate f => .negate (moves_offset f)
  | .binary o f g => .binary o (moves_offset f) (moves_offset g)
  | .call w fs => .call w (moves_offsetAll fs)

theorem moves_offsetAll : ∀ fs : List Formula, List.Forall₂ (Moves rows columns) fs (offsetAll rows columns fs)
  | [] => .nil
  | f :: fs => .cons (moves_offset f) (moves_offsetAll fs)

end

theorem offset_reference {f : Formula} (hf : (∃ a, f = .cell a) ∨ ∃ a b, f = .range a b) :
    (f.offset rows columns).precedence = 255 ∧ (f.offset rows columns).nesting = 0 ∧
      (f.offset rows columns).height = 1 ∧ (f.offset rows columns).parts = [f.offset rows columns] ∧
      (f.offset rows columns).IsWritable := by
  have herror : CellError.reference ∈ CellError.written := by decide
  rcases hf with ⟨a, rfl⟩ | ⟨a, b, rfl⟩
  · rw [offset]
    split
    · exact ⟨rfl, rfl, rfl, rfl, trivial⟩
    · exact ⟨rfl, rfl, rfl, rfl, herror⟩
  · rw [offset]
    split
    · exact ⟨rfl, rfl, rfl, rfl, trivial⟩
    · exact ⟨rfl, rfl, rfl, rfl, herror⟩

theorem precedence_offset (f : Formula) : (f.offset rows columns).precedence = f.precedence := by
  cases f with
  | cell a => exact (offset_reference (.inl ⟨a, rfl⟩)).1
  | range a b => exact (offset_reference (.inr ⟨a, b, rfl⟩)).1
  | _ => rfl

mutual

theorem nesting_offset : ∀ f : Formula, (f.offset rows columns).nesting = f.nesting
  | .cell a => (offset_reference (.inl ⟨a, rfl⟩)).2.1
  | .range a b => (offset_reference (.inr ⟨a, b, rfl⟩)).2.1
  | .negate f => by simp only [offset, nesting, nesting_offset f, precedence_offset]
  | .binary o f g => by simp only [offset, nesting, nesting_offset f, nesting_offset g, precedence_offset]
  | .call w fs => argumentsNesting_offsetAll fs
  | .literal _ | .failure _ | .rowCount | .name _ => rfl

theorem argumentsNesting_offsetAll : ∀ fs : List Formula,
    argumentsNesting (offsetAll rows columns fs) = argumentsNesting fs
  | [] => rfl
  | f :: fs => by simp only [offsetAll, argumentsNesting, nesting_offset f, argumentsNesting_offsetAll fs]

end

mutual

theorem height_offset : ∀ f : Formula, (f.offset rows columns).height = f.height
  | .cell a => (offset_reference (.inl ⟨a, rfl⟩)).2.2.1
  | .range a b => (offset_reference (.inr ⟨a, b, rfl⟩)).2.2.1
  | .negate f => by simp only [offset, height, height_offset f]
  | .binary o f g => by simp only [offset, height, height_offset f, height_offset g]
  | .call w fs => by simp only [offset, height, greatestHeight_offsetAll fs]
  | .literal _ | .failure _ | .rowCount | .name _ => rfl

theorem greatestHeight_offsetAll : ∀ fs : List Formula,
    greatestHeight (offsetAll rows columns fs) = greatestHeight fs
  | [] => rfl
  | f :: fs => by simp only [offsetAll, greatestHeight, height_offset f, greatestHeight_offsetAll fs]

end

mutual

theorem parts_offset : ∀ f : Formula, (f.offset rows columns).parts = f.parts.map (offset rows columns)
  | .cell a => (offset_reference (.inl ⟨a, rfl⟩)).2.2.2.1
  | .range a b => (offset_reference (.inr ⟨a, b, rfl⟩)).2.2.2.1
  | .negate f => by simp only [offset, parts, parts_offset f, List.map_cons]
  | .binary o f g => by simp only [offset, parts, parts_offset f, parts_offset g, List.map_cons, List.map_append]
  | .call w fs => by simp only [offset, parts, allParts_offsetAll fs, List.map_cons]
  | .literal _ | .failure _ | .rowCount | .name _ => rfl

theorem allParts_offsetAll : ∀ fs : List Formula,
    allParts (offsetAll rows columns fs) = (allParts fs).map (offset rows columns)
  | [] => rfl
  | f :: fs => by simp only [offsetAll, allParts, parts_offset f, allParts_offsetAll fs, List.map_append]

end

variable {f : Formula}

theorem IsWritable.offset (h : f.IsWritable) : (f.offset rows columns).IsWritable := by
  cases f with
  | cell a => exact (offset_reference (.inl ⟨a, rfl⟩)).2.2.2.2
  | range a b => exact (offset_reference (.inr ⟨a, b, rfl⟩)).2.2.2.2
  | _ => exact h

theorem IsReading.offset (h : f.IsReading) : (f.offset rows columns).IsReading where
  writable := by
    rw [parts_offset]
    exact List.forall_mem_map.mpr fun g hg => (h.writable g hg).offset
  nesting := by
    rw [nesting_offset]
    exact h.nesting
  height := by
    rw [height_offset]
    exact h.height

def Stays (rows columns : Int) : Formula → Prop
  | .cell a => ∃ b, a.Moves rows columns b
  | .range a b => (∃ c, a.Moves rows columns c) ∧ ∃ d, b.Moves rows columns d
  | _ => True

instance : ∀ f : Formula, Decidable (f.Stays rows columns)
  | .cell a => inferInstanceAs (Decidable (∃ b, a.Moves rows columns b))
  | .range a b => inferInstanceAs (Decidable ((∃ c, a.Moves rows columns c) ∧ ∃ d, b.Moves rows columns d))
  | .literal _ | .failure _ | .negate _ | .binary _ _ _ | .rowCount | .name _ | .call _ _ => .isTrue trivial

end Formula

theorem moveCoordinate?_moveCoordinate? {fixed : Bool} {coordinate moved : Nat} {distance distance' : Int}
    (h : CoordinateMoves fixed coordinate distance moved) :
    moveCoordinate? fixed moved distance' = moveCoordinate? fixed coordinate (distance + distance') := by
  unfold CoordinateMoves at h
  cases fixed with
  | true =>
      subst h
      rfl
  | false =>
      obtain ⟨hmoved, -⟩ := h
      simp only [moveCoordinate?, hmoved, Int.add_assoc, Bool.false_eq_true, if_false]

theorem Address.offset?_offset? {a b : Address} (h : a.Moves rows columns b) :
    b.offset? rows' columns' = a.offset? (rows + rows') (columns + columns') := by
  obtain ⟨⟨row, column⟩, rowFixed, columnFixed⟩ := b
  obtain ⟨rfl, rfl, hrow, hcolumn⟩ := h
  simp only [offset?, moveCoordinate?_moveCoordinate? hrow, moveCoordinate?_moveCoordinate? hcolumn]

namespace Formula

mutual

theorem offset_offset : ∀ f : Formula, (∀ g ∈ f.parts, g.Stays rows columns) →
    (f.offset rows columns).offset rows' columns' = f.offset (rows + rows') (columns + columns')
  | .cell a, h => by
      obtain ⟨b, hb⟩ : ∃ b, a.Moves rows columns b := h _ List.mem_cons_self
      simp only [offset, Address.offset?_eq_some_iff.mpr hb, Address.offset?_offset? hb]
  | .range a b, h => by
      obtain ⟨⟨c, hc⟩, d, hd⟩ : (∃ c, a.Moves rows columns c) ∧ ∃ d, b.Moves rows columns d := h _ List.mem_cons_self
      simp only [offset, Address.offset?_eq_some_iff.mpr hc, Address.offset?_eq_some_iff.mpr hd,
        Address.offset?_offset? hc, Address.offset?_offset? hd]
  | .negate f, h => by
      simp only [offset, offset_offset f fun g hg => h g (List.mem_cons_of_mem _ hg)]
  | .binary o f g, h => by
      have hf := offset_offset f fun x hx => h x (by simp [parts, hx])
      have hg := offset_offset g fun x hx => h x (by simp [parts, hx])
      simp only [offset, hf, hg]
  | .call w fs, h => by
      simp only [offset, offsetAll_offsetAll fs fun g hg => h g (List.mem_cons_of_mem _ hg)]
  | .literal _, _ | .failure _, _ | .rowCount, _ | .name _, _ => rfl

theorem offsetAll_offsetAll : ∀ fs : List Formula, (∀ g ∈ allParts fs, g.Stays rows columns) →
    offsetAll rows' columns' (offsetAll rows columns fs) = offsetAll (rows + rows') (columns + columns') fs
  | [], _ => rfl
  | f :: fs, h => by
      have hf := offset_offset f fun g hg => h g (List.mem_append_left _ hg)
      have hfs := offsetAll_offsetAll fs fun g hg => h g (List.mem_append_right _ hg)
      simp only [offsetAll, hf, hfs]

end

variable {f : Formula} {s : String}

theorem body_shifted (f : Formula) : body ("=" ++ f.text) = f.text.toList := by
  rw [body, String.toList_append]
  rfl

theorem shiftText_of_parse (h : parse s = .ok f) :
    shiftText s rows columns = .ok ("=" ++ (f.offset rows columns).text) := by
  rw [shiftText, h]

/-- A shifted text means the shifted formula exactly when it shows that formula. Two shifts of a text are then one shift
by their sum, as long as the references stay on the grid in between. -/
theorem shiftText_means_offset (h : parse s = .ok f) (rows columns : Int) :
    f.Moves rows columns (f.offset rows columns) ∧
    ∃ t, shiftText s rows columns = .ok t ∧
      (parse t = .ok (f.offset rows columns) ↔ (f.offset rows columns).IsShown) ∧
      ((f.offset rows columns).IsShown → (∀ g ∈ f.parts, g.Stays rows columns) → ∀ rows' columns' : Int,
        shiftText t rows' columns' = shiftText s (rows + rows') (columns + columns')) := by
  have hread :
      parse ("=" ++ (f.offset rows columns).text) = .ok (f.offset rows columns) ↔ (f.offset rows columns).IsShown :=
    parse_eq_ok_iff (isReading_of_parse h).offset (body_shifted _)
  refine ⟨moves_offset f, _, shiftText_of_parse h, hread, fun hshown hstays rows' columns' => ?_⟩
  rw [shiftText_of_parse (hread.mpr hshown), shiftText_of_parse h, offset_offset f hstays]

theorem shiftText_means_offset_sum :
    ∃ f t, parse "=-Sum(A1:$B2, x) & C$7" = .ok f ∧ shiftText "=-Sum(A1:$B2, x) & C$7" 2 1 = .ok t ∧
      parse t = .ok (f.offset 2 1) ∧ shiftText t (-1) 3 = .ok "=-SUM(E2:$B3,x)&G$7" := by
  let f : Formula := .binary .join
    (.negate (.call "SUM" [.range ⟨⟨0, 0⟩, false, false⟩ ⟨⟨1, 1⟩, false, true⟩, .name "x"]))
    (.cell ⟨⟨6, 2⟩, true, false⟩)
  have h : parse "=-Sum(A1:$B2, x) & C$7" = .ok f := by cbv
  have hshown : (f.offset 2 1).IsShown := by decide +kernel
  have hstays : ∀ g ∈ f.parts, g.Stays 2 1 := by decide +kernel
  obtain ⟨-, t, ht, hread, hsum⟩ := shiftText_means_offset h 2 1
  exact ⟨f, t, h, ht, hread.mpr hshown, (hsum hshown hstays (-1) 3).trans (by cbv)⟩

theorem shifted_means_other :
    ∃ f, parse "=1e999*A1" = .ok f ∧ shiftText "=1e999*A1" 1 0 = .ok "=inf*A2" ∧
      parse "=inf*A2" ≠ .ok (f.offset 1 0) := by
  have h : parse "=1e999*A1" =
      .ok (.binary .multiply (.literal (.number Number.infinity)) (.cell ⟨⟨0, 0⟩, false, false⟩)) := by cbv
  have ht : shiftText "=1e999*A1" 1 0 = .ok "=inf*A2" := by cbv
  have h' : parse "=inf*A2" = .ok (.binary .multiply (.name "inf") (.cell ⟨⟨1, 0⟩, false, false⟩)) := by cbv
  refine ⟨_, h, ht, ?_⟩
  rw [h']
  simp [offset]

end Formula

end LiveSheet
