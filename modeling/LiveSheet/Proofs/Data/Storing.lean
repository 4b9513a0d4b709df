import LiveSheet.Proofs.Cell.Alike
import LiveSheet.Proofs.Data.Stamps

namespace LiveSheet

def Content.bare : Content → Content
  | .native v => .native v
  | .formula cell? => .formula (cell?.map fun cell => { cell with cached? := none })

namespace Row

def store (r : Row) (results : List (Nat × Outcome)) : Row := results.foldl (fun r p => r.setCached p.1 p.2) r

variable (r : Row) (results : List (Nat × Outcome)) (s : Schema) (column : Nat)

theorem getElem?_setCached (index : Nat) (result : Outcome) : (r.setCached index result).formulas[column]? =
    if index = column then r.formulas[column]?.map fun cell => { cell with cached? := some result }
    else r.formulas[column]? := by
  by_cases h : index = column
  · subst h
    simp [setCached]
  · simp [setCached, Std.ExtTreeMap.getElem?_modify, h]

theorem bare_setCached (index : Nat) (result : Outcome) :
    ((r.setCached index result).content? s column).map Content.bare = (r.content? s column).map Content.bare := by
  unfold content?
  cases s.column? column with
  | none => rfl
  | some c =>
      cases hkind : c.kind with
      | native => simp [hkind, setCached]
      | formula =>
          simp only [hkind, getElem?_setCached]
          split
          · cases r.formulas[column]? <;> rfl
          · rfl

theorem bare_store : ((r.store results).content? s column).map Content.bare =
    (r.content? s column).map Content.bare := by
  induction results generalizing r with
  | nil => rfl
  | cons p results ih => exact (ih (r.setCached p.1 p.2)).trans (r.bare_setCached s column p.1 p.2)

variable {r results column}

theorem cached_store {cell : FormulaCell} (h : (r.store results).formulas[column]? = some cell) :
    (∃ result, (column, result) ∈ results ∧ cell.cached? = some result) ∨
      (∀ result, (column, result) ∉ results) ∧ r.formulas[column]? = some cell := by
  induction results generalizing r with
  | nil => exact .inr ⟨fun _ => List.not_mem_nil, h⟩
  | cons p results ih =>
      obtain ⟨index, latest⟩ := p
      rcases ih h with ⟨result, hmem, hcached⟩ | ⟨hlater, hcell⟩
      · exact .inl ⟨result, List.mem_cons_of_mem _ hmem, hcached⟩
      · rw [getElem?_setCached] at hcell
        split at hcell
        · next hindex =>
            subst hindex
            obtain ⟨old, -, rfl⟩ := Option.map_eq_some_iff.mp hcell
            exact .inl ⟨latest, List.mem_cons_self, rfl⟩
        · next hindex =>
            refine .inr ⟨fun result hmem => ?_, hcell⟩
            rcases List.mem_cons.mp hmem with heq | hmem
            · exact hindex (Prod.mk.inj heq).1.symm
            · exact hlater result hmem

end Row

namespace Dataset

variable {s : Schema} {computed again : ComputedRow}

theorem mem_unstored {column : Nat} {result : Outcome} : (column, result) ∈ unstored s computed ↔
    column ∈ s.formulaColumns ∧ computed.cells[column]? = some result ∧
      ∃ cell, computed.source.value.formulas[column]? = some cell ∧ cell.cached?.any (·.same result) = false := by
  unfold unstored
  rw [List.mem_filterMap]
  constructor
  · rintro ⟨k, hk, h⟩
    split at h
    · next result' cell hresult hcell =>
        split at h
        · cases h
        · next hcached =>
            cases h
            exact ⟨hk, hresult, cell, hcell, Bool.eq_false_of_not_eq_true hcached⟩
    · cases h
  · rintro ⟨hk, hresult, cell, hcell, hcached⟩
    exact ⟨column, hk, by simp [hresult, hcell, hcached]⟩

theorem unstored_of_stored (hcells : again.cells = computed.cells)
    (hsource : again.source.value = computed.source.value.store (unstored s computed))
    (hnumbers : ∀ x ∈ computed.cells, x.isNaN = false) : unstored s again = [] := by
  refine List.eq_nil_iff_forall_not_mem.mpr ?_
  rintro ⟨column, result⟩ hmem
  obtain ⟨hcolumn, hresult, cell, hcell, hcached⟩ := mem_unstored.mp hmem
  rw [hcells] at hresult
  rw [hsource] at hcell
  rcases Row.cached_store hcell with ⟨latest, hlatest, hstored⟩ | ⟨hkept, hcell⟩
  · obtain ⟨-, hresult', -⟩ := mem_unstored.mp hlatest
    obtain rfl := Option.some.inj (hresult.symm.trans hresult')
    have hsame := Outcome.same_iff.mpr ⟨Outcome.alike_refl result, hnumbers result (List.mem_of_getElem? hresult)⟩
    simp [hstored, hsame] at hcached
  · exact hkept result (mem_unstored.mpr ⟨hcolumn, hresult, cell, hcell, hcached⟩)

theorem values_storeRows (s : Schema) (stamp : Nat) (computed : List ComputedRow) :
    (storeRows s stamp (computed.map (·.source)) computed).rows.map (·.value) =
      computed.map fun c => c.source.value.store (unstored s c) := by
  induction computed generalizing stamp with
  | nil => rfl
  | cons c computed ih =>
      simp only [List.map_cons, storeRows, if_true]
      split
      · next hempty =>
          rw [List.isEmpty_iff.mp hempty, List.map_cons, ih]
          rfl
      · rw [List.map_cons, ih]
        rfl

theorem storeRows_of_unstored (s : Schema) (stamp : Nat) (rows : List (Stamped Row)) {computed : List ComputedRow}
    (h : ∀ c ∈ computed, unstored s c = []) : storeRows s stamp rows computed = ⟨rows, stamp, 0⟩ := by
  induction computed generalizing rows with
  | nil => cases rows <;> rfl
  | cons c computed ih =>
      cases rows with
      | nil => rfl
      | cons live rows =>
          simp [storeRows, h c List.mem_cons_self, ih rows fun c hc => h c (List.mem_cons_of_mem _ hc)]

theorem length_storeRows (s : Schema) (stamp : Nat) (rows : List (Stamped Row)) (computed : List ComputedRow) :
    (storeRows s stamp rows computed).rows.length = rows.length := by
  fun_induction storeRows s stamp rows computed with
  | case1 stamp live rows computed rest results hempty done ih => exact congrArg (· + 1) ih
  | case2 stamp live rows computed rest results hempty row done ih => exact congrArg (· + 1) ih
  | case3 => rfl

theorem bare_storeRows (s : Schema) (stamp : Nat) (rows : List (Stamped Row)) (computed : List ComputedRow)
    (index column : Nat) :
    (((storeRows s stamp rows computed).rows[index]?).bind fun r => (r.value.content? s column).map Content.bare) =
      (rows[index]?).bind fun r => (r.value.content? s column).map Content.bare := by
  fun_induction storeRows s stamp rows computed generalizing index with
  | case1 stamp live rows computed rest results hempty done ih =>
      cases index with
      | zero => rfl
      | succ index => exact ih index
  | case2 stamp live rows computed rest results hempty row done ih =>
      cases index with
      | zero => exact live.value.bare_store results s column
      | succ index => exact ih index
  | case3 => rfl

variable (d : Dataset) {t t' : Table}

theorem storeResults_of_unstored (h : ∀ c ∈ t.rows, unstored d.schema.value c = []) : d.storeResults t = (d, 0) := by
  unfold storeResults
  split
  · rfl
  · rw [storeRows_of_unstored _ _ _ h]

theorem schema_storeResults : (d.storeResults t).1.schema = d.schema := by
  unfold storeResults
  split <;> rfl

theorem size_storeResults : (d.storeResults t).1.size = d.size := by
  unfold storeResults
  split
  · rfl
  · exact length_storeRows ..

theorem bare_storeResults (row column : Nat) :
    ((d.storeResults t).1.snapshot.content? row column).map Content.bare =
      (d.snapshot.content? row column).map Content.bare := by
  unfold Snapshot.content? snapshot storeResults
  split
  · rfl
  · simp only [Option.map_bind]
    exact bare_storeRows ..

theorem values_storeResults (hschema : t.schema = d.schema) (hrows : t.rows.map (·.source) = d.rows) :
    (d.storeResults t).1.rows.map (·.value) =
      t.rows.map fun c => c.source.value.store (unstored d.schema.value c) := by
  unfold storeResults
  rw [if_neg (by simp [hschema]), ← hrows]
  exact values_storeRows _ _ _

theorem storeResults_again (hschema : t.schema = d.schema) (hrows : t.rows.map (·.source) = d.rows)
    (hrows' : t'.rows.map (·.source) = (d.storeResults t).1.rows)
    (hcells : t'.rows.map (·.cells) = t.rows.map (·.cells))
    (hnumbers : ∀ c ∈ t.rows, ∀ x ∈ c.cells, x.isNaN = false) :
    (d.storeResults t).1.storeResults t' = ((d.storeResults t).1, 0) := by
  have hvalues := d.values_storeResults hschema hrows
  rw [← hrows', List.map_map] at hvalues
  refine storeResults_of_unstored _ fun c' hc' => ?_
  obtain ⟨i, hi, rfl⟩ := List.getElem_of_mem hc'
  have hlength : t'.rows.length = t.rows.length := by simpa using congrArg List.length hcells
  have hi' : i < t.rows.length := hlength ▸ hi
  have hcell : t'.rows[i].cells = t.rows[i].cells := by simpa [hi, hi'] using congrArg (·[i]?) hcells
  rw [schema_storeResults]
  refine unstored_of_stored hcell ?_ (hnumbers _ (List.getElem_mem hi'))
  simpa [hi, hi'] using congrArg (·[i]?) hvalues

end Dataset

end LiveSheet
