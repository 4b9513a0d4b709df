import LiveSheet.Proofs.Data.Revisions
import LiveSheet.Proofs.Data.Taken
import LiveSheet.Proofs.Data.Writing

namespace LiveSheet

structure Deposit where
  row : Nat
  column : Nat
  result : Outcome

def Deposit.place (w : Deposit) : Nat × Nat := (w.row, w.column)

namespace Row

variable {r : Row} {results : List (Nat × Outcome)} {column : Nat}

theorem getElem?_store_of_not_mem (h : column ∉ results.map Prod.fst) :
    (r.store results).formulas[column]? = r.formulas[column]? := by
  induction results generalizing r with
  | nil => rfl
  | cons p results ih =>
      rw [List.map_cons, List.mem_cons, not_or] at h
      have hfirst : (r.setCached p.1 p.2).formulas[column]? = r.formulas[column]? := by
        rw [getElem?_setCached, if_neg (Ne.symm h.1)]
      exact (ih h.2).trans hfirst

theorem getElem?_store_of_mem {result : Outcome} (hcolumns : (results.map Prod.fst).Nodup)
    (h : (column, result) ∈ results) : (r.store results).formulas[column]? =
      r.formulas[column]?.map fun cell => { cell with cached? := some result } := by
  induction results generalizing r with
  | nil => cases h
  | cons p results ih =>
      rw [List.map_cons, List.nodup_cons] at hcolumns
      rcases List.mem_cons.mp h with rfl | h
      · have hfirst : (r.setCached column result).formulas[column]? =
            r.formulas[column]?.map fun cell => { cell with cached? := some result } := by
          rw [getElem?_setCached, if_pos rfl]
        exact (getElem?_store_of_not_mem hcolumns.1).trans hfirst
      · have hne : p.1 ≠ column := fun heq => hcolumns.1 (heq ▸ List.mem_map_of_mem h)
        have hfirst : (r.setCached p.1 p.2).formulas[column]? = r.formulas[column]? := by
          rw [getElem?_setCached, if_neg hne]
        rw [← hfirst]
        exact ih hcolumns.2 h

end Row

namespace Dataset

def due (s : Schema) (live : Stamped Row) (computed : ComputedRow) : List (Nat × Outcome) :=
  if live.stamp = computed.source.stamp then unstored s computed else []

def depositsFrom (s : Schema) (index : Nat) : List (Stamped Row) → List ComputedRow → List Deposit
  | live :: rows, computed :: rest =>
      (due s live computed).map (fun p => ⟨index, p.1, p.2⟩) ++ depositsFrom s (index + 1) rows rest
  | _, _ => []

def deposits (d : Dataset) (t : Table) : List Deposit :=
  if d.schema.stamp ≠ t.schema.stamp then [] else depositsFrom d.schema.value 0 d.rows t.rows

def cell? (d : Dataset) (row column : Nat) : Option FormulaCell :=
  (d.rows[row]?).bind fun r => r.value.formulas[column]?

/-- The second data are the first with results in cells that did not hold them. -/
structure Stores (d d' : Dataset) (written : List Deposit) : Prop where
  schema : d'.schema = d.schema
  revisions : d'.revisions = d.revisions
  nextRow : d'.nextRow = d.nextRow
  records : d'.records = d.records
  apart : (written.map Deposit.place).Nodup
  put : ∀ w ∈ written, ∃ cell, d.cell? w.row w.column = some cell ∧ cell.cached?.any (·.same w.result) = false ∧
    d'.cell? w.row w.column = some { cell with cached? := some w.result }
  kept : ∀ row column, (row, column) ∉ written.map Deposit.place → d'.cell? row column = d.cell? row column

variable {s : Schema}

theorem nodup_unstored (s : Schema) (c : ComputedRow) : ((unstored s c).map Prod.fst).Nodup := by
  have hcolumns : s.formulaColumns.Nodup := List.nodup_range.filter _
  refine List.pairwise_map.mpr (List.pairwise_filterMap.mpr (hcolumns.imp fun hne p hp p' hp' heq => hne ?_))
  grind

theorem nodup_due (s : Schema) (live : Stamped Row) (c : ComputedRow) : ((due s live c).map Prod.fst).Nodup := by
  unfold due
  split
  · exact nodup_unstored s c
  · exact List.nodup_nil

theorem mem_depositsFrom {index : Nat} {rows : List (Stamped Row)} {computed : List ComputedRow} {w : Deposit} :
    w ∈ depositsFrom s index rows computed ↔ ∃ i live c, w.row = index + i ∧ rows[i]? = some live ∧
      computed[i]? = some c ∧ (w.column, w.result) ∈ due s live c := by
  induction rows generalizing index computed with
  | nil =>
      refine ⟨nofun, ?_⟩
      rintro ⟨i, live, c, -, hlive, -⟩
      cases hlive
  | cons live rows ih =>
      cases computed with
      | nil =>
          refine ⟨nofun, ?_⟩
          rintro ⟨i, live, c, -, -, hc, -⟩
          cases hc
      | cons c rest =>
          rw [depositsFrom, List.mem_append, List.mem_map, ih]
          constructor
          · rintro (⟨p, hp, rfl⟩ | ⟨i, live', c', hrow, hlive, hc, hdue⟩)
            · exact ⟨0, live, c, rfl, rfl, rfl, hp⟩
            · exact ⟨i + 1, live', c', by omega, hlive, hc, hdue⟩
          · rintro ⟨i, live', c', hrow, hlive, hc, hdue⟩
            cases i with
            | zero =>
                cases hlive
                cases hc
                exact .inl ⟨_, hdue, by rw [← Nat.add_zero index, ← hrow]⟩
            | succ i => exact .inr ⟨i, live', c', by omega, hlive, hc, hdue⟩

theorem nodup_depositsFrom (index : Nat) (rows : List (Stamped Row)) (computed : List ComputedRow) :
    ((depositsFrom s index rows computed).map Deposit.place).Nodup := by
  induction rows generalizing index computed with
  | nil => exact List.nodup_nil
  | cons live rows ih =>
      cases computed with
      | nil => exact List.nodup_nil
      | cons c rest =>
          rw [depositsFrom, List.map_append, List.map_map]
          refine List.nodup_append'.mpr ⟨?_, ih _ _, ?_⟩
          · have hplaces : (due s live c).map (Deposit.place ∘ fun p => ⟨index, p.1, p.2⟩) =
                ((due s live c).map Prod.fst).map (Prod.mk index) := by
              rw [List.map_map]
              rfl
            rw [hplaces]
            exact (nodup_due s live c).map fun _ _ h => (Prod.mk.inj h).2
          · intro place hfirst hrest
            obtain ⟨p, -, rfl⟩ := List.mem_map.mp hfirst
            obtain ⟨w, hw, hplace⟩ := List.mem_map.mp hrest
            obtain ⟨i, -, -, hrow, -⟩ := mem_depositsFrom.mp hw
            have hindex : w.row = index := congrArg Prod.fst hplace
            omega

theorem written_storeRows (index stamp : Nat) (rows : List (Stamped Row)) (computed : List ComputedRow) :
    (storeRows s stamp rows computed).written = (depositsFrom s index rows computed).length := by
  fun_induction storeRows s stamp rows computed generalizing index with
  | case1 stamp live rows computed rest results hempty done ih =>
      have hdue : due s live computed = [] := List.isEmpty_iff.mp hempty
      rw [depositsFrom, hdue]
      exact ih (index + 1)
  | case2 stamp live rows computed rest results hempty row done ih =>
      rw [depositsFrom, List.length_append, List.length_map]
      exact congrArg (results.length + ·) (ih (index + 1))
  | case3 stamp rows computed hnone =>
      cases rows with
      | nil => rfl
      | cons live rows =>
          cases computed with
          | nil => rfl
          | cons c rest => exact absurd rfl (hnone live rows c rest rfl)

theorem value_storeRows (stamp : Nat) (rows : List (Stamped Row)) (computed : List ComputedRow) (i : Nat) :
    ((storeRows s stamp rows computed).rows[i]?).map (·.value) = (rows[i]?).map fun live =>
      live.value.store ((computed[i]?).elim [] (due s live)) := by
  fun_induction storeRows s stamp rows computed generalizing i with
  | case1 stamp live rows computed rest results hempty done ih =>
      cases i with
      | zero =>
          have hdue : due s live computed = [] := List.isEmpty_iff.mp hempty
          simp only [List.getElem?_cons_zero, Option.map_some, Option.elim_some, hdue]
          rfl
      | succ i => exact ih i
  | case2 stamp live rows computed rest results hempty row done ih =>
      cases i with
      | zero => rfl
      | succ i => exact ih i
  | case3 stamp rows computed hnone =>
      cases rows with
      | nil => rfl
      | cons live rows =>
          cases computed with
          | nil =>
              simp only [List.getElem?_nil, Option.elim_none]
              rfl
          | cons c rest => exact absurd rfl (hnone live rows c rest rfl)

variable {d : Dataset} {taken : List Snapshot} {t : Table}

theorem deposits_of_stamp (h : d.schema.stamp = t.schema.stamp) :
    d.deposits t = depositsFrom d.schema.value 0 d.rows t.rows := if_neg (not_not.mpr h)

theorem mem_deposits {w : Deposit} : w ∈ d.deposits t ↔ d.schema.stamp = t.schema.stamp ∧ ∃ live c,
    d.rows[w.row]? = some live ∧ t.rows[w.row]? = some c ∧ live.stamp = c.source.stamp ∧
      (w.column, w.result) ∈ unstored d.schema.value c := by
  by_cases hschema : d.schema.stamp = t.schema.stamp
  · rw [deposits_of_stamp hschema, mem_depositsFrom]
    constructor
    · rintro ⟨i, live, c, hrow, hlive, hc, hdue⟩
      obtain rfl : w.row = i := by omega
      unfold due at hdue
      split at hdue
      · next hstamp => exact ⟨hschema, live, c, hlive, hc, hstamp, hdue⟩
      · cases hdue
    · rintro ⟨-, live, c, hlive, hc, hstamp, hresult⟩
      exact ⟨w.row, live, c, (Nat.zero_add _).symm, hlive, hc, by rwa [due, if_pos hstamp]⟩
  · simp only [deposits, hschema, ne_eq, not_false_eq_true, if_true, List.not_mem_nil, false_and]

theorem written_storeResults : (d.storeResults t).2 = (d.deposits t).length := by
  unfold storeResults deposits
  split
  · rfl
  · exact written_storeRows 0 _ _ _

theorem nodup_deposits : ((d.deposits t).map Deposit.place).Nodup := by
  unfold deposits
  split
  · exact List.nodup_nil
  · exact nodup_depositsFrom 0 _ _

theorem cell?_storeResults (hschema : d.schema.stamp = t.schema.stamp) (row column : Nat) :
    (d.storeResults t).1.cell? row column = (d.rows[row]?).bind fun live =>
      (live.value.store ((t.rows[row]?).elim [] (due d.schema.value live))).formulas[column]? := by
  have hvalue := value_storeRows (s := d.schema.value) d.nextStamp d.rows t.rows row
  have hcell : (d.storeResults t).1.cell? row column =
      (((storeRows d.schema.value d.nextStamp d.rows t.rows).rows[row]?).map (·.value)).bind (·.formulas[column]?) := by
    rw [Option.bind_map, storeResults, if_neg (not_not.mpr hschema)]
    rfl
  rw [hcell, hvalue, Option.bind_map]
  rfl

theorem storeResults_of_stamp (h : d.schema.stamp ≠ t.schema.stamp) : d.storeResults t = (d, 0) := if_pos h

theorem nextRow_storeResults : (d.storeResults t).1.nextRow = d.nextRow := by
  unfold storeResults
  split <;> rfl

theorem Recorded.stores (h : d.Recorded taken) (ht : t.snapshot ∈ taken) :
    d.Stores (d.storeResults t).1 (d.deposits t) where
  schema := d.schema_storeResults
  revisions := d.revisions_storeResults t
  nextRow := nextRow_storeResults
  records := d.records_storeResults t
  apart := nodup_deposits
  put := fun w hw => by
    obtain ⟨hschema, live, c, hlive, hc, hstamp, hresult⟩ := mem_deposits.mp hw
    obtain ⟨-, -, cell, hcell, hold⟩ := mem_unstored.mp hresult
    rw [← h.eq_source ht (List.mem_of_getElem? hlive) (List.mem_of_getElem? hc) hstamp] at hcell
    have hdue : (w.column, w.result) ∈ due d.schema.value live c := by rwa [due, if_pos hstamp]
    refine ⟨cell, by rw [cell?, hlive, Option.bind_some, hcell], hold, ?_⟩
    rw [cell?_storeResults hschema, hlive, hc, Option.bind_some, Option.elim_some,
      Row.getElem?_store_of_mem (nodup_due ..) hdue, hcell, Option.map_some]
  kept := fun row column hplace => by
    by_cases hschema : d.schema.stamp = t.schema.stamp
    · rw [cell?_storeResults hschema, cell?]
      refine Option.bind_congr fun live hlive => ?_
      cases hc : t.rows[row]? with
      | none => rfl
      | some c =>
          refine Row.getElem?_store_of_not_mem fun hmem => hplace ?_
          obtain ⟨⟨k, result⟩, hdue, rfl⟩ := List.mem_map.mp hmem
          have hw : ⟨row, k, result⟩ ∈ d.deposits t := by
            rw [deposits_of_stamp hschema, mem_depositsFrom]
            exact ⟨row, live, c, (Nat.zero_add _).symm, hlive, hc, hdue⟩
          exact List.mem_map_of_mem hw
    · rw [storeResults_of_stamp hschema]

theorem Recorded.of_mem_deposits (h : d.Recorded taken) (ht : t.snapshot ∈ taken) {w : Deposit}
    (hw : w ∈ d.deposits t) : ∃ live c, d.rows[w.row]? = some live ∧ t.rows[w.row]? = some c ∧ live = c.source ∧
      c.cells[w.column]? = some w.result := by
  obtain ⟨-, live, c, hlive, hc, hstamp, hresult⟩ := mem_deposits.mp hw
  exact ⟨live, c, hlive, hc, h.eq_source ht (List.mem_of_getElem? hlive) (List.mem_of_getElem? hc) hstamp,
    (mem_unstored.mp hresult).2.1⟩

theorem Stores.formula {d' : Dataset} {written : List Deposit} (h : d.Stores d' written) (row column : Nat) :
    (d'.cell? row column).map (·.formula?) = (d.cell? row column).map (·.formula?) := by
  by_cases hplace : (row, column) ∈ written.map Deposit.place
  · obtain ⟨w, hw, hplace⟩ := List.mem_map.mp hplace
    cases hplace
    obtain ⟨cell, hold, -, hnew⟩ := h.put w hw
    rw [hold, hnew]
    rfl
  · rw [h.kept row column hplace]

theorem Recorded.editAll (h : d.Recorded taken) (edits : List Edit) : (d.editAll edits).1.Recorded taken := by
  induction edits generalizing d with
  | nil => exact h
  | cons e edits ih => exact ih (h.edit e)

/-- Storing the results of a table of an earlier snapshot puts into cells of the rows that are still as they were there
what the table holds for these cells, counts the results that were not held yet, and changes nothing else. Behind a
change of the columns it changes nothing at all. -/
theorem storeResults_sound (d : Dataset) (taken : List Snapshot) (t : Table) (h : d.Recorded taken)
    (ht : t.snapshot ∈ taken) :
    d.Stores (d.storeResults t).1 (d.deposits t) ∧ (d.storeResults t).2 = (d.deposits t).length ∧
      (∀ row column, ((d.storeResults t).1.cell? row column).map (·.formula?) =
        (d.cell? row column).map (·.formula?)) ∧
      (∀ w ∈ d.deposits t, ∃ live c, d.rows[w.row]? = some live ∧ t.rows[w.row]? = some c ∧
        live.value = c.source.value ∧ c.cells[w.column]? = some w.result) ∧
      (d.schema.value ≠ t.schema.value → d.storeResults t = (d, 0)) := by
  have hstores := h.stores ht
  refine ⟨hstores, written_storeResults, hstores.formula, fun w hw => ?_, fun hschema => ?_⟩
  · obtain ⟨live, c, hlive, hc, rfl, hresult⟩ := h.of_mem_deposits ht hw
    exact ⟨c.source, c, hlive, hc, rfl, hresult⟩
  · refine storeResults_of_stamp fun hstamp => hschema ?_
    exact (congrArg Stamped.value (h.eq_schema ht hstamp)).symm

theorem storeResults_sound_beside_edits :
    let d := ((ofSchema ⟨[⟨"x", .native, some 0⟩, ⟨"f", .formula, none⟩]⟩).editAll
      [.pushRow [.number 1], .pushRow [.number 2], .setFormula 0 (.index 1) "=A1+1",
        .setFormula 1 (.index 1) "=A1+A2"]).1
    let t := ((Sheet.after []).runPass .ascending d.snapshot none).2.1
    let d' := (d.editAll [.setValue 0 (.index 0) (.number 5), .pushRow [.number 4]]).1
    (d'.deposits t).map Deposit.place = [(1, 1)] ∧ (d'.deposits t).all (·.result.same (.ok (.number 3))) = true ∧
      d'.Stores (d'.storeResults t).1 (d'.deposits t) ∧ (d'.storeResults t).2 = (d'.deposits t).length := by
  intro d t d'
  have hrecorded : d'.Recorded [d.snapshot] := ((Recorded.start _).editAll _).copy.editAll _
  have ht : t.snapshot ∈ [d.snapshot] := by
    rw [Sheet.snapshot_runPass]
    exact List.mem_singleton_self _
  obtain ⟨hstores, hwritten, -⟩ := storeResults_sound d' _ t hrecorded ht
  exact ⟨by decide +kernel, by decide +kernel, hstores, hwritten⟩

end Dataset

end LiveSheet
