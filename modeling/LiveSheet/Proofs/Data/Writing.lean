import LiveSheet.Proofs.Data.Storing

namespace LiveSheet

theorem Row.bare_setFormula {r : Row} {s : Schema} {column : Nat} {c : Column} (text : String)
    (hcolumn : s.column? column = some c) (hkind : c.kind = .formula) (k : Nat) :
    (((r.setFormula? column text).getD r).content? s k).map Content.bare =
      if k = column then some (.formula (some { formula? := some text })) else (r.content? s k).map Content.bare := by
  unfold setFormula?
  split
  · next hsame =>
      rw [Option.getD_none]
      split
      · next hk =>
          subst hk
          obtain ⟨cell, hcell, hformula⟩ := Option.bind_eq_some_iff.mp hsame
          simp [content?, hcolumn, hkind, hcell, Content.bare, hformula]
      · rfl
  · rw [Option.getD_some]
    split
    · next hk =>
        subst hk
        simp [content?, hcolumn, hkind, Content.bare]
    · next hk =>
        have hother : compare column k ≠ .eq := fun h => hk (Std.LawfulEqOrd.eq_of_compare h).symm
        simp only [content?, Std.ExtTreeMap.getElem?_insert, hother, if_false]

theorem Row.record_setFormula (r : Row) (column : Nat) (text : String) :
    (((r.setFormula? column text).getD r).id, ((r.setFormula? column text).getD r).native) = (r.id, r.native) := by
  unfold setFormula?
  split <;> rfl

theorem Row.record_store (r : Row) (results : List (Nat × Outcome)) :
    ((r.store results).id, (r.store results).native) = (r.id, r.native) := by
  induction results generalizing r with
  | nil => rfl
  | cons p results ih => exact ih (r.setCached p.1 p.2)

namespace Dataset

def bare? (d : Dataset) (row column : Nat) : Option Content := (d.snapshot.content? row column).map Content.bare

def records (d : Dataset) : List (Nat × List Value) := d.rows.map fun r => (r.value.id, r.value.native)

theorem bare?_eq (d : Dataset) (row column : Nat) : d.bare? row column =
    (d.rows[row]?).bind fun r => (r.value.content? d.schema.value column).map Content.bare := Option.map_bind

theorem size_eq_of_records {d d' : Dataset} (h : d'.records = d.records) : d'.size = d.size := by
  simpa [records, size] using congrArg List.length h

structure Writes (d d' : Dataset) (row column : Nat) (text : String) : Prop where
  schema : d'.schema = d.schema
  records : d'.records = d.records
  entry : ∀ i k, d'.bare? i k =
    if i = row ∧ k = column then some (.formula (some { formula? := some text })) else d.bare? i k

variable {d : Dataset} {row column : Nat}

theorem rework_of_lt (change : Row → Option Row) (hrow : row < d.rows.length) :
    (d.rework row change).2 = .ok () ∧ (d.rework row change).1.schema = d.schema ∧
      (d.rework row change).1.rows = d.rows.set row ⟨d.nextStamp, (change d.rows[row].value).getD d.rows[row].value⟩ := by
  unfold rework
  rw [List.getElem?_eq_getElem hrow]
  dsimp only
  cases change d.rows[row].value <;> exact ⟨rfl, rfl, rfl⟩

theorem writes_setFormula {c : Column} (text : String) (hcolumn : d.schema.value.column? column = some c)
    (hkind : c.kind = .formula) (hrow : row < d.rows.length) : (d.setFormula row column text).2 = .ok () ∧
      d.Writes (d.setFormula row column text).1 row column text := by
  obtain ⟨hanswer, hschema, hrows⟩ := rework_of_lt (fun r => r.setFormula? column text) hrow
  have hset : d.setFormula row column text = d.rework row fun r => r.setFormula? column text := by
    simp only [setFormula, Schema.column, hcolumn, hkind]
  rw [hset]
  refine ⟨hanswer, hschema, ?_, fun i k => ?_⟩
  · have hrecord := Row.record_setFormula d.rows[row].value column text
    rw [records, hrows, List.map_set, hrecord]
    exact List.map_set.symm.trans (congrArg (List.map _) (List.set_getElem_self hrow))
  · rw [bare?_eq, bare?_eq, hschema, hrows, List.getElem?_set]
    split
    · next hi =>
        subst hi
        rw [Option.bind_some, Row.bare_setFormula text hcolumn hkind, List.getElem?_eq_getElem hrow,
          Option.bind_some]
        simp only [true_and]
    · next hi => simp only [Ne.symm hi, false_and, if_false]

theorem records_storeRows (s : Schema) (stamp : Nat) (rows : List (Stamped Row)) (computed : List ComputedRow) :
    ((storeRows s stamp rows computed).rows.map fun r => (r.value.id, r.value.native)) =
      rows.map fun r => (r.value.id, r.value.native) := by
  fun_induction storeRows s stamp rows computed with
  | case1 stamp live rows computed rest results hempty done ih => exact congrArg (_ :: ·) ih
  | case2 stamp live rows computed rest results hempty row done ih =>
      exact congrArg₂ List.cons (live.value.record_store results) ih
  | case3 => rfl

variable (d) (t : Table)

theorem bare?_storeResults (row column : Nat) : (d.storeResults t).1.bare? row column = d.bare? row column :=
  d.bare_storeResults row column

theorem records_storeResults : (d.storeResults t).1.records = d.records := by
  unfold storeResults
  split
  · rfl
  · exact records_storeRows _ _ _ _

end Dataset

end LiveSheet
