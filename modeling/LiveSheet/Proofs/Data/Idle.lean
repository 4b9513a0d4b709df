import LiveSheet.Proofs.Data.Deposits

namespace LiveSheet

/-- Whether an edit gives a row, or all of them, a new stamp, though nothing changes. -/
def Edit.reopens (answer : Receipt) (row : Nat) : Edit → Bool
  | .addColumn .. => true
  | .setValue index .. | .setFormula index .. | .clearFormula index _ => index == row && answer.isOk
  | .pushRow _ | .removeRow _ => false

namespace Dataset

/-- The edit fails, or no revision counts it. -/
def Idle (d : Dataset) (e : Edit) : Prop := (d.edit e).2.isOk = false ∨ (d.edit e).1.revisions = d.revisions

variable {s : Schema} {d d' : Dataset} {taken : List Snapshot} {t : Table} {e : Edit} {answer : Receipt}

theorem due_of_new {r : Stamped Row} {c : ComputedRow} (h : c.source.stamp < r.stamp) : due s r c = [] :=
  if_neg (Nat.ne_of_gt h)

theorem depositsFrom_set {rows : List (Stamped Row)} {computed : List ComputedRow} {r : Stamped Row}
    (hnew : ∀ c ∈ computed, c.source.stamp < r.stamp) (index row : Nat) :
    depositsFrom s index (rows.set row r) computed =
      (depositsFrom s index rows computed).filter fun w => !(index + row == w.row) := by
  induction rows generalizing index row computed with
  | nil => rfl
  | cons live rows ih =>
      cases computed with
      | nil => cases row <;> rfl
      | cons c rest =>
          have hrest : ∀ c ∈ rest, c.source.stamp < r.stamp := fun c hc => hnew c (List.mem_cons_of_mem _ hc)
          have hlater : ∀ w ∈ depositsFrom s (index + 1) rows rest, index + 1 ≤ w.row := fun w hw => by
            obtain ⟨i, -, -, hrow, -⟩ := mem_depositsFrom.mp hw
            omega
          cases row with
          | zero =>
              rw [List.set_cons_zero, depositsFrom, depositsFrom, due_of_new (hnew c List.mem_cons_self),
                List.filter_append]
              have hfirst : ((due s live c).map fun p => (⟨index, p.1, p.2⟩ : Deposit)).filter
                  (fun w => !(index + 0 == w.row)) = [] :=
                List.filter_eq_nil_iff.mpr fun w hw => by
                  obtain ⟨p, -, rfl⟩ := List.mem_map.mp hw
                  simp
              have hothers : (depositsFrom s (index + 1) rows rest).filter (fun w => !(index + 0 == w.row)) =
                  depositsFrom s (index + 1) rows rest :=
                List.filter_eq_self.mpr fun w hw => by have := hlater w hw; grind
              rw [hfirst, hothers, List.map_nil]
          | succ row =>
              have hfirst : ((due s live c).map fun p => (⟨index, p.1, p.2⟩ : Deposit)).filter
                  (fun w => !(index + (row + 1) == w.row)) = (due s live c).map fun p => ⟨index, p.1, p.2⟩ :=
                List.filter_eq_self.mpr fun w hw => by
                  obtain ⟨p, -, rfl⟩ := List.mem_map.mp hw
                  simp
              have hindex : index + 1 + row = index + (row + 1) := by omega
              rw [List.set_cons_succ, depositsFrom, depositsFrom, List.filter_append, hfirst, ih hrest, hindex]

theorem Recorded.deposits_reopen (h : d.Recorded taken) (ht : t.snapshot ∈ taken) (row : Nat) (r : Row) :
    (d.reopen row r none).deposits t = (d.deposits t).filter fun w => !(row == w.row) := by
  unfold deposits
  have hschema : (d.reopen row r none).schema = d.schema := rfl
  rw [hschema]
  split
  · rfl
  · have hnew : ∀ c ∈ t.rows, c.source.stamp < (⟨d.nextStamp, r⟩ : Stamped Row).stamp := fun c hc =>
      h.source_lt ht hc
    have hset : depositsFrom d.schema.value 0 (d.rows.set row _) t.rows = _ := depositsFrom_set hnew 0 row
    rwa [Nat.zero_add] at hset

theorem Recorded.deposits_reopenColumns (h : d.Recorded taken) (ht : t.snapshot ∈ taken) (s : Schema) :
    (d.reopenColumns s).deposits t = [] := by
  have hold : t.schema.stamp < d.nextStamp := by
    rcases h.tells.schema _ ht with hlt | heq
    · exact hlt.trans h.tells.columns
    · exact (congrArg Stamped.stamp heq).trans_lt h.tells.columns
  exact if_pos (Nat.ne_of_gt hold)

theorem Does.deposits (hdoes : d.Does e d' answer) (h : d.Recorded taken) (ht : t.snapshot ∈ taken)
    (hidle : answer.isOk = false ∨ d'.revisions = d.revisions) :
    d'.deposits t = (d.deposits t).filter fun w => !e.reopens answer w.row := by
  cases hdoes with
  | refuse hcolumn =>
      refine (List.filter_eq_self.mpr fun w _ => ?_).symm
      cases e with
      | addColumn name kind => exact absurd rfl (hcolumn name kind)
      | pushRow | removeRow => rfl
      | setValue | setFormula | clearFormula => simp [Edit.reopens, Except.isOk, Except.toBool]
  | refuseColumn =>
      rw [h.deposits_reopenColumns ht]
      exact (List.filter_eq_nil_iff.mpr fun w _ => by simp [Edit.reopens]).symm
  | push => exact absurd (congrArg Revisions.layout (hidle.resolve_left nofun)) (Nat.succ_ne_self _)
  | remove => exact absurd (congrArg Revisions.layout (hidle.resolve_left nofun)) (Nat.succ_ne_self _)
  | add => exact absurd (congrArg Revisions.layout (hidle.resolve_left nofun)) (Nat.succ_ne_self _)
  | @rework e row r changed? hr hwork =>
      have hnone : changed? = none := by
        cases changed? with
        | none => rfl
        | some row => exact absurd (congrArg Revisions.values (hidle.resolve_left nofun)) (Nat.succ_ne_self _)
      rw [hnone, h.deposits_reopen ht]
      refine List.filter_congr fun w _ => ?_
      cases hwork <;> simp [Edit.reopens, Except.isOk, Except.toBool]

/-- Behind an edit that changes nothing, a table is stored as it would have been before, but for the row that the edit
opened, and not at all behind an attempt to add a column. -/
theorem deposits_edit_of_idle (d : Dataset) (taken : List Snapshot) (t : Table) (e : Edit) (h : d.Recorded taken)
    (ht : t.snapshot ∈ taken) (hidle : d.Idle e) :
    let after := (d.edit e).1
    d.Stores (d.storeResults t).1 (d.deposits t) ∧ after.Stores (after.storeResults t).1 (after.deposits t) ∧
      after.deposits t = (d.deposits t).filter (fun w => !e.reopens (d.edit e).2 w.row) ∧
      (after.deposits t = d.deposits t ↔ ∀ w ∈ d.deposits t, e.reopens (d.edit e).2 w.row = false) := by
  intro after
  have hdeposits := (d.does_edit e).deposits h ht hidle
  refine ⟨h.stores ht, (h.edit e).stores ht, hdeposits, ?_⟩
  rw [hdeposits, List.filter_eq_self]
  exact forall₂_congr fun w _ => by rw [Bool.not_eq_true']

theorem deposits_edit_of_idle_same_text :
    let d := ((ofSchema ⟨[⟨"x", .native, some 0⟩, ⟨"f", .formula, none⟩]⟩).editAll
      [.pushRow [.number 1], .pushRow [.number 2], .setFormula 0 (.index 1) "=A1+1",
        .setFormula 1 (.index 1) "=A1+A2"]).1
    let t := ((Sheet.after []).runPass .ascending d.snapshot none).2.1
    let e := Edit.setFormula 0 (.index 1) "=A1+1"
    let after := (d.edit e).1
    d.Idle e ∧ (d.deposits t).map Deposit.place = [(0, 1), (1, 1)] ∧
      after.Stores (after.storeResults t).1 (after.deposits t) ∧
      after.deposits t = (d.deposits t).filter (fun w => !e.reopens (d.edit e).2 w.row) ∧
      (after.deposits t).map Deposit.place = [(1, 1)] := by
  intro d t e after
  have hrecorded : d.Recorded [d.snapshot] := ((Recorded.start _).editAll _).copy
  have ht : t.snapshot ∈ [d.snapshot] := by
    rw [Sheet.snapshot_runPass]
    exact List.mem_singleton_self _
  have hidle : d.Idle e := .inr (by decide +kernel)
  obtain ⟨-, hstores, hdeposits, -⟩ := deposits_edit_of_idle d _ t e hrecorded ht hidle
  exact ⟨hidle, by decide +kernel, hstores, hdeposits, by decide +kernel⟩

/-- Setting the value that a field has keeps the result of its row from being stored. -/
theorem deposits_changed_by_same_value : ¬∀ (d : Dataset) (taken : List Snapshot) (t : Table) (e : Edit),
    d.Recorded taken → t.snapshot ∈ taken → d.Idle e → (d.edit e).1.deposits t = d.deposits t := by
  intro h
  let d := ((ofSchema ⟨[⟨"x", .native, some 0⟩, ⟨"f", .formula, none⟩]⟩).editAll
    [.pushRow [.number 1], .setFormula 0 (.index 1) "=A1"]).1
  let t := ((Sheet.after []).runPass .ascending d.snapshot none).2.1
  let e := Edit.setValue 0 (.index 0) (.number 1)
  have hrecorded : d.Recorded [d.snapshot] := ((Recorded.start _).editAll _).copy
  have ht : t.snapshot ∈ [d.snapshot] := by
    rw [Sheet.snapshot_runPass]
    exact List.mem_singleton_self _
  have hsame := congrArg List.length (h d _ t e hrecorded ht (.inr (by decide +kernel)))
  have hbefore : (d.deposits t).length = 1 := by decide +kernel
  have hafter : ((d.edit e).1.deposits t).length = 0 := by decide +kernel
  omega

end Dataset

end LiveSheet
