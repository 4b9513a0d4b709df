import LiveSheet.Proofs.Data.Effects
import LiveSheet.Proofs.Data.Stamps
import LiveSheet.Proofs.Sheet.Pass

namespace LiveSheet

namespace Dataset

/-- Data behind a history of edits and storing, with the snapshots that were taken in it. A table is stored only if it
was computed from one of them. -/
inductive Recorded : Dataset → List Snapshot → Prop
  | start (s : Schema) : Recorded (.ofSchema s) []
  | edit {d : Dataset} {taken : List Snapshot} (h : Recorded d taken) (e : Edit) : Recorded (d.edit e).1 taken
  | copy {d : Dataset} {taken : List Snapshot} (h : Recorded d taken) : Recorded d (d.snapshot :: taken)
  | store {d : Dataset} {taken : List Snapshot} {t : Table} (h : Recorded d taken) (ht : t.snapshot ∈ taken) :
      Recorded (d.storeResults t).1 taken

def held (d : Dataset) (taken : List Snapshot) : List (Stamped Row) := d.rows ++ taken.flatMap (·.rows)

structure Tells (d : Dataset) (taken : List Snapshot) : Prop where
  old : ∀ r ∈ d.held taken, r.stamp < d.nextStamp
  one : ∀ r ∈ d.rows, ∀ r' ∈ d.held taken, r.stamp = r'.stamp → r = r'
  columns : d.IsStamped
  schema : ∀ s ∈ taken, s.schema.Precedes d.schema

/-- Every row of the second data is one of the first, or has a new stamp of its own. -/
structure Renews (d d' : Dataset) : Prop where
  advances : d.Advances d'
  next : d.nextStamp ≤ d'.nextStamp
  rows : ∀ r ∈ d'.rows, r ∈ d.rows ∨ d.nextStamp ≤ r.stamp ∧ r.stamp < d'.nextStamp
  apart : ∀ r ∈ d'.rows, ∀ r' ∈ d'.rows, d.nextStamp ≤ r.stamp → r.stamp = r'.stamp → r = r'

variable {d d' : Dataset} {taken : List Snapshot}

theorem Tells.renew (h : d.Tells taken) (hd : d.Renews d') : d'.Tells taken where
  old := fun r hr => by
    rcases List.mem_append.mp hr with hr | hr
    · rcases hd.rows r hr with hr | ⟨-, hr⟩
      · exact (h.old r (List.mem_append_left _ hr)).trans_le hd.next
      · exact hr
    · exact (h.old r (List.mem_append_right _ hr)).trans_le hd.next
  one := fun r hr r' hr' hstamp => by
    rcases List.mem_append.mp hr' with hlive | htaken
    · by_cases hnew : d.nextStamp ≤ r.stamp
      · exact hd.apart r hr r' hlive hnew hstamp
      · rcases hd.rows r hr with hr | hr
        · rcases hd.rows r' hlive with hr' | hr'
          · exact h.one r hr r' (List.mem_append_left _ hr') hstamp
          · omega
        · omega
    · have hold := h.old r' (List.mem_append_right _ htaken)
      rcases hd.rows r hr with hr | hr
      · exact h.one r hr r' (List.mem_append_right _ htaken) hstamp
      · omega
  columns := hd.advances.stamped h.columns
  schema := fun s hs => (h.schema s hs).trans (hd.advances.precedes h.columns)

theorem Tells.copy (h : d.Tells taken) : d.Tells (d.snapshot :: taken) := by
  have hheld : ∀ r ∈ d.held (d.snapshot :: taken), r ∈ d.held taken := fun r hr => by
    simp only [held, List.flatMap_cons, List.mem_append] at hr ⊢
    rcases hr with hr | hr | hr
    · exact .inl hr
    · exact .inl hr
    · exact .inr hr
  refine ⟨fun r hr => h.old r (hheld r hr), fun r hr r' hr' => h.one r hr r' (hheld r' hr'), h.columns, fun s hs => ?_⟩
  rcases List.mem_cons.mp hs with rfl | hs
  · exact .refl _
  · exact h.schema s hs

theorem getElem?_extendRows (stamp : Nat) (rows : List (Stamped Row)) (index : Nat) :
    (extendRows stamp rows)[index]? = (rows[index]?).map fun r =>
      ⟨stamp + index, { r.value with native := r.value.native ++ [.blank] }⟩ := by
  induction rows generalizing stamp index with
  | nil => rfl
  | cons r rows ih =>
      cases index with
      | zero => rfl
      | succ index =>
          have hstamp : stamp + 1 + index = stamp + (index + 1) := by omega
          rw [extendRows, List.getElem?_cons_succ, List.getElem?_cons_succ, ih, hstamp]

theorem renews_of_new {row : Row} (hold : ∀ r ∈ d.rows, r.stamp < d.nextStamp)
    (hrows : ∀ r ∈ d'.rows, r ∈ d.rows ∨ r = ⟨d.nextStamp, row⟩) (hschema : d'.schema = d.schema)
    (hnext : d'.nextStamp = d.nextStamp + 1) : d.Renews d' where
  advances := advances_of_same hschema (by omega)
  next := by omega
  rows := fun r hr => (hrows r hr).imp id fun hr => by rw [hr, hnext]; exact ⟨Nat.le_refl _, Nat.lt_succ_self _⟩
  apart := fun r hr r' hr' hnew hstamp => by
    have hnot : ∀ y, d.nextStamp ≤ y.stamp → y ∉ d.rows := fun y hy hmem => Nat.not_lt_of_le hy (hold y hmem)
    have hr := (hrows r hr).resolve_left (hnot r hnew)
    have hr' := (hrows r' hr').resolve_left (hnot r' (hstamp ▸ hnew))
    rw [hr, hr']

theorem renews_of_subset (hrows : ∀ r ∈ d'.rows, r ∈ d.rows) (hold : ∀ r ∈ d.rows, r.stamp < d.nextStamp)
    (hd : d.Advances d') (hnext : d.nextStamp ≤ d'.nextStamp) : d.Renews d' :=
  ⟨hd, hnext, fun r hr => .inl (hrows r hr), fun r hr _ _ hnew _ =>
    absurd (hold r (hrows r hr)) (Nat.not_lt_of_le hnew)⟩

theorem renews_appendColumn (s : Schema) (kind : ColumnKind) (hold : ∀ r ∈ d.rows, r.stamp < d.nextStamp) :
    d.Renews (d.appendColumn s kind) := by
  cases kind with
  | formula =>
      exact renews_of_subset (fun r hr => hr) hold ⟨fun _ => Nat.lt_succ_self _, .inl⟩ (Nat.le_succ _)
  | native =>
      have hrow : ∀ r ∈ (d.appendColumn s .native).rows, ∃ i, i < d.rows.length ∧ r.stamp = d.nextStamp + 1 + i ∧
          (extendRows (d.nextStamp + 1) d.rows)[i]? = some r := fun r hr => by
        obtain ⟨i, hi⟩ := List.mem_iff_getElem?.mp hr
        have hi : (extendRows (d.nextStamp + 1) d.rows)[i]? = some r := hi
        have hvalue := hi
        rw [getElem?_extendRows] at hvalue
        obtain ⟨x, hx, rfl⟩ := Option.map_eq_some_iff.mp hvalue
        exact ⟨i, (List.getElem?_eq_some_iff.mp hx).1, rfl, hi⟩
      have hnext : (d.appendColumn s .native).nextStamp = d.nextStamp + 1 + d.rows.length := rfl
      refine ⟨⟨fun _ => Nat.lt_of_lt_of_le (Nat.lt_succ_self _) (Nat.le_add_right _ _), .inl⟩, ?_, ?_, ?_⟩
      · omega
      · intro r hr
        obtain ⟨i, hi, hstamp, -⟩ := hrow r hr
        exact .inr (by omega)
      · intro r hr r' hr' _ heq
        obtain ⟨i, -, hstamp, hi⟩ := hrow r hr
        obtain ⟨j, -, hstamp', hj⟩ := hrow r' hr'
        obtain rfl : i = j := by omega
        exact Option.some.inj (hi.symm.trans hj)

theorem Does.renews {e : Edit} {answer : Receipt} (h : d.Does e d' answer) (hold : ∀ r ∈ d.rows, r.stamp < d.nextStamp) :
    d.Renews d' := by
  cases h with
  | refuse => exact renews_of_subset (fun r hr => hr) hold (.refl d) (Nat.le_refl _)
  | refuseColumn => exact renews_of_subset (fun r hr => hr) hold ⟨fun _ => Nat.lt_succ_self _, .inl⟩ (Nat.le_succ _)
  | push =>
      exact renews_of_new hold (fun r hr => (List.mem_append.mp hr).imp id List.mem_singleton.mp) rfl rfl
  | remove =>
      exact renews_of_subset (fun r hr => List.mem_of_mem_eraseIdx hr) hold (advances_of_same rfl (Nat.le_refl _))
        (Nat.le_refl _)
  | add => exact renews_appendColumn _ _ hold
  | rework =>
      exact renews_of_new hold (fun r hr => List.mem_or_eq_of_mem_set hr) rfl rfl

theorem renews_storeRows (s : Schema) (stamp : Nat) (rows : List (Stamped Row)) (computed : List ComputedRow)
    (hold : ∀ r ∈ rows, r.stamp < stamp) :
    let done := storeRows s stamp rows computed
    (∀ r ∈ done.rows, r ∈ rows ∨ stamp ≤ r.stamp ∧ r.stamp < done.nextStamp) ∧
      ∀ r ∈ done.rows, ∀ r' ∈ done.rows, stamp ≤ r.stamp → r.stamp = r'.stamp → r = r' := by
  fun_induction storeRows s stamp rows computed with
  | case1 stamp live rows computed rest results hempty done ih =>
      obtain ⟨hrows, hapart⟩ := ih fun r hr => hold r (List.mem_cons_of_mem _ hr)
      have hlive := hold live List.mem_cons_self
      refine ⟨fun r hr => ?_, fun r hr r' hr' hnew hstamp => ?_⟩
      · rcases List.mem_cons.mp hr with rfl | hr
        · exact .inl List.mem_cons_self
        · exact (hrows r hr).imp (List.mem_cons_of_mem _) id
      · rcases List.mem_cons.mp hr with rfl | hr
        · omega
        · rcases List.mem_cons.mp hr' with rfl | hr'
          · omega
          · exact hapart r hr r' hr' hnew hstamp
  | case2 stamp live rows computed rest results hempty row done ih =>
      have hold' : ∀ r ∈ rows, r.stamp < stamp := fun r hr => hold r (List.mem_cons_of_mem _ hr)
      obtain ⟨hrows, hapart⟩ := ih fun r hr => Nat.lt_succ_of_lt (hold' r hr)
      have hnext : stamp < done.nextStamp := le_nextStamp_storeRows ..
      -- the stamps behind the first row are old, or greater than the one it has now
      have htail : ∀ r ∈ done.rows, r.stamp ≠ stamp := fun r hr => by
        rcases hrows r hr with hr | hr
        · exact Nat.ne_of_lt (hold' r hr)
        · omega
      refine ⟨fun r hr => ?_, fun r hr r' hr' hnew hstamp => ?_⟩
      · rcases List.mem_cons.mp hr with rfl | hr
        · exact .inr ⟨Nat.le_refl _, hnext⟩
        · exact (hrows r hr).imp (List.mem_cons_of_mem _) fun hr => ⟨Nat.le_of_succ_le hr.1, hr.2⟩
      · rcases List.mem_cons.mp hr with rfl | hr
        · rcases List.mem_cons.mp hr' with rfl | hr'
          · rfl
          · exact absurd hstamp.symm (htail r' hr')
        · rcases List.mem_cons.mp hr' with rfl | hr'
          · exact absurd hstamp (htail r hr)
          · exact hapart r hr r' hr' (Nat.lt_of_le_of_ne hnew (htail r hr).symm) hstamp
  | case3 =>
      refine ⟨fun r hr => .inl hr, fun r hr _ _ hnew _ => ?_⟩
      exact absurd (hold r hr) (Nat.not_lt_of_le hnew)

theorem renews_storeResults (hold : ∀ r ∈ d.rows, r.stamp < d.nextStamp) (t : Table) :
    d.Renews (d.storeResults t).1 := by
  have hadvances := d.advances_storeResults t
  unfold storeResults at hadvances ⊢
  split
  · exact renews_of_subset (fun r hr => hr) hold (.refl d) (Nat.le_refl _)
  · next hschema =>
      rw [if_neg hschema] at hadvances
      obtain ⟨hrows, hapart⟩ := renews_storeRows d.schema.value d.nextStamp d.rows t.rows hold
      exact ⟨hadvances, le_nextStamp_storeRows .., hrows, hapart⟩

theorem Tells.rows_old (h : d.Tells taken) (r : Stamped Row) (hr : r ∈ d.rows) : r.stamp < d.nextStamp :=
  h.old r (List.mem_append_left _ hr)

theorem Recorded.tells (h : d.Recorded taken) : d.Tells taken := by
  induction h with
  | start s => exact ⟨nofun, nofun, isStamped_ofSchema s, nofun⟩
  | edit _ e ih => exact ih.renew ((does_edit _ e).renews ih.rows_old)
  | copy _ ih => exact ih.copy
  | store _ _ ih => exact ih.renew (renews_storeResults ih.rows_old _)

variable {t : Table}

/-- A live row that has the stamp of the row it is compared with is that row, also in what it holds. -/
theorem Recorded.eq_source (h : d.Recorded taken) (ht : t.snapshot ∈ taken) {live : Stamped Row} {c : ComputedRow}
    (hlive : live ∈ d.rows) (hc : c ∈ t.rows) (hstamp : live.stamp = c.source.stamp) : live = c.source := by
  have hsource : c.source ∈ t.snapshot.rows := List.mem_map_of_mem hc
  exact h.tells.one live hlive c.source
    (List.mem_append_right _ (List.mem_flatMap.mpr ⟨t.snapshot, ht, hsource⟩)) hstamp

theorem Recorded.source_lt (h : d.Recorded taken) (ht : t.snapshot ∈ taken) {c : ComputedRow} (hc : c ∈ t.rows) :
    c.source.stamp < d.nextStamp :=
  h.tells.old c.source (List.mem_append_right _ (List.mem_flatMap.mpr ⟨t.snapshot, ht, List.mem_map_of_mem hc⟩))

theorem Recorded.eq_schema (h : d.Recorded taken) (ht : t.snapshot ∈ taken) (hstamp : d.schema.stamp = t.schema.stamp) :
    t.schema = d.schema := (h.tells.schema _ ht).eq_of_stamp hstamp.symm

end Dataset

end LiveSheet
