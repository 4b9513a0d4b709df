import LiveSheet.Proofs.Sheet.History
import LiveSheet.Sheet.Pass

namespace LiveSheet

def Operation.ofContent (row column : Nat) : Option Content → Operation
  | some (.native v) => .enterValue row column v
  | some (.formula cell?) =>
      match cell?.bind (·.formula?) with
      | some text => .enterText row column text
      | none => .clear row column
  | none => .clear row column

theorem Operation.ofContent_ne_recalculate (row column : Nat) (content? : Option Content) (visit : VisitOrder) :
    Operation.ofContent row column content? ≠ .recalculate visit := by
  match content? with
  | none => simp [ofContent]
  | some (.native v) => simp [ofContent]
  | some (.formula cell?) =>
      simp only [ofContent]
      cases cell?.bind (·.formula?) <;> simp

def Entry.ofContent? : Option Content → Option Entry
  | some (.native v) => some (.literal v)
  | some (.formula cell?) => (cell?.bind (·.formula?)).map .ofText
  | none => none

theorem Entry.exists_text_of_ofContent? {content? : Option Content} {text : String} {reading : Except CellError Formula}
    (h : ofContent? content? = some (.formula text reading)) :
    ∃ text cached?, content? = some (.formula (some ⟨some text, cached?⟩)) := by
  match content?, h with
  | some (.formula (some ⟨some text, cached?⟩)), _ => exact ⟨text, cached?, rfl⟩

def Table.snapshot (t : Table) : Snapshot := ⟨t.schema, t.rows.map (·.source), t.revisions⟩

namespace Snapshot

def width (snapshot : Snapshot) : Nat := snapshot.schema.value.width

def places (snapshot : Snapshot) : List (Nat × Nat) :=
  (List.range snapshot.size).flatMap fun row => (List.range snapshot.width).map fun column => (row, column)

def operations (snapshot : Snapshot) : List Operation :=
  snapshot.places.map (fun p => .ofContent p.1 p.2 (snapshot.content? p.1 p.2)) ++ [.setRowCount snapshot.size]

def entries (snapshot : Snapshot) : CellMap Entry := (Ledger.ofHistory snapshot.operations).entries

def Holds (snapshot : Snapshot) (c : Cell) : Prop :=
  (c.row, c.column) ∈ snapshot.places ∧ Cell.at? c.row c.column = some c

instance (snapshot : Snapshot) (c : Cell) : Decidable (snapshot.Holds c) := instDecidableAnd

theorem holds_iff {snapshot : Snapshot} {c : Cell} :
    snapshot.Holds c ↔ (c.row < snapshot.size ∧ c.column < snapshot.width) ∧ Cell.at? c.row c.column = some c := by
  simp [Holds, places]

/-- Nothing that an old sheet keeps matters to a cell of the snapshot: what the cell leads to is entered anew, if the
old sheet holds it at all, and shows no mark of a cycle there, should one be spelled out. -/
structure ClearOf (snapshot : Snapshot) (old : Sheet) (c : Cell) : Prop where
  left : ∀ d, Relation.ReflTransGen (Entries.Reads snapshot.entries) c d → d ∈ old.entries → snapshot.Holds d
  marks : Entries.Spelled snapshot.entries c → ∀ d, Relation.ReflTransGen (Entries.Reads snapshot.entries) c d →
    old.results[d]? ≠ some (.error .cycle)

theorem clearOf_empty (snapshot : Snapshot) (c : Cell) : snapshot.ClearOf .empty c :=
  ⟨fun d _ hd => by simp [Sheet.empty] at hd, fun _ d _ => by simp [Sheet.empty]⟩

end Snapshot

namespace Ledger

theorem record_ofContent (l : Ledger) (row column : Nat) (content? : Option Content) :
    l.record (.ofContent row column content?) = l.putAt row column (Entry.ofContent? content?) := by
  match content? with
  | none => rfl
  | some (.native v) => rfl
  | some (.formula cell?) =>
      simp only [Operation.ofContent, Entry.ofContent?]
      cases cell?.bind (·.formula?) <;> rfl

variable (l : Ledger) (snapshot : Snapshot) (c : Cell)

theorem getElem?_putAt (row column : Nat) (e? : Option Entry) : (l.putAt row column e?).entries[c]? =
    if (c.row, c.column) = (row, column) ∧ Cell.at? c.row c.column = some c then e? else l.entries[c]? := by
  unfold putAt
  split
  · next d hd =>
      obtain rfl := Cell.eq_of_at? hd
      rw [getElem?_put]
      refine if_congr ⟨?_, fun hc => ?_⟩ rfl rfl
      · rintro rfl
        exact ⟨rfl, hd⟩
      · obtain ⟨hrow, hcolumn⟩ := Prod.mk.inj hc.1
        rw [← hrow, ← hcolumn]
  · next hd =>
      rw [if_neg]
      rintro ⟨hc, hat⟩
      cases hc
      simp [hat] at hd

theorem getElem?_foldl_putAt (places : List (Nat × Nat)) (held : Nat → Nat → Option Entry) :
    (places.foldl (fun l p => l.putAt p.1 p.2 (held p.1 p.2)) l).entries[c]? =
      if (c.row, c.column) ∈ places ∧ Cell.at? c.row c.column = some c then held c.row c.column
      else l.entries[c]? := by
  induction places generalizing l with
  | nil => simp
  | cons p places ih =>
      rw [List.foldl_cons, ih, getElem?_putAt]
      by_cases hp : (c.row, c.column) = p
      · subst hp
        by_cases hat : Cell.at? c.row c.column = some c
        · simp [hat]
        · simp [hat]
      · simp [hp]

theorem getElem?_operations : (snapshot.operations.foldl record l).entries[c]? =
    if snapshot.Holds c then Entry.ofContent? (snapshot.content? c.row c.column) else l.entries[c]? := by
  unfold Snapshot.operations
  rw [List.foldl_append, List.foldl_map]
  simp only [record_ofContent]
  exact l.getElem?_foldl_putAt c snapshot.places fun row column => Entry.ofContent? (snapshot.content? row column)

theorem rowCount_operations : (snapshot.operations.foldl record l).rowCount = snapshot.size := by
  simp [Snapshot.operations, record]

end Ledger

namespace Sheet

variable {s t : Sheet} {l : Ledger} {c d : Cell} (snapshot : Snapshot)

theorem enterContent_eq (s : Sheet) (row column : Nat) (content? : Option Content) :
    s.enterContent row column content? = s.perform (.ofContent row column content?) := by
  match content? with
  | none => rfl
  | some (.native v) => rfl
  | some (.formula cell?) =>
      simp only [enterContent, Operation.ofContent]
      cases cell?.bind (·.formula?) <;> rfl

theorem enterSnapshot_eq (s : Sheet) : s.enterSnapshot snapshot = snapshot.operations.foldl perform s := by
  let enterAt (s : Sheet) (row column : Nat) : Sheet :=
    s.perform (.ofContent row column (snapshot.content? row column))
  let enterAll (s : Sheet) (row : Nat) : Sheet :=
    (List.range snapshot.width).foldl (fun s column => enterAt s row column) s
  have hrow (s : Sheet) (p : Stamped Row × Nat) (hp : p ∈ snapshot.rows.zipIdx) :
      s.enterRow snapshot.schema.value p.2 p.1.value = enterAll s p.2 := by
    have hget : snapshot.rows[p.2]? = some p.1 := List.mem_zipIdx_iff_getElem?.mp hp
    simp [enterRow, enterContent_eq, enterAll, enterAt, Snapshot.content?, hget, Snapshot.width]
  have hrows : snapshot.rows.zipIdx.foldl (fun s p => s.enterRow snapshot.schema.value p.2 p.1.value) s =
      snapshot.places.foldl (fun s p => enterAt s p.1 p.2) s := by
    calc snapshot.rows.zipIdx.foldl (fun s p => s.enterRow snapshot.schema.value p.2 p.1.value) s
      _ = snapshot.rows.zipIdx.foldl (fun s p => enterAll s p.2) s := List.foldl_ext _ _ _ hrow
      _ = (snapshot.rows.zipIdx.map Prod.snd).foldl enterAll s := List.foldl_map.symm
      _ = (List.range snapshot.size).foldl enterAll s := by
        rw [List.zipIdx_map_snd, ← List.range_eq_range']
        rfl
      _ = snapshot.places.foldl (fun s p => enterAt s p.1 p.2) s := by
        simp [Snapshot.places, List.foldl_flatMap, List.foldl_map, enterAll]
  unfold enterSnapshot Snapshot.operations
  rw [List.foldl_append, List.foldl_map]
  exact congrArg (Sheet.setRowCount · snapshot.size) hrows

theorem cell?_table (evaluated : Bool) (row column : Nat) : (s.table snapshot evaluated).cell? row column =
    if row < snapshot.size ∧ column < snapshot.width then
      some (s.shown evaluated row column (snapshot.content? row column))
    else none := by
  unfold Table.cell? table Snapshot.content? Snapshot.size Snapshot.width
  simp only [List.getElem?_map, List.getElem?_zipIdx]
  cases hrow : snapshot.rows[row]? with
  | none =>
      have hsize := List.getElem?_eq_none_iff.mp hrow
      rw [if_neg fun h => Nat.not_lt_of_le hsize h.1]
      rfl
  | some r =>
      have hsize := (List.getElem?_eq_some_iff.mp hrow).1
      by_cases hcolumn : column < snapshot.schema.value.width
      · simp [hsize, hcolumn]
      · simp [hcolumn]

theorem snapshot_runPass (s : Sheet) (visit : VisitOrder) (ceiling? : Option Nat) :
    (s.runPass visit snapshot ceiling?).2.1.snapshot = snapshot := by
  have htable (t : Sheet) (evaluated : Bool) : (t.table snapshot evaluated).snapshot = snapshot := by
    simp only [Table.snapshot, table, List.map_map]
    exact congrArg (fun rows => (⟨snapshot.schema, rows, snapshot.revisions⟩ : Snapshot)) (List.zipIdx_map_fst _ _)
  unfold runPass
  split <;> exact htable _ _

theorem keeps_enterSnapshot (h : Keeps s l) :
    Keeps (s.enterSnapshot snapshot) (snapshot.operations.foldl Ledger.record l) := by
  rw [enterSnapshot_eq]
  exact h.foldl _

def ledger (s : Sheet) : Ledger := ⟨s.entries, s.rowCount⟩

theorem Sound.keeps (h : Sound s) : Keeps s s.ledger := ⟨h, fun c => Entry.rel_refl s.entries[c]?, rfl⟩

theorem settled_runPass (h : Settled s) (visit : VisitOrder) (ceiling? : Option Nat) :
    Settled (s.runPass visit snapshot ceiling?).1 := by
  unfold runPass
  split
  · exact h
  · exact settled_recalculate (keeps_enterSnapshot snapshot h.keeps).sound visit

theorem holds_or_mem_runPass (h : Sound s) {visit : VisitOrder} {ceiling? : Option Nat}
    (hd : d ∈ (s.runPass visit snapshot ceiling?).1.entries) : snapshot.Holds d ∨ d ∈ s.entries := by
  unfold runPass at hd
  split at hd
  · exact .inr hd
  · have hkeeps := keeps_enterSnapshot snapshot h.keeps
    have hrel := hkeeps.entries d
    rw [(content_recalculate visit hkeeps.sound).1, Std.ExtTreeMap.mem_iff_isSome_getElem?] at hd
    obtain ⟨e, he⟩ := Option.isSome_iff_exists.mp hd
    rw [Ledger.getElem?_operations, he] at hrel
    split at hrel
    · next hholds => exact .inl hholds
    · refine .inr ?_
      change Option.Rel Entry.Alike s.entries[d]? _ at hrel
      rw [Std.ExtTreeMap.mem_iff_isSome_getElem?]
      cases hs : s.entries[d]? with
      | none =>
          rw [hs] at hrel
          cases hrel
      | some e' => rfl

theorem cell?_of_results (h : Sound s) (hwithin : ∀ d ∈ s.entries, snapshot.Holds d) {visit : VisitOrder}
    {ceiling? : Option Nat} (hceiling : ceiling?.any (· < snapshot.size) = false) {result : Outcome}
    (hr : (s.runPass visit snapshot ceiling?).1.results[d]? = some result) :
    (s.runPass visit snapshot ceiling?).2.1.cell? d.row d.column = some result := by
  have hholds (hd : d ∈ (s.runPass visit snapshot ceiling?).1.entries) : snapshot.Holds d :=
    (holds_or_mem_runPass snapshot h hd).elim id (hwithin d)
  simp only [runPass, hceiling, Bool.false_eq_true, if_false] at hr hholds ⊢
  have hkeeps := keeps_enterSnapshot snapshot h.keeps
  have hsound := sound_recalculate visit hkeeps.sound
  have hf := hsound.results d (by simp [hr])
  obtain ⟨text, reading, he⟩ := isFormula_iff.mp hf
  have hd := hholds (Std.ExtTreeMap.mem_iff_isSome_getElem?.mpr (by simp [he]))
  have hrel := hkeeps.entries d
  rw [Ledger.getElem?_operations, if_pos hd, ← (content_recalculate visit hkeeps.sound).1, he] at hrel
  have hcontent : Entry.ofContent? (snapshot.content? d.row d.column) = some (.formula text reading) := by
    cases hc : Entry.ofContent? (snapshot.content? d.row d.column) with
    | none => simp [hc] at hrel
    | some e =>
        rw [hc, Option.rel_some_some] at hrel
        cases hrel
        rfl
  obtain ⟨text, cached?, hcontent⟩ := Entry.exists_text_of_ofContent? hcontent
  obtain ⟨hplace, hat⟩ := Snapshot.holds_iff.mp hd
  rw [cell?_table, if_pos hplace, hcontent]
  simp only [shown, if_true, valueAt, hat, value_of_result hf hr]

theorem results_perform (h : Sound s) {operation : Operation} (hentering : ∀ visit, operation ≠ .recalculate visit)
    {result : Outcome} (hr : (s.perform operation).results[c]? = some result) : s.results[c]? = some result := by
  have hplain (d : Cell) (hr : (s.plain d).results[c]? = some result) : s.results[c]? = some result := by
    rw [results_plain d h] at hr
    split at hr
    · cases hr
    · exact hr
  have hvalue (d : Cell) (v : Value) (hr : (s.enterValue d v).results[c]? = some result) :
      s.results[c]? = some result := by
    by_cases hv : s.holdsValue d v = true
    · rwa [show s.enterValue d v = s by simp [enterValue, hv]] at hr
    · rw [enterValue_eq hv] at hr
      exact hplain d hr
  have hformula (d : Cell) (text : String) (hr : (s.enterFormula d text).results[c]? = some result) :
      s.results[c]? = some result := by
    unfold enterFormula at hr
    split at hr <;> exact hr
  cases operation with
  | enterText row column text =>
      simp only [perform, enterTextAt] at hr
      split at hr
      · unfold enterText at hr
        split at hr
        · exact hformula _ text hr
        · exact hvalue _ _ hr
      · exact hr
  | enterValue row column v =>
      simp only [perform, enterValueAt] at hr
      split at hr
      · exact hvalue _ v hr
      · exact hr
  | clear row column =>
      simp only [perform, clearAt] at hr
      split at hr
      · next d _ =>
          by_cases hd : d ∈ s.entries
          · rw [clear_eq hd] at hr
            exact hplain d hr
          · rwa [show s.clear d = s by simp [Sheet.clear, hd]] at hr
      · exact hr
  | setRowCount rows =>
      simp only [perform, setRowCount] at hr
      split at hr <;> exact hr
  | reset => simp [perform, empty] at hr
  | recalculate visit => exact absurd rfl (hentering visit)

theorem results_enterSnapshot (h : Sound s) {result : Outcome}
    (hr : (s.enterSnapshot snapshot).results[c]? = some result) : s.results[c]? = some result := by
  rw [enterSnapshot_eq] at hr
  have hentering : ∀ operation ∈ snapshot.operations, ∀ visit, operation ≠ .recalculate visit := by
    intro operation hmem visit heq
    subst heq
    rcases List.mem_append.mp hmem with hmem | hmem
    · obtain ⟨p, -, hp⟩ := List.mem_map.mp hmem
      exact Operation.ofContent_ne_recalculate _ _ _ visit hp
    · simp at hmem
  generalize snapshot.operations = operations at hr hentering
  induction operations generalizing s with
  | nil => exact hr
  | cons operation operations ih =>
      refine results_perform h (hentering operation List.mem_cons_self) ?_
      exact ih (h.keeps.perform operation).sound hr fun o ho => hentering o (List.mem_cons_of_mem operation ho)

section Apart

variable {snapshot}

theorem alikeBelow_enterSnapshot (h : Sound s) (hclear : snapshot.ClearOf s c) :
    Entries.AlikeBelow snapshot.entries (s.enterSnapshot snapshot).entries c := by
  intro d hcd
  refine Entry.rel_trans ?_ ((keeps_enterSnapshot snapshot h.keeps).entries d)
  rw [Ledger.getElem?_operations, Snapshot.entries, Ledger.ofHistory, Ledger.getElem?_operations]
  split
  · exact Entry.rel_refl _
  · next hd =>
      have hleft : d ∉ s.entries := fun hmem => hd (hclear.left d hcd hmem)
      simp [ledger, Std.ExtTreeMap.getElem?_eq_none hleft]

theorem rowCount_enterSnapshot (h : Sound s) : (s.enterSnapshot snapshot).rowCount = snapshot.size :=
  (keeps_enterSnapshot snapshot h.keeps).rowCount.symm.trans (Ledger.rowCount_operations _ _)

theorem consistentBelow_of_clearOf (h : Sound s) (hentangled : ¬Entries.Entangled snapshot.entries c)
    (hclear : snapshot.ClearOf s c) (visit : VisitOrder) :
    ((s.enterSnapshot snapshot).recalculate visit).1.ConsistentBelow c := by
  have hsound := (keeps_enterSnapshot snapshot h.keeps).sound
  have hbelow := alikeBelow_enterSnapshot h hclear
  have hentangled' : ¬Entries.Entangled (s.enterSnapshot snapshot).entries c :=
    fun he => hentangled (hbelow.entangled_iff.mpr he)
  by_cases hspelled : Entries.Spelled snapshot.entries c
  · refine consistentBelow_recalculate hsound visit hentangled' fun d hcd hr => ?_
    exact hclear.marks hspelled d (hbelow.reaches_iff.mpr hcd) (results_enterSnapshot snapshot h hr)
  · refine (settled_recalculate hsound visit).consistentBelow ?_ ?_
    · rwa [(content_recalculate visit hsound).1]
    · rw [(content_recalculate visit hsound).1]
      exact fun hs => hspelled (hbelow.spelled_iff.mpr hs)

theorem value_alike_of_clearOf (hs : Sound s) (ht : Sound t) (visit visit' : VisitOrder)
    (hentangled : ¬Entries.Entangled snapshot.entries c) (hclear : snapshot.ClearOf s c)
    (hclear' : snapshot.ClearOf t c) :
    Outcome.Alike (((s.enterSnapshot snapshot).recalculate visit).1.value c)
      (((t.enterSnapshot snapshot).recalculate visit').1.value c) := by
  obtain ⟨hentries, hrows⟩ := content_recalculate visit (keeps_enterSnapshot snapshot hs.keeps).sound
  obtain ⟨hentries', hrows'⟩ := content_recalculate visit' (keeps_enterSnapshot snapshot ht.keeps).sound
  have hbelow := alikeBelow_enterSnapshot hs hclear
  have hbelow' := alikeBelow_enterSnapshot ht hclear'
  refine value_alike_of_consistent ?_ ?_ (consistentBelow_of_clearOf hs hentangled hclear visit)
    (consistentBelow_of_clearOf ht hentangled hclear' visit') ?_
  · rw [hrows, hrows', rowCount_enterSnapshot hs, rowCount_enterSnapshot ht]
  · rw [hentries]
    exact fun he => hentangled (hbelow.entangled_iff.mpr he)
  · rw [hentries, hentries']
    exact fun d hcd => Entry.rel_trans (Entry.rel_symm (hbelow d (hbelow.reaches_iff.mpr hcd)))
      (hbelow' d (hbelow.reaches_iff.mpr hcd))

theorem rel_cell?_runPass {visit visit' : VisitOrder} {ceiling? : Option Nat} {row column : Nat}
    (hceiling : ceiling?.any (· < snapshot.size) = false)
    (hvalue : Outcome.Alike (((s.enterSnapshot snapshot).recalculate visit).1.value ⟨row, column⟩)
      (((t.enterSnapshot snapshot).recalculate visit').1.value ⟨row, column⟩)) :
    Option.Rel Outcome.Alike ((s.runPass visit snapshot ceiling?).2.1.cell? row column)
      ((t.runPass visit' snapshot ceiling?).2.1.cell? row column) := by
  simp only [runPass, hceiling, Bool.false_eq_true, if_false, cell?_table]
  split
  · refine .some ?_
    unfold shown
    split
    · exact Outcome.alike_refl _
    · unfold valueAt
      cases hat : Cell.at? row column with
      | none => exact Outcome.alike_refl _
      | some c =>
          obtain rfl := Cell.eq_of_at? hat
          exact hvalue
    · exact Outcome.alike_refl _
  · exact .none

theorem runPass_alike (h : Sound s) (visit visit' : VisitOrder) {ceiling? : Option Nat} {row column : Nat}
    (hceiling : ceiling?.any (· < snapshot.size) = false)
    (hentangled : ¬Entries.Entangled snapshot.entries ⟨row, column⟩) (hclear : snapshot.ClearOf s ⟨row, column⟩) :
    Option.Rel Outcome.Alike ((s.runPass visit snapshot ceiling?).2.1.cell? row column)
      ((empty.runPass visit' snapshot ceiling?).2.1.cell? row column) :=
  rel_cell?_runPass hceiling
    (value_alike_of_clearOf h sound_empty visit visit' hentangled hclear (snapshot.clearOf_empty _))

theorem runPass_alike_of_left (hs : Sound s) (ht : Sound t) (visit visit' : VisitOrder) {ceiling? : Option Nat}
    {row column : Nat} (hceiling : ceiling?.any (· < snapshot.size) = false)
    (hleft : ∀ d, ¬snapshot.Holds d → Option.Rel Entry.Alike s.entries[d]? t.entries[d]?)
    (hentangled : ¬Entries.Entangled (s.enterSnapshot snapshot).entries ⟨row, column⟩)
    (hspelled : ¬Entries.Spelled (s.enterSnapshot snapshot).entries ⟨row, column⟩) :
    Option.Rel Outcome.Alike ((s.runPass visit snapshot ceiling?).2.1.cell? row column)
      ((t.runPass visit' snapshot ceiling?).2.1.cell? row column) := by
  have hs' := keeps_enterSnapshot snapshot hs.keeps
  have ht' := keeps_enterSnapshot snapshot ht.keeps
  obtain ⟨hentries, hrows⟩ := content_recalculate visit hs'.sound
  obtain ⟨hentries', hrows'⟩ := content_recalculate visit' ht'.sound
  have halike : Entries.Alike (s.enterSnapshot snapshot).entries (t.enterSnapshot snapshot).entries := by
    refine fun d => Entry.rel_trans (Entry.rel_symm (hs'.entries d)) (Entry.rel_trans ?_ (ht'.entries d))
    rw [Ledger.getElem?_operations, Ledger.getElem?_operations]
    split
    · exact Entry.rel_refl _
    · next hd => exact hleft d hd
  refine rel_cell?_runPass hceiling ((settled_recalculate hs'.sound visit).value_alike
    (settled_recalculate ht'.sound visit') ?_ ?_ ?_ ?_)
  · rw [hrows, hrows', rowCount_enterSnapshot hs, rowCount_enterSnapshot ht]
  · rwa [hentries]
  · rwa [hentries]
  · rw [hentries, hentries']
    exact halike.below _

end Apart

end Sheet

end LiveSheet
