import LiveSheet.Proofs.Data.Storing
import LiveSheet.Proofs.Sheet.Pass

namespace LiveSheet

def Entry.Repeats : Option Entry → Option Entry → Prop
  | some (.literal w), some (.literal v) => w.same v = true
  | some (.formula text _), some (.formula text' _) => text = text'
  | none, none => True
  | _, _ => False

theorem Value.isNaN_ofEntry (text : String) : (Value.ofEntry text).isNaN = false := by
  unfold ofEntry
  simp only
  split
  · rfl
  · split
    · rfl
    · split
      · rfl
      · split
        · next n hn =>
            have hfinite : Number.isFinite n = true := (Option.filter_eq_some_iff.mp hn).2
            simp only [Number.isFinite, decide_eq_true_eq] at hfinite
            simpa [isNaN, Number.isNaN] using Nat.le_of_lt hfinite
        · rfl

namespace Snapshot

theorem nodup_places (snapshot : Snapshot) : snapshot.places.Nodup :=
  List.nodup_range.product List.nodup_range

theorem mem_places {snapshot : Snapshot} {row column : Nat} :
    (row, column) ∈ snapshot.places ↔ row < snapshot.size ∧ column < snapshot.width := by
  simp [places]

end Snapshot

namespace Sheet

variable {s t : Sheet} {c d : Cell}

theorem holdsValue_iff {v : Value} : s.holdsValue c v = true ↔ Entry.Repeats s.entries[c]? (some (.literal v)) := by
  unfold holdsValue Entry.Repeats
  cases s.entries[c]? with
  | none => simp
  | some e => cases e <;> simp

theorem formulaText?_iff {text : String} (reading : Except CellError Formula) :
    s.formulaText? c = some text ↔ Entry.Repeats s.entries[c]? (some (.formula text reading)) := by
  unfold formulaText? Entry.Repeats
  cases s.entries[c]? with
  | none => simp
  | some e => cases e <;> simp

def put (s : Sheet) (c : Cell) : Option Entry → Sheet
  | some (.literal v) => s.enterValue c v
  | some (.formula text _) => s.enterFormula c text
  | none => s.clear c

theorem enterContent_eq_put (s : Sheet) (row column : Nat) (content? : Option Content) :
    s.enterContent row column content? =
      (Cell.at? row column).elim s fun c => s.put c (Entry.ofContent? content?) := by
  have hclear : s.clearAt row column = (Cell.at? row column).elim s fun c => s.clear c := by
    unfold clearAt
    cases Cell.at? row column <;> rfl
  match content? with
  | none => exact hclear
  | some (.native v) =>
      simp only [enterContent, enterValueAt, Entry.ofContent?, put]
      cases Cell.at? row column <;> rfl
  | some (.formula cell?) =>
      simp only [enterContent, Entry.ofContent?]
      cases cell?.bind (·.formula?) with
      | none => exact hclear
      | some text =>
          obtain ⟨reading, he⟩ := Entry.ofFormulaText_eq text
          simp only [enterTextAt, Option.map_some, Entry.ofText, he]
          cases Cell.at? row column with
          | none => rfl
          | some c =>
              simp only [Option.elim_some, enterText]
              split <;> rfl

theorem getElem?_put_of_ne (s : Sheet) (e? : Option Entry) (hd : d ≠ c) :
    (s.put c e?).entries[d]? = s.entries[d]? := by
  match e? with
  | none => simp [put, getElem?_clear, hd]
  | some (.literal v) => simp [put, getElem?_enterValue, hd]
  | some (.formula text reading) => simp [put, getElem?_enterFormula, hd]

theorem repeats_put (s : Sheet) (c : Cell) {e? : Option Entry} (he : ∀ v, e? = some (.literal v) → v.isNaN = false) :
    Entry.Repeats (s.put c e?).entries[c]? e? := by
  match e? with
  | none => simp [put, getElem?_clear, Entry.Repeats]
  | some (.literal v) =>
      rw [put, getElem?_enterValue]
      cases hv : s.holdsValue c v with
      | true => simpa [hv] using holdsValue_iff.mp hv
      | false => simpa [hv, Entry.Repeats] using Value.same_iff.mpr ⟨.refl v, he v rfl⟩
  | some (.formula text reading) =>
      obtain ⟨reading', hentry⟩ := Entry.ofFormulaText_eq text
      rw [put, getElem?_enterFormula]
      split
      · simp [hentry, Entry.Repeats]
      · next h => exact (formulaText?_iff reading).mp (by simpa using h)

theorem put_of_repeats {e? : Option Entry} (h : Entry.Repeats s.entries[c]? e?) : s.put c e? = s := by
  match e? with
  | none =>
      rw [put, Sheet.clear, if_neg]
      intro hmem
      obtain ⟨e, he⟩ := Option.isSome_iff_exists.mp (Std.ExtTreeMap.mem_iff_isSome_getElem?.mp hmem)
      rw [he] at h
      cases e <;> exact h
  | some (.literal v) => rw [put, enterValue, if_pos (holdsValue_iff.mpr h)]
  | some (.formula text reading) => rw [put, enterFormula, if_pos ((formulaText?_iff reading).mpr h)]

def Holds (s : Sheet) (row column : Nat) (content? : Option Content) : Prop :=
  ∀ c, Cell.at? row column = some c → Entry.Repeats s.entries[c]? (Entry.ofContent? content?)

theorem enterContent_of_holds {row column : Nat} {content? : Option Content} (h : s.Holds row column content?) :
    s.enterContent row column content? = s := by
  rw [enterContent_eq_put]
  cases hc : Cell.at? row column with
  | none => rfl
  | some c => exact put_of_repeats (h c hc)

theorem holds_enterContent (s : Sheet) (row column : Nat) {content? : Option Content}
    (hclean : ∀ v, content? = some (.native v) → v.isNaN = false) :
    (s.enterContent row column content?).Holds row column content? := by
  intro c hc
  rw [enterContent_eq_put, hc]
  refine repeats_put s c fun v hv => ?_
  match content? with
  | none => cases hv
  | some (.native w) =>
      cases hv
      exact hclean v rfl
  | some (.formula cell?) =>
      obtain ⟨text, -, htext⟩ := Option.map_eq_some_iff.mp hv
      unfold Entry.ofText at htext
      split at htext
      · obtain ⟨reading, he⟩ := Entry.ofFormulaText_eq text
        rw [he] at htext
        cases htext
      · cases htext
        exact Value.isNaN_ofEntry text

theorem Holds.enterContent {row column row' column' : Nat} {content? content'? : Option Content}
    (h : s.Holds row column content?) (hne : (row', column') ≠ (row, column)) :
    (s.enterContent row' column' content'?).Holds row column content? := by
  intro c hc
  rw [enterContent_eq_put]
  cases hc' : Cell.at? row' column' with
  | none => exact h c hc
  | some c' =>
      have hcell : c ≠ c' := by
        rintro rfl
        have heq := (Cell.eq_of_at? hc).symm.trans (Cell.eq_of_at? hc')
        exact hne (by simpa [eq_comm] using heq)
      rw [Option.elim_some, getElem?_put_of_ne _ _ hcell]
      exact h c hc

section Entered

variable (snapshot : Snapshot)

def enterPlaces (snapshot : Snapshot) (places : List (Nat × Nat)) (s : Sheet) : Sheet :=
  places.foldl (fun s p => s.enterContent p.1 p.2 (snapshot.content? p.1 p.2)) s

theorem enterSnapshot_eq_enterPlaces (s : Sheet) :
    s.enterSnapshot snapshot = (enterPlaces snapshot snapshot.places s).setRowCount snapshot.size := by
  rw [enterSnapshot_eq, Snapshot.operations, List.foldl_append, List.foldl_map, enterPlaces]
  simp only [enterContent_eq]
  rfl

theorem holds_enterPlaces {places : List (Nat × Nat)} (hplaces : places.Nodup)
    (hclean : ∀ p ∈ places, ∀ v, snapshot.content? p.1 p.2 = some (.native v) → v.isNaN = false) :
    ∀ p ∈ places, (enterPlaces snapshot places s).Holds p.1 p.2 (snapshot.content? p.1 p.2) := by
  have hkept (places : List (Nat × Nat)) {p : Nat × Nat} (hp : p ∉ places) (t : Sheet)
      (ht : t.Holds p.1 p.2 (snapshot.content? p.1 p.2)) :
      (enterPlaces snapshot places t).Holds p.1 p.2 (snapshot.content? p.1 p.2) := by
    induction places generalizing t with
    | nil => exact ht
    | cons q places ih =>
        rw [List.mem_cons, not_or] at hp
        exact ih hp.2 _ (ht.enterContent (Ne.symm hp.1))
  induction places generalizing s with
  | nil => simp
  | cons p places ih =>
      rw [List.nodup_cons] at hplaces
      intro q hq
      rcases List.mem_cons.mp hq with rfl | hq
      · exact hkept places hplaces.1 _ (holds_enterContent s _ _ (hclean q List.mem_cons_self))
      · exact ih hplaces.2 (fun p hp => hclean p (List.mem_cons_of_mem _ hp)) q hq

theorem enterPlaces_of_holds {places : List (Nat × Nat)}
    (h : ∀ p ∈ places, s.Holds p.1 p.2 (snapshot.content? p.1 p.2)) : enterPlaces snapshot places s = s := by
  induction places with
  | nil => rfl
  | cons p places ih =>
      rw [enterPlaces, List.foldl_cons, enterContent_of_holds (h p List.mem_cons_self)]
      exact ih fun p hp => h p (List.mem_cons_of_mem _ hp)

theorem entries_setRowCount (s : Sheet) (rows : Nat) : (s.setRowCount rows).entries = s.entries := by
  unfold setRowCount
  split <;> rfl

theorem rowCount_setRowCount (s : Sheet) (rows : Nat) : (s.setRowCount rows).rowCount = rows := by
  unfold setRowCount
  split
  · next h => exact h
  · rfl

theorem enterSnapshot_again (hentries : t.entries = (s.enterSnapshot snapshot).entries)
    (hrows : t.rowCount = (s.enterSnapshot snapshot).rowCount)
    (hclean : ∀ p ∈ snapshot.places, ∀ v, snapshot.content? p.1 p.2 = some (.native v) → v.isNaN = false) :
    t.enterSnapshot snapshot = t := by
  rw [enterSnapshot_eq_enterPlaces, rowCount_setRowCount] at hrows
  rw [enterSnapshot_eq_enterPlaces, entries_setRowCount] at hentries
  have hheld : ∀ p ∈ snapshot.places, t.Holds p.1 p.2 (snapshot.content? p.1 p.2) := by
    intro p hp c hc
    rw [hentries]
    exact holds_enterPlaces snapshot snapshot.nodup_places hclean p hp c hc
  rw [enterSnapshot_eq_enterPlaces, enterPlaces_of_holds snapshot hheld, setRowCount, if_pos hrows]

end Entered

theorem held_recalculate (s : Sheet) (visit : VisitOrder) : (s.recalculate visit).1.entries = s.entries ∧
    (s.recalculate visit).1.rowCount = s.rowCount ∧ (s.recalculate visit).1.pending = ∅ := by
  unfold recalculate
  split
  · next he => exact ⟨rfl, rfl, Std.ExtTreeSet.isEmpty_iff.mp he⟩
  · have hupdate (cells : List Cell) (r : Run) : SameContent r.sheet (cells.foldl Run.update r).sheet ∧
        (cells.foldl Run.update r).sheet.pending = r.sheet.pending := by
      induction cells generalizing r with
      | nil => exact ⟨⟨rfl, rfl, rfl, .refl _⟩, rfl⟩
      | cons c cells ih =>
          obtain ⟨hcontent, hpending⟩ := ih (r.update c)
          exact ⟨(r.sameContent_update c).trans hcontent, hpending.trans (r.pending_update c)⟩
    simp only [refresh]
    set schedule := (s.graph.markChanged visit s.pending.toList).2
    set started := Run.start s (s.graph.markChanged visit s.pending.toList).1
    obtain ⟨hordered, hpending⟩ := hupdate schedule.order started
    obtain ⟨hrefused, hpending', -⟩ := Run.foldl_refuse (schedule.order.foldl Run.update started) schedule.cyclic
    have hdone := hordered.trans hrefused
    exact ⟨hdone.entries, hdone.rowCount, hpending'.trans hpending⟩

theorem recalculate_of_pending (visit : VisitOrder) (h : s.pending = ∅) : s.recalculate visit = (s, {}) := by
  unfold recalculate
  rw [if_pos (Std.ExtTreeSet.isEmpty_iff.mpr h)]

theorem ofContent?_bare (content? : Option Content) :
    Entry.ofContent? (content?.map Content.bare) = Entry.ofContent? content? := by
  match content? with
  | none => rfl
  | some (.native v) => rfl
  | some (.formula cell?) => cases cell? <;> rfl

theorem shown_bare (s : Sheet) (row column : Nat) (content? : Option Content) :
    s.shown true row column (content?.map Content.bare) = s.shown true row column content? := by
  match content? with
  | none => rfl
  | some (.native v) => rfl
  | some (.formula none) => rfl
  | some (.formula (some ⟨none, cached?⟩)) => rfl
  | some (.formula (some ⟨some text, cached?⟩)) => rfl

section Bare

variable {snapshot again : Snapshot}

theorem enterSnapshot_bare (s : Sheet) (hwidth : again.width = snapshot.width) (hsize : again.size = snapshot.size)
    (hbare : ∀ row column,
      (again.content? row column).map Content.bare = (snapshot.content? row column).map Content.bare) :
    s.enterSnapshot again = s.enterSnapshot snapshot := by
  have hplaces : again.places = snapshot.places := by rw [Snapshot.places, Snapshot.places, hwidth, hsize]
  rw [enterSnapshot_eq_enterPlaces, enterSnapshot_eq_enterPlaces, hplaces, hsize]
  refine congrArg (setRowCount · snapshot.size) (List.foldl_ext _ _ _ fun s p _ => ?_)
  rw [enterContent_eq_put, enterContent_eq_put, ← ofContent?_bare, hbare, ofContent?_bare]

theorem cells_table (s : Sheet) (snapshot : Snapshot) (evaluated : Bool) :
    (s.table snapshot evaluated).rows.map (·.cells) = (List.range snapshot.size).map fun row =>
      (List.range snapshot.width).map fun column => s.shown evaluated row column (snapshot.content? row column) := by
  refine List.ext_getElem? fun row => ?_
  simp only [table, List.getElem?_map, List.getElem?_zipIdx, Snapshot.content?, Snapshot.size, Snapshot.width]
  cases hrow : snapshot.rows[row]? with
  | none => simp [List.getElem?_eq_none_iff.mp hrow]
  | some r =>
      obtain ⟨hsize, rfl⟩ := List.getElem?_eq_some_iff.mp hrow
      simp [hsize]

theorem cells_table_bare (s : Sheet) (hwidth : again.width = snapshot.width) (hsize : again.size = snapshot.size)
    (hbare : ∀ row column,
      (again.content? row column).map Content.bare = (snapshot.content? row column).map Content.bare) :
    (s.table again true).rows.map (·.cells) = (s.table snapshot true).rows.map (·.cells) := by
  rw [cells_table, cells_table, hwidth, hsize]
  refine List.map_congr_left fun row _ => List.map_congr_left fun column _ => ?_
  rw [← shown_bare, hbare, shown_bare]

theorem runPass_eq (s : Sheet) (visit : VisitOrder) (snapshot : Snapshot) {ceiling? : Option Nat}
    (h : ceiling?.any (· < snapshot.size) = false) : s.runPass visit snapshot ceiling? =
      (((s.enterSnapshot snapshot).recalculate visit).1,
        ((s.enterSnapshot snapshot).recalculate visit).1.table snapshot true,
        some ((s.enterSnapshot snapshot).recalculate visit).2) := by
  unfold runPass
  rw [if_neg (Bool.eq_false_iff.mp h)]

theorem runPass_again (s : Sheet) (visit visit' : VisitOrder) {ceiling? ceiling'? : Option Nat}
    (hceiling : ceiling?.any (· < snapshot.size) = false) (hceiling' : ceiling'?.any (· < again.size) = false)
    (hwidth : again.width = snapshot.width) (hsize : again.size = snapshot.size)
    (hbare : ∀ row column,
      (again.content? row column).map Content.bare = (snapshot.content? row column).map Content.bare)
    (hclean : ∀ p ∈ snapshot.places, ∀ v, snapshot.content? p.1 p.2 = some (.native v) → v.isNaN = false) :
    (s.runPass visit snapshot ceiling?).1.runPass visit' again ceiling'? =
      ((s.runPass visit snapshot ceiling?).1, (s.runPass visit snapshot ceiling?).1.table again true,
        some ⟨0, 0, 0⟩) := by
  rw [runPass_eq s visit snapshot hceiling, runPass_eq _ visit' again hceiling']
  obtain ⟨hentries, hrows, hpending⟩ := held_recalculate (s.enterSnapshot snapshot) visit
  rw [enterSnapshot_bare _ hwidth hsize hbare, enterSnapshot_again snapshot hentries hrows hclean,
    recalculate_of_pending visit' hpending]

end Bare

theorem isNaN_of_cells {s : Sheet} {snapshot : Snapshot} {evaluated : Bool}
    (h : ∀ r ∈ (s.table snapshot evaluated).rows, ∀ x ∈ r.cells, x.isNaN = false) {row column : Nat} {v : Value}
    (hplace : (row, column) ∈ snapshot.places) (hv : snapshot.content? row column = some (.native v)) :
    v.isNaN = false := by
  obtain ⟨hrow, hcolumn⟩ := Snapshot.mem_places.mp hplace
  have hcell := s.cell?_table snapshot evaluated row column
  rw [if_pos ⟨hrow, hcolumn⟩, hv] at hcell
  obtain ⟨r, hr, hx⟩ := Option.bind_eq_some_iff.mp hcell
  exact h r (List.mem_of_getElem? hr) _ (List.mem_of_getElem? hx)

/-- Recomputing data that did not change comes to the same cells and computes none of them, and the results are stored
already, so that nobody is told. -/
theorem recomputed_unchanged {Observer : Type} (source : Source Observer) (sheet : Sheet) (visit visit' : VisitOrder)
    (ceiling? ceiling'? : Option Nat) (hceiling : ceiling?.any (· < source.data.size) = false)
    (hceiling' : ceiling'?.any (· < source.data.size) = false)
    (hnumbers : ∀ r ∈ (sheet.runPass visit source.data.snapshot ceiling?).2.1.rows, ∀ x ∈ r.cells, x.isNaN = false) :
    let first := sheet.runPass visit source.data.snapshot ceiling?
    let stored := (source.storeResults first.2.1).1
    let second := first.1.runPass visit' stored.data.snapshot ceiling'?
    second.2.1.rows.map (·.cells) = first.2.1.rows.map (·.cells) ∧ second.2.2 = some ⟨0, 0, 0⟩ ∧
      stored.storeResults second.2.1 = (stored, 0, none) := by
  intro first stored second
  let snapshot := source.data.snapshot
  let again := stored.data.snapshot
  have hwidth : again.width = snapshot.width := congrArg (·.value.width) source.data.schema_storeResults
  have hsize : again.size = snapshot.size := source.data.size_storeResults
  have hbare := source.data.bare_storeResults (t := first.2.1)
  have hfirst := runPass_eq sheet visit snapshot hceiling
  have htable : first.2.1 = first.1.table snapshot true := (congrArg (·.2.1) hfirst).trans
    (congrArg (Sheet.table · snapshot true) (congrArg Prod.fst hfirst)).symm
  -- the snapshots differ in results only, and these no sheet enters
  have hsecond : second = (first.1, first.1.table again true, some ⟨0, 0, 0⟩) := by
    refine runPass_again sheet visit visit' hceiling (hsize ▸ hceiling') hwidth hsize hbare fun p hp v hv => ?_
    exact isNaN_of_cells (htable ▸ hnumbers) hp hv
  have hcells : second.2.1.rows.map (·.cells) = first.2.1.rows.map (·.cells) := by
    rw [hsecond, htable]
    exact cells_table_bare first.1 hwidth hsize hbare
  have hsnapshot : first.2.1.snapshot = snapshot := snapshot_runPass snapshot sheet visit ceiling?
  have hsnapshot' : second.2.1.snapshot = again := snapshot_runPass again first.1 visit' ceiling'?
  have hstored : stored.data.storeResults second.2.1 = (stored.data, 0) :=
    source.data.storeResults_again (congrArg Snapshot.schema hsnapshot) (congrArg Snapshot.rows hsnapshot)
      (congrArg Snapshot.rows hsnapshot') hcells hnumbers
  refine ⟨hcells, congrArg (·.2.2) hsecond, ?_⟩
  simp [Source.storeResults, hstored]

theorem recomputed_unchanged_behind_cycle :
    let source : Source Unit := (Source.produce (.ofSchema ⟨[⟨"x", .native, some 0⟩, ⟨"f", .formula, none⟩]⟩)
      (.batch [.pushRow [.number 1], .pushRow [.number 2], .setFormula 0 (.index 1) "=SUM(A1:A10)",
        .setFormula 1 (.index 1) "=B2+B1"])).1
    let sheet := Sheet.after [.enterText 5 0 "3", .enterText 1 1 "=B1", .recalculate .ascending]
    let first := sheet.runPass .ascending source.data.snapshot (some 2)
    let stored := (source.storeResults first.2.1).1
    let second := first.1.runPass .ascending stored.data.snapshot none
    (∀ r ∈ first.2.1.rows, ∀ x ∈ r.cells, x.isNaN = false) ∧ first.2.2 = some ⟨1, 0, 1⟩ ∧
      second.2.1.rows.map (·.cells) = first.2.1.rows.map (·.cells) ∧ second.2.2 = some ⟨0, 0, 0⟩ ∧
      stored.storeResults second.2.1 = (stored, 0, none) := by
  intro source sheet
  let first := sheet.runPass .ascending source.data.snapshot (some 2)
  have hnumbers : ∀ r ∈ first.2.1.rows, ∀ x ∈ r.cells, x.isNaN = false := by decide +kernel
  have htally : first.2.2 = some ⟨1, 0, 1⟩ := by decide +kernel
  have hceiling : (some 2).any (· < source.data.size) = false := by decide +kernel
  exact ⟨hnumbers, htally, recomputed_unchanged source sheet .ascending .ascending (some 2) none hceiling rfl hnumbers⟩

end Sheet

end LiveSheet
