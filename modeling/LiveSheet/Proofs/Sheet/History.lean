import LiveSheet.Proofs.Sheet.Editing
import LiveSheet.Proofs.Sheet.Settled

namespace LiveSheet

inductive Operation where
  | enterText (row column : Nat) (text : String)
  | enterValue (row column : Nat) (v : Value)
  | clear (row column : Nat)
  | setRowCount (rows : Nat)
  | reset
  | recalculate (visit : VisitOrder)

def Sheet.perform (s : Sheet) : Operation → Sheet
  | .enterText row column text => s.enterTextAt row column text
  | .enterValue row column v => s.enterValueAt row column v
  | .clear row column => s.clearAt row column
  | .setRowCount rows => s.setRowCount rows
  | .reset => .empty
  | .recalculate visit => (s.recalculate visit).1

def Sheet.after (history : List Operation) : Sheet := history.foldl Sheet.perform .empty

def Entry.ofText (text : String) : Entry :=
  if Formula.isFormula text then .ofFormulaText text else .literal (.ofEntry text)

structure Ledger where
  entries : CellMap Entry := ∅
  rowCount : Nat := 0

namespace Ledger

def put (l : Ledger) (c : Cell) (e? : Option Entry) : Ledger := { l with entries := l.entries.alter c fun _ => e? }

def putAt (l : Ledger) (row column : Nat) (e? : Option Entry) : Ledger :=
  match Cell.at? row column with
  | some c => l.put c e?
  | none => l

def record (l : Ledger) : Operation → Ledger
  | .enterText row column text => l.putAt row column (some (.ofText text))
  | .enterValue row column v => l.putAt row column (some (.literal v))
  | .clear row column => l.putAt row column none
  | .setRowCount rows => { l with rowCount := rows }
  | .reset => {}
  | .recalculate _ => l

def ofHistory (history : List Operation) : Ledger := history.foldl record {}

def entering (l : Ledger) (c : Cell) : Operation :=
  match l.entries[c]? with
  | some (.literal v) => .enterValue c.row c.column v
  | some (.formula text _) => .enterText c.row c.column text
  | none => .clear c.row c.column

def script (l : Ledger) (cells : List Cell) : List Operation := cells.map l.entering ++ [.setRowCount l.rowCount]

structure Valid (l : Ledger) : Prop where
  within : ∀ c ∈ l.entries, Cell.at? c.row c.column = some c
  formulas : ∀ (c : Cell) text reading, l.entries[c]? = some (.formula text reading) →
    Entry.ofText text = .formula text reading

end Ledger

theorem Cell.eq_of_at? {row column : Nat} {c : Cell} (h : Cell.at? row column = some c) : c = ⟨row, column⟩ := by
  unfold Cell.at? at h
  split at h
  · exact (Option.some.inj h).symm
  · cases h

theorem Entry.text_of_ofText {text text' : String} {reading : Except CellError Formula}
    (h : Entry.ofText text = .formula text' reading) : text' = text := by
  unfold Entry.ofText at h
  split at h
  · obtain ⟨reading', he⟩ := Entry.ofFormulaText_eq text
    rw [he] at h
    cases h
    rfl
  · cases h

namespace Ledger

theorem getElem?_put (l : Ledger) (c d : Cell) (e? : Option Entry) :
    (l.put c e?).entries[d]? = if d = c then e? else l.entries[d]? := by
  simp [put, Std.ExtTreeMap.getElem?_alter, eq_comm (a := d)]

theorem valid_putAt {l : Ledger} (h : Valid l) (row column : Nat) {e? : Option Entry}
    (he : ∀ text reading, e? = some (.formula text reading) → Entry.ofText text = .formula text reading) :
    Valid (l.putAt row column e?) := by
  unfold putAt
  split
  · next c hc =>
      have hcell := Cell.eq_of_at? hc
      refine ⟨fun d hd => ?_, fun d text reading hd => ?_⟩
      · by_cases hdc : d = c
        · rw [hdc]
          rwa [hcell] at hc ⊢
        · rw [Std.ExtTreeMap.mem_iff_isSome_getElem?, getElem?_put, if_neg hdc,
            ← Std.ExtTreeMap.mem_iff_isSome_getElem?] at hd
          exact h.within d hd
      · rw [getElem?_put] at hd
        split at hd
        · exact he text reading hd
        · exact h.formulas d text reading hd
  · exact h

theorem valid_record {l : Ledger} (h : Valid l) (operation : Operation) : Valid (l.record operation) := by
  cases operation with
  | enterText row column text =>
      refine valid_putAt h row column fun text' reading he => ?_
      have he := Option.some.inj he
      obtain rfl := Entry.text_of_ofText he
      exact he
  | enterValue row column v => exact valid_putAt h row column (by simp)
  | clear row column => exact valid_putAt h row column (by simp)
  | setRowCount rows => exact ⟨h.within, h.formulas⟩
  | reset => exact ⟨by simp [record], by simp [record]⟩
  | recalculate visit => exact h

theorem valid_ofHistory (history : List Operation) : Valid (ofHistory history) := by
  have hstart : Valid {} := ⟨by simp, by simp⟩
  have hrun (l : Ledger) (h : Valid l) : Valid (history.foldl record l) := by
    induction history generalizing l with
    | nil => exact h
    | cons operation history ih => exact ih _ (valid_record h operation)
  exact hrun {} hstart

end Ledger

namespace Sheet

structure Keeps (s : Sheet) (l : Ledger) : Prop where
  sound : Sound s
  entries : Entries.Alike l.entries s.entries
  rowCount : l.rowCount = s.rowCount

namespace Keeps

variable {s t : Sheet} {l : Ledger} {c : Cell}

theorem put {e? : Option Entry} (h : Keeps s l) (ht : Sound t) (hentry : Option.Rel Entry.Alike e? t.entries[c]?)
    (hother : ∀ d : Cell, d ≠ c → t.entries[d]? = s.entries[d]?) (hrows : t.rowCount = s.rowCount) :
    Keeps t (l.put c e?) := by
  refine ⟨ht, fun d => ?_, h.rowCount.trans hrows.symm⟩
  rw [Ledger.getElem?_put]
  by_cases hd : d = c
  · subst hd
    simpa using hentry
  · rw [if_neg hd, hother d hd]
    exact h.entries d

theorem enterValue (h : Keeps s l) (v : Value) : Keeps (s.enterValue c v) (l.put c (some (.literal v))) := by
  have ht := sound_enterValue h.sound c v
  by_cases hholds : s.holdsValue c v = true
  · rw [show s.enterValue c v = s by simp [Sheet.enterValue, hholds]] at ht ⊢
    refine h.put ht ?_ (fun _ _ => rfl) rfl
    unfold holdsValue at hholds
    split at hholds
    · next w he =>
        rw [he, Option.rel_some_some]
        exact .literal (Value.same_iff.mp hholds).1.symm
    · cases hholds
  · rw [enterValue_eq hholds] at ht ⊢
    refine h.put ht ?_ (fun d hd => ?_) (rowCount_plain s c)
    · simpa using Entry.alike_refl _
    · simp [Std.ExtTreeMap.getElem?_insert, Ne.symm hd]

theorem enterFormula (h : Keeps s l) (text : String) :
    Keeps (s.enterFormula c text) (l.put c (some (.ofFormulaText text))) := by
  have ht := sound_enterFormula h.sound c text
  by_cases hholds : s.formulaText? c = some text
  · rw [show s.enterFormula c text = s by simp [Sheet.enterFormula, hholds]] at ht ⊢
    refine h.put ht ?_ (fun _ _ => rfl) rfl
    unfold formulaText? at hholds
    split at hholds
    · next text' reading he =>
        obtain rfl := Option.some.inj hholds
        rw [he, Option.rel_some_some, h.sound.parsed c _ _ he]
        exact Entry.alike_refl _
    · cases hholds
  · unfold Sheet.enterFormula at ht ⊢
    simp only [hholds, if_false] at ht ⊢
    refine h.put ht ?_ (fun d hd => ?_) rfl
    · simpa using Entry.alike_refl _
    · simp [Std.ExtTreeMap.getElem?_insert, Ne.symm hd]

theorem enterText (h : Keeps s l) (text : String) : Keeps (s.enterText c text) (l.put c (some (.ofText text))) := by
  unfold Sheet.enterText Entry.ofText
  split
  · exact h.enterFormula text
  · exact h.enterValue _

theorem clear (h : Keeps s l) : Keeps (s.clear c) (l.put c none) := by
  have ht := sound_clear h.sound c
  by_cases hc : c ∈ s.entries
  · rw [clear_eq hc] at ht ⊢
    refine h.put ht ?_ (fun d hd => ?_) (rowCount_plain s c)
    · simp
    · simp [Std.ExtTreeMap.getElem?_erase, Ne.symm hd]
  · rw [show s.clear c = s by simp [Sheet.clear, hc]] at ht ⊢
    refine h.put ht ?_ (fun _ _ => rfl) rfl
    rw [Std.ExtTreeMap.getElem?_eq_none hc]
    exact .none

theorem perform (h : Keeps s l) (operation : Operation) : Keeps (s.perform operation) (l.record operation) := by
  cases operation with
  | enterText row column text =>
      simp only [Sheet.perform, enterTextAt, Ledger.record, Ledger.putAt]
      cases Cell.at? row column with
      | none => exact h
      | some c => exact h.enterText text
  | enterValue row column v =>
      simp only [Sheet.perform, enterValueAt, Ledger.record, Ledger.putAt]
      cases Cell.at? row column with
      | none => exact h
      | some c => exact h.enterValue v
  | clear row column =>
      simp only [Sheet.perform, clearAt, Ledger.record, Ledger.putAt]
      cases Cell.at? row column with
      | none => exact h
      | some c => exact h.clear
  | setRowCount rows =>
      refine ⟨sound_setRowCount h.sound rows, ?_, ?_⟩
      · simp only [Sheet.perform, Sheet.setRowCount]
        split <;> exact h.entries
      · simp only [Sheet.perform, Sheet.setRowCount]
        split
        · next hrows => exact hrows.symm
        · rfl
  | reset => exact ⟨sound_empty, fun c => by simp [Ledger.record, Sheet.perform, empty], rfl⟩
  | recalculate visit =>
      obtain ⟨hentries, hrows⟩ := content_recalculate visit h.sound
      refine ⟨sound_recalculate visit h.sound, ?_, h.rowCount.trans hrows.symm⟩
      simp only [Sheet.perform, hentries]
      exact h.entries

theorem foldl (h : Keeps s l) (operations : List Operation) :
    Keeps (operations.foldl Sheet.perform s) (operations.foldl Ledger.record l) := by
  induction operations generalizing s l with
  | nil => exact h
  | cons operation operations ih => exact ih (h.perform operation)

end Keeps

theorem keeps_empty : Keeps .empty {} := ⟨sound_empty, fun c => by simp [empty], rfl⟩

theorem keeps_after (history : List Operation) : Keeps (after history) (Ledger.ofHistory history) :=
  keeps_empty.foldl history

theorem settled_after (history : List Operation) (visit : VisitOrder) :
    Settled (after (history ++ [.recalculate visit])) := by
  rw [show after (history ++ [.recalculate visit]) = ((after history).recalculate visit).1 by
    simp [after, perform]]
  exact settled_recalculate (keeps_after history).sound visit

end Sheet

namespace Ledger

variable {l : Ledger} (h : Valid l)

include h

theorem record_entering (k : Ledger) {c : Cell} (hc : c ∈ l.entries) :
    k.record (l.entering c) = k.put c l.entries[c]? := by
  have hat := h.within c hc
  obtain ⟨e, he⟩ := Option.isSome_iff_exists.mp (Std.ExtTreeMap.mem_iff_isSome_getElem?.mp hc)
  unfold entering
  cases e with
  | literal v => simp [he, record, putAt, hat]
  | formula text reading => simp [he, record, putAt, hat, h.formulas c text reading he]

theorem ofHistory_script {cells : List Cell} (hcells : cells.Perm l.entries.keys) : ofHistory (l.script cells) = l := by
  have hmem (c : Cell) : c ∈ cells ↔ c ∈ l.entries := by rw [hcells.mem_iff, Std.ExtTreeMap.mem_keys]
  have hrun (cells : List Cell) (k : Ledger) (hwithin : ∀ c ∈ cells, c ∈ l.entries) :
      ((cells.map l.entering).foldl record k).rowCount = k.rowCount ∧ ∀ c : Cell,
        ((cells.map l.entering).foldl record k).entries[c]? = if c ∈ cells then l.entries[c]? else k.entries[c]? := by
    induction cells generalizing k with
    | nil => simp
    | cons d cells ih =>
        obtain ⟨hrows, hentries⟩ := ih (k.record (l.entering d)) fun c hc => hwithin c (List.mem_cons_of_mem d hc)
        rw [record_entering h k (hwithin d List.mem_cons_self)] at hrows hentries
        rw [List.map_cons, List.foldl_cons, record_entering h k (hwithin d List.mem_cons_self)]
        refine ⟨hrows, fun c => ?_⟩
        rw [hentries c, getElem?_put]
        by_cases hc : c = d
        · subst hc
          simp
        · simp [hc]
  obtain ⟨-, hentries⟩ := hrun cells {} fun c hc => (hmem c).mp hc
  unfold ofHistory script
  rw [List.foldl_append]
  have hext : ((cells.map l.entering).foldl record {}).entries = l.entries := by
    apply Std.ExtTreeMap.ext_getElem?
    intro c
    rw [hentries c]
    split
    · rfl
    · next hc =>
        rw [hmem] at hc
        simp [Std.ExtTreeMap.getElem?_eq_none hc]
  simp [record, hext]

end Ledger

namespace Sheet

theorem ofHistory_recalculate (history : List Operation) (visit : VisitOrder) :
    Ledger.ofHistory (history ++ [.recalculate visit]) = Ledger.ofHistory history := by
  simp [Ledger.ofHistory, Ledger.record]

theorem after_alike {history history' : List Operation} (visit visit' : VisitOrder)
    (hsame : Ledger.ofHistory history' = Ledger.ofHistory history) {c : Cell}
    (hentangled : ¬Entries.Entangled (Ledger.ofHistory history).entries c)
    (hspelled : ¬Entries.Spelled (Ledger.ofHistory history).entries c) :
    Outcome.Alike ((after (history ++ [.recalculate visit])).value c)
      ((after (history' ++ [.recalculate visit'])).value c) := by
  have hs := keeps_after (history ++ [.recalculate visit])
  have ht := keeps_after (history' ++ [.recalculate visit'])
  rw [ofHistory_recalculate] at hs ht
  rw [hsame] at ht
  have hbelow := hs.entries.below c
  refine (settled_after history visit).value_alike (settled_after history' visit') ?_ ?_ ?_ ?_
  · exact hs.rowCount.symm.trans ht.rowCount
  · exact fun h => hentangled (hbelow.entangled_iff.mpr h)
  · exact fun h => hspelled (hbelow.spelled_iff.mpr h)
  · exact (hs.entries.symm.trans ht.entries).below c

/-- A sheet that was recalculated last shows the same as a new one that is given what it holds. -/
theorem recalculated_same_as_new (history : List Operation) (visit visit' : VisitOrder) (cells : List Cell)
    (hcells : cells.Perm (Ledger.ofHistory history).entries.keys) (row column : Nat)
    (hentangled : ¬Entries.Entangled (Ledger.ofHistory history).entries ⟨row, column⟩)
    (hspelled : ¬Entries.Spelled (Ledger.ofHistory history).entries ⟨row, column⟩) :
    let kept := (after (history ++ [.recalculate visit])).valueAt row column
    let new := (after ((Ledger.ofHistory history).script cells ++ [.recalculate visit'])).valueAt row column
    kept.same new = true ∨ kept.isNaN = true ∧ new.isNaN = true := by
  intro kept new
  have hsame := Ledger.ofHistory_script (Ledger.valid_ofHistory history) hcells
  cases hc : Cell.at? row column with
  | none =>
      left
      simp [kept, new, valueAt, hc, Outcome.same, Value.same]
  | some c =>
      obtain rfl := Cell.eq_of_at? hc
      apply Outcome.same_or_isNaN
      simp only [kept, new, valueAt, hc]
      exact after_alike visit visit' hsame hentangled hspelled

theorem recalculated_same_as_new_behind_cycle :
    let history : List Operation := [.enterText 0 0 "=B1", .enterText 0 1 "=A1", .recalculate .ascending,
      .enterText 0 0 "2", .enterText 0 2 "=B1+1"]
    let l := Ledger.ofHistory history
    let kept := (after (history ++ [.recalculate .ascending])).valueAt 0 2
    let new := (after (l.script l.entries.keys.reverse ++ [.recalculate .ascending])).valueAt 0 2
    l.entries.keys.reverse.Perm l.entries.keys ∧ ¬Entries.Entangled l.entries ⟨0, 2⟩ ∧
      ¬Entries.Spelled l.entries ⟨0, 2⟩ ∧ (kept.same new = true ∨ kept.isNaN = true ∧ new.isNaN = true) := by
  intro history l kept new
  have hperm : l.entries.keys.reverse.Perm l.entries.keys := List.reverse_perm _
  have hentangled : ¬Entries.Entangled l.entries ⟨0, 2⟩ :=
    Entries.not_entangled_of_rank Cell.column (by decide +kernel) _
  have hspelled : ¬Entries.Spelled l.entries ⟨0, 2⟩ := Entries.not_spelled_of_all (by decide +kernel) _
  exact ⟨hperm, hentangled, hspelled, recalculated_same_as_new history .ascending .ascending _ hperm 0 2
    hentangled hspelled⟩

end Sheet

end LiveSheet
