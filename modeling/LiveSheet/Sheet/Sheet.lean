import LiveSheet.Formula.Evaluate
import LiveSheet.Formula.Parser
import LiveSheet.Graph.Schedule

/-!
A sheet of entries with the results of its formulas. Entering what a cell already holds does nothing, so a
sheet that is filled again with the same content has nothing to recalculate. A formula that cannot be read,
that fails, or that is on a reference cycle has an error for its result, and no other cell is the worse.
-/

namespace LiveSheet

-- powers of whole numbers are the core's, whatever else is in scope
attribute [local instance (high)] instPowNat

/-- What is entered in a cell. A formula that cannot be read, or that reads too many cells, keeps its text. -/
inductive Entry where
  | literal (v : Value)
  | formula (text : String) (reading : Except CellError Formula)

namespace Entry

def rangeLimit : Nat := 2 ^ (20 : Nat)

def ofFormulaText (text : String) : Entry :=
  .formula text do
    let f ← Formula.parse text
    let _ ← f.references rangeLimit
    return f

def isFormula : Entry → Bool
  | .formula _ _ => true
  | .literal _ => false

def precedents : Entry → List Cell
  | .formula _ (.ok f) => f.cells
  | _ => []

def readsRowCount : Entry → Bool
  | .formula _ (.ok f) => f.usesRowCount
  | _ => false

end Entry

structure Sheet where
  entries : CellMap Entry := ∅
  results : CellMap Outcome := ∅
  graph : Graph := .empty
  pending : CellSet := ∅
  rowCount : Nat := 0
  rowCountReaders : CellSet := ∅

/-- What a recalculation did: formulas computed, formulas whose precedents came to nothing new, and formulas
on or behind a reference cycle. -/
structure Tally where
  evaluated : Nat := 0
  skipped : Nat := 0
  cyclic : Nat := 0
  deriving DecidableEq, Repr

namespace Sheet

def empty : Sheet := {}

def isFormula (s : Sheet) (c : Cell) : Bool := (s.entries[c]?).any Entry.isFormula

def cellCount (s : Sheet) : Nat := s.entries.size

def value (s : Sheet) (c : Cell) : Outcome :=
  match s.entries[c]? with
  | some (.literal v) => .ok v
  | some (.formula _ _) => (s.results[c]?).getD (.ok .blank)
  | none => .ok .blank

def formulaText? (s : Sheet) (c : Cell) : Option String :=
  match s.entries[c]? with
  | some (.formula text _) => some text
  | _ => none

def grid (s : Sheet) : Grid := ⟨s.value, s.rowCount⟩

def demote (s : Sheet) (c : Cell) : Sheet :=
  { s with
    results := s.results.erase c
    rowCountReaders := s.rowCountReaders.erase c
    graph := s.graph.setPrecedents c .input [] }

def holdsValue (s : Sheet) (c : Cell) (v : Value) : Bool :=
  match s.entries[c]? with
  | some (.literal w) => w.same v
  | _ => false

def enterValue (s : Sheet) (c : Cell) (v : Value) : Sheet :=
  if s.holdsValue c v then s
  else
    let plain := if s.isFormula c then s.demote c else s
    { plain with entries := plain.entries.insert c (.literal v), pending := plain.pending.insert c }

def enterFormula (s : Sheet) (c : Cell) (text : String) : Sheet :=
  if s.formulaText? c = some text then s
  else
    let entry := Entry.ofFormulaText text
    { s with
      entries := s.entries.insert c entry
      graph := s.graph.setPrecedents c .formula entry.precedents
      pending := s.pending.insert c
      rowCountReaders :=
        if entry.readsRowCount then s.rowCountReaders.insert c else s.rowCountReaders.erase c }

def enterText (s : Sheet) (c : Cell) (text : String) : Sheet :=
  if Formula.isFormula text then s.enterFormula c text else s.enterValue c (.ofEntry text)

def clear (s : Sheet) (c : Cell) : Sheet :=
  if c ∈ s.entries then
    let bare := { s with entries := s.entries.erase c }
    let plain := if s.isFormula c then bare.demote c else bare
    { plain with pending := plain.pending.insert c, graph := plain.graph.prune c }
  else s

def setRowCount (s : Sheet) (rows : Nat) : Sheet :=
  if s.rowCount = rows then s
  else { s with rowCount := rows, pending := s.pending.insertMany s.rowCountReaders.toList }

def enterTextAt (s : Sheet) (row column : Nat) (text : String) : Sheet :=
  match Cell.at? row column with
  | some c => s.enterText c text
  | none => s

def enterValueAt (s : Sheet) (row column : Nat) (v : Value) : Sheet :=
  match Cell.at? row column with
  | some c => s.enterValue c v
  | none => s

def clearAt (s : Sheet) (row column : Nat) : Sheet :=
  match Cell.at? row column with
  | some c => s.clear c
  | none => s

def valueAt (s : Sheet) (row column : Nat) : Outcome :=
  match Cell.at? row column with
  | some c => s.value c
  | none => .ok .blank

def formulaTextAt? (s : Sheet) (row column : Nat) : Option String :=
  (Cell.at? row column).bind s.formulaText?

structure Run where
  sheet : Sheet
  changed : CellSet
  tally : Tally

namespace Run

def needsEvaluation (r : Run) (c : Cell) : Bool :=
  match r.sheet.graph.freshness c with
  | .stale => true
  | .suspect => (r.sheet.graph.precedents c).toList.any (· ∈ r.changed)
  | .fresh => false

def compute (s : Sheet) : Except CellError Formula → Outcome
  | .ok f => (f.valueIn s.grid).map Value.promoted
  | .error e => .error e

def keeps (s : Sheet) (c : Cell) (result : Outcome) : Bool := (s.results[c]?).any result.same

def settle (r : Run) (c : Cell) : Run :=
  { r with sheet := { r.sheet with graph := r.sheet.graph.setFreshness .fresh c } }

def store (r : Run) (c : Cell) (result : Outcome) : Run :=
  { r with sheet := { r.sheet with results := r.sheet.results.insert c result } }

def update (r : Run) (c : Cell) : Run :=
  match r.sheet.entries[c]? with
  | some (.formula _ reading) =>
      if r.needsEvaluation c then
        let result := compute r.sheet reading
        let changed := if keeps r.sheet c result then r.changed else r.changed.insert c
        let tally := { r.tally with evaluated := r.tally.evaluated + 1 }
        ({ r with changed := changed, tally := tally }.store c result).settle c
      else { r with tally := { r.tally with skipped := r.tally.skipped + 1 } }.settle c
  | _ => r.settle c

def refuse (r : Run) (c : Cell) : Run :=
  if r.sheet.isFormula c then
    ({ r with tally := { r.tally with cyclic := r.tally.cyclic + 1 } }.store c (.error .cycle)).settle c
  else r.settle c

end Run

/-- A run that is to begin on a marked graph. A pending formula counts as changed only once its result
differs. -/
def Run.start (s : Sheet) (graph : Graph) : Run :=
  ⟨{ s with graph := graph, pending := ∅ }, s.pending.filter fun c => !s.isFormula c, {}⟩

def refresh (s : Sheet) (visit : VisitOrder) : Run :=
  let (graph, schedule) := s.graph.markChanged visit s.pending.toList
  schedule.cyclic.foldl Run.refuse (schedule.order.foldl Run.update (Run.start s graph))

def recalculate (s : Sheet) (visit : VisitOrder) : Sheet × Tally :=
  if s.pending.isEmpty then (s, {})
  else
    let done := s.refresh visit
    (done.sheet, done.tally)

end Sheet

end LiveSheet
