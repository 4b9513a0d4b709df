import LiveSheet.Formula.Offset
import LiveSheet.View.Pass

namespace LiveSheet

structure Extension where
  text : String
  row : Nat
  column : Nat
  left : List Nat
  written : Nat := 0

namespace Extension

def ofSnapshot (s : Snapshot) (row column : Nat) : Except DatasetError (Option Extension) :=
  match s.content? row column with
  | some (.formula cell?) =>
      .ok ((cell?.bind (·.formula?)).map fun text =>
        { text := text, row := row, column := column, left := (List.range s.size).filter (· ≠ row) })
  | some (.native _) => .error (.noFormulaColumn ((s.schema.value.column? column).elim "" (·.name)))
  | none => .error (.rowOutOfRange row s.size)

/-- The text for another row. A text that cannot be read as a formula stays as it is. -/
def textFor (x : Extension) (row : Nat) : String :=
  match Formula.shiftText x.text ((row : Int) - (x.row : Int)) 0 with
  | .ok text => text
  | .error _ => x.text

end Extension

inductive Closing where
  | marking
  | releasing
  | claiming
  | awaiting
  | freezing
  | done
  deriving DecidableEq, Repr

namespace View

/-- Opens a view in one step, with a first structural pass to come. It is left out that the observer is registered and
the worker is running shortly before this pass is asked for. -/
def start (source : Source Unit) (config : Config) : Except ConfigError View :=
  match config.validate with
  | .error e => .error e
  | .ok _ =>
      let (source, subscription) := source.subscribe ()
      .ok { config, source, subscription, tracker := Tracker.mark {} true, indicator := Indicator.join {} }

def isSettled (v : View) : Bool := v.tracker.isSettled

def result (v : View) (row column : Nat) : Outcome :=
  (v.latest?.bind fun t => t.cell? row column).getD (.ok .blank)

def whenOpen {α : Type} (v : View) (f : View × Except ViewError α) : View × Except ViewError α :=
  if v.isClosed then (v, .error .closed) else f

def recompute (v : View) (structural : Bool) : View × Except ViewError Unit :=
  v.whenOpen (v.mark structural, .ok ())

/-- Counts a reset before it asks for the pass that is to answer it. -/
def requestReset (v : View) : View := ({ v with resets := v.resets + 1 } : View).mark false

def resetFilters (v : View) : View × Except ViewError Unit := v.whenOpen (v.requestReset, .ok ())

def adjustFilter (v : View) : View × Bool := v.hear false

def writeFormula (v : View) (row column : Nat) (text : String) : View × Except DatasetError Unit :=
  match v.produce (.edit (.setFormula row (.index column) text)) with
  | (v, [.error e]) => (v, .error e)
  | (v, _) => (v, .ok ())

def setFormula (v : View) (row column : Nat) (text : String) : View × Except ViewError Unit :=
  v.whenOpen ((v.writeFormula row column text).map id (Except.mapError ViewError.dataset))

def writeRows (v : View) (x : Extension) : List Nat → Nat → View × Except DatasetError Nat
  | [], written => (v, .ok written)
  | row :: rows, written =>
      match v.writeFormula row x.column (x.textFor row) with
      | (v, .error e) => (v, .error e)
      | (v, .ok _) => v.writeRows x rows (written + 1)

/-- Writes an extension in silence, and asks for a pass if that went well. -/
def writeExtension (v : View) (x : Extension) : View × Except ViewError Nat :=
  match v.enterSilence.writeRows x x.left x.written with
  | (v, .error e) => (v.leaveSilence, .error (.dataset e))
  | (v, .ok written) => (v.leaveSilence.requestReset, .ok written)

def extend (v : View) (row column : Nat) (fault? : Option SnapshotError) : View × Except ViewError Nat :=
  v.whenOpen <|
    match fault? with
    | some e => (v, .error (.snapshot e))
    | none =>
        match Extension.ofSnapshot v.source.data.snapshot row column with
        | .error e => (v, .error (.dataset e))
        | .ok none => (v, .ok 0)
        | .ok (some x) => v.writeExtension x

/-- A step of closing, unless it waits for the end of the worker. Only the first to close a view waits, and the
worker never waits for itself. -/
def closeStep (v : View) (byWorker : Bool) : Closing → Option (View × Closing)
  | .marking => some ({ v with tracker := v.tracker.close }, .releasing)
  | .releasing =>
      let (source, subscription) := v.source.release v.subscription
      some ({ v with source := source, subscription := subscription }, .claiming)
  | .claiming =>
      some ({ v with isAwaited := true }, if v.isAwaited || byWorker then .freezing else .awaiting)
  | .awaiting => if v.worker.isStopped then some (v, .freezing) else none
  | .freezing => some ({ v with indicator := v.indicator.close }, .done)
  | .done => none

end View

end LiveSheet
