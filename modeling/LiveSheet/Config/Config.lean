import LiveSheet.Config.Outline
import LiveSheet.Errors

namespace LiveSheet

-- powers of whole numbers are the core's, whatever else is in scope
attribute [local instance (high)] instPowNat

structure Config where
  /-- Above this number of rows formulas are not evaluated. -/
  formulaCeiling? : Option Nat := some 5000
  /-- Above this number of rows filter ranges are not computed. -/
  filterCeiling? : Option Nat := none
  bins : Nat := 15
  pulseInterval : Nat := 2000
  pulseDelay : Nat := 4000
  retryDelay : Nat := 250
  workerName : String := "pointgrid-recompute"
  deriving DecidableEq, Repr

namespace Config

inductive Field where
  | formulaCeiling
  | filterCeiling
  | bins
  | pulseInterval
  | pulseDelay
  | retryDelay
  | workerName
  deriving DecidableEq, Repr

namespace Field

def all : List Field :=
  [.formulaCeiling, .filterCeiling, .bins, .pulseInterval, .pulseDelay, .retryDelay, .workerName]

def name : Field → String
  | .formulaCeiling => "formula_row_ceiling"
  | .filterCeiling => "filter_row_ceiling"
  | .bins => "histogram_buckets"
  | .pulseInterval => "pulse_interval_ms"
  | .pulseDelay => "pulse_initial_delay_ms"
  | .retryDelay => "retry_delay_ms"
  | .workerName => "worker_thread_name"

def ofName? (name : String) : Option Field := all.find? fun f => f.name == name

end Field

def natural? : Lexeme → Option Nat
  | .number (some n) => if n < 2 ^ (64 : Nat) then some n else none
  | _ => none

def ceiling? : Lexeme → Option (Option Nat)
  | .null => some none
  | l => (natural? l).map some

def set? (c : Config) (f : Field) (l : Lexeme) : Option Config :=
  match f with
  | .formulaCeiling => (ceiling? l).map fun n? => { c with formulaCeiling? := n? }
  | .filterCeiling => (ceiling? l).map fun n? => { c with filterCeiling? := n? }
  | .bins => (natural? l).map fun n => { c with bins := n }
  | .pulseInterval => (natural? l).map fun n => { c with pulseInterval := n }
  | .pulseDelay => (natural? l).map fun n => { c with pulseDelay := n }
  | .retryDelay => (natural? l).map fun n => { c with retryDelay := n }
  | .workerName =>
      match l with
      | .text (some s) => some { c with workerName := s }
      | _ => none

def ofRecord? (c : Config) (done : List Field) : List Item → Option Config
  | [] => some c
  | ⟨some (.text (some name)), head⟩ :: rest =>
      match Field.ofName? name with
      | none => ofRecord? c done rest
      | some f =>
          if f ∈ done then none
          else
            match c.set? f head with
            | some c => ofRecord? c (f :: done) rest
            | none => none
  | _ :: _ => none

def ofList? (c : Config) : List Field → List Item → Option Config
  | _, [] => some c
  | [], _ :: _ => none
  | f :: fields, item :: rest =>
      match c.set? f item.head with
      | some c => ofList? c fields rest
      | none => none

def read? (text : String) : Option Config :=
  match Outline.ofText? text with
  | some (.record, items) => ofRecord? {} [] items
  | some (.list, items) => ofList? {} Field.all items
  | none => none

def validate (c : Config) : Except ConfigError Unit :=
  if c.bins = 0 then .error (.invalid "histogram_buckets must be positive")
  else if c.pulseInterval = 0 then .error (.invalid "pulse_interval_ms must be positive")
  else if c.workerName = "" then .error (.invalid "worker_thread_name must not be empty")
  else .ok ()

def ofText (text : String) : Except ConfigError Config :=
  match read? text with
  | none => .error (.unreadable "the text describes no configuration")
  | some c => c.validate.map fun _ => c

end Config

end LiveSheet
