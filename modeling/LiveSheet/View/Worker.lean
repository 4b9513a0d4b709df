import LiveSheet.Data.Edit
import LiveSheet.Sheet.Pass
import LiveSheet.View.Consumer

/-!
The worker of a view and where it stands. Between two stages of a pass everybody else may act, so a stage holds
what the pass has found by then.
-/

namespace LiveSheet

structure Publication where
  pass : Nat
  update : Update

structure Finding where
  update : Update
  resets : Nat

inductive Stage where
  | woken
  | beginning
  | copying
  | copied (s : Snapshot)
  | noted (s : Snapshot)
  | preparing (s : Snapshot)
  | rebuilding (s : Snapshot)
  | computing (s : Snapshot) (rebuilt : Bool)
  | computed (f : Finding)
  | silencing (f : Finding)
  | storing (f : Finding)
  | telling (f : Finding) (notice? : Option Notice)
  | showing (f : Finding)
  | publishing (f : Finding)
  | handing (f : Finding)
  | scheduling (f : Finding)
  | refused (f : Finding) (e : PublishError)
  | serving (f : Finding)
  | comparing (f : Finding)
  | requesting (structural : Bool)
  | succeeding
  | failing
  | recovering
  | resting
  | retrying

namespace Stage

def isSilent : Stage → Bool
  | .rebuilding _ | .storing _ | .telling _ _ => true
  | _ => false

/-- Whether the pass is under way, so that a break in it is its own failure. -/
def isUnderWay : Stage → Bool
  | .woken | .succeeding | .failing | .recovering | .resting | .retrying => false
  | _ => true

end Stage

inductive Phase where
  | turning
  | waiting
  | pass (asked : Bool) (stage : Stage)
  | finishing
  | stopping
  | stopped

structure Worker where
  sheet : Sheet := .empty
  /-- The columns that the sheet was last rebuilt for. -/
  schema? : Option (Stamped Schema) := none
  pass : Nat := 0
  served : Nat := 0
  phase : Phase := .turning

def Worker.isStopped (w : Worker) : Bool :=
  match w.phase with
  | .stopped => true
  | _ => false

def Worker.isForeign (w : Worker) (s : Snapshot) : Bool := w.schema?.all (·.stamp != s.schema.stamp)

end LiveSheet
