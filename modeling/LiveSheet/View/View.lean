import LiveSheet.Config.Config
import LiveSheet.Data.Source
import LiveSheet.View.Indicator
import LiveSheet.View.Tracker
import LiveSheet.View.Worker

/-!
A live view: a source, the consumer of what is computed from it, the worker between them, and what they share.
The functions here are single accesses to what is shared.
-/

namespace LiveSheet

structure Counts where
  wakeups : Nat := 0
  passes : Nat := 0
  failures : Nat := 0
  publications : Nat := 0
  deriving DecidableEq, Repr

inductive Activity where
  | waiting
  | copying
  | computing
  | publishing
  | closed
  deriving DecidableEq, Repr

structure View where
  config : Config
  source : Source Unit
  subscription : Subscription
  consumer : Consumer Publication := {}
  tracker : Tracker := {}
  silence : Silence := {}
  indicator : Indicator := {}
  leader : Nat := 0
  counts : Counts := {}
  activity : Activity := .waiting
  latest? : Option Table := none
  resets : Nat := 0
  seen : Revisions := {}
  worker : Worker := {}
  /-- Whether somebody took it on to wait for the end of the worker. -/
  isAwaited : Bool := false

namespace View

def isClosed (v : View) : Bool := v.tracker.isClosed

def live (v : View) : Revisions := v.source.data.revisions

def mark (v : View) (structural : Bool) : View := { v with tracker := v.tracker.mark structural }

def enterSilence (v : View) : View := { v with silence := v.silence.enter }

def leaveSilence (v : View) : View := { v with silence := v.silence.leave }

def leadIndicator (v : View) (pass : Nat) : View :=
  { v with leader := pass, indicator := v.indicator.set .computing }

def setIndicator (v : View) (pass : Nat) (b : Busy) : View :=
  if v.leader = pass then { v with indicator := v.indicator.set b } else v

def hear (v : View) (structural : Bool) : View × Bool :=
  let (tracker, heard) := v.tracker.hear v.silence structural
  ({ v with tracker := tracker }, heard)

def tell (v : View) (n : Notice) : View :=
  v.source.observers.foldl (fun v _ => (v.hear n.isStructural).1) v

def tellAny (v : View) (notice? : Option Notice) : View := notice?.elim v v.tell

def change (v : View) (p : Production) : View × List Receipt × Option Notice :=
  let (source, receipts, notice?) := v.source.produce p
  ({ v with source := source }, receipts, notice?)

def produce (v : View) (p : Production) : View × List Receipt :=
  let (v, receipts, notice?) := v.change p
  (v.tellAny notice?, receipts)

end View

end LiveSheet
