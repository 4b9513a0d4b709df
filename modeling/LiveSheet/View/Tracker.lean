import LiveSheet.Data.Edit

namespace LiveSheet

structure Silence where
  depth : Nat := 0
  deriving DecidableEq, Repr

namespace Silence

def isKept (s : Silence) : Bool := 0 < s.depth

def enter (s : Silence) : Silence := ⟨s.depth + 1⟩

def leave (s : Silence) : Silence := ⟨s.depth - 1⟩

end Silence

inductive Wakeup where
  | recompute (structural : Bool)
  | closed
  deriving DecidableEq, Repr

structure Tracker where
  isDirty : Bool := false
  isStructural : Bool := false
  isClosed : Bool := false
  /-- A request was taken and the worker is not done with it. -/
  inFlight : Bool := false
  deriving DecidableEq, Repr

def Notice.isStructural : Notice → Bool
  | .values => false
  | .layout => true

namespace Tracker

def mark (t : Tracker) (structural : Bool) : Tracker :=
  { t with isDirty := true, isStructural := t.isStructural || structural }

/-- Hands out all that was asked for since the last time. Closing comes before everything else, and leaves the
requests where they are. -/
def take (t : Tracker) : Tracker × Option Wakeup :=
  if t.isClosed then (t, some .closed)
  else if t.isDirty then
    ({ t with isDirty := false, isStructural := false, inFlight := true }, some (.recompute t.isStructural))
  else (t, none)

def finish (t : Tracker) : Tracker := { t with inFlight := false }

def close (t : Tracker) : Tracker := { t with isClosed := true }

def isSettled (t : Tracker) : Bool := !t.isDirty && !t.inFlight

def hear (t : Tracker) (s : Silence) (structural : Bool) : Tracker × Bool :=
  if s.isKept then (t, false) else (t.mark structural, true)

end Tracker

end LiveSheet
