namespace LiveSheet

inductive Busy where
  | idle
  | computing
  | applying
  deriving DecidableEq, Repr

def Indicator.high : Nat := 200

def Indicator.low : Nat := 100

structure Indicator where
  busy : Busy := .idle
  isClosed : Bool := false
  keepers : Nat := 0
  /-- How many of the keepers have not pulsed yet since the computing began. -/
  due : Nat := 0
  intensity : Nat := Indicator.high
  pulses : Nat := 0
  deriving DecidableEq, Repr

namespace Indicator

def join (i : Indicator) : Indicator :=
  { i with keepers := i.keepers + 1, due := if i.busy = .computing then i.due + 1 else i.due }

def set (i : Indicator) (b : Busy) : Indicator :=
  if i.isClosed || i.busy == b then i
  else if b = .computing then { i with busy := b, due := i.keepers }
  else { i with busy := b, due := 0, intensity := high }

def pulse? (i : Indicator) : Option Indicator :=
  if i.keepers ≠ 0 && !i.isClosed && i.busy == .computing then
    some { i with due := i.due - 1, intensity := if i.intensity = high then low else high, pulses := i.pulses + 1 }
  else none

def firstPulse? (i : Indicator) : Option Indicator := if i.due = 0 then none else i.pulse?

/-- Waits for so many pulses in all, where a keeper pulses once in a computing. -/
def awaitPulses (i : Indicator) (count : Nat) : Indicator := go (count - i.pulses) i
where
  go : Nat → Indicator → Indicator
    | 0, i => i
    | n + 1, i =>
        match i.firstPulse? with
        | some i => go n i
        | none => i

def close (i : Indicator) : Indicator := { i with isClosed := true }

end Indicator

end LiveSheet
