import LiveSheet.View.Request

namespace LiveSheet.Script

inductive Hold where
  | nowhere
  | before
  | behind
  deriving DecidableEq, Repr

inductive Trap where
  | snapshot
  | failingSnapshot
  | storing
  | publishing
  | failingPublish
  deriving DecidableEq, Repr

structure Setting where
  failures : Nat := 0
  breaks : Nat := 0
  rejections : Nat := 0
  hold : Hold := .nowhere
  trap? : Option Trap := none

inductive Act where
  | produce (p : Production)
  | pump
  | settle
  | latest
  | recompute (structural : Bool)
  | setFormula (row column : Nat) (text : String)
  | extend (row column : Nat)
  | resetFilters
  | adjustFilter
  | silenced (acts : List Act)
  | result (row column : Nat)
  | dump
  | hold (h : Hold)
  | failSnapshots (count : Nat)
  | breakSnapshots (count : Nat)
  | reject (count : Nat)
  | shutDown
  | close
  | closeIn (t : Trap)

inductive Reply where
  | nothing
  | receipt (r : Receipt)
  | receipts (rs : List Receipt)
  | request (r : Except ViewError Unit)
  | extension (r : Except ViewError Nat)
  | heard (b : Bool)
  | count (n : Nat)
  | replies (rs : List Reply)
  | update (u? : Option Update)
  | outcome (r : Outcome)
  | rows (rs : List (Stamped Row))

def Reply.toProduction : Production → List Receipt → Reply
  | .edit _, [r] => .receipt r
  | .fire _, _ => .nothing
  | _, rs => .receipts rs

structure Showing where
  update : Update
  replies? : Option (List Reply)

structure Report where
  reply : Reply
  shown : List Showing
  counts : Counts
  activity : Activity
  busy : Busy
  isSettled : Bool
  isClosed : Bool
  pending : Nat
  applied : Nat
  depth : Nat
  revisions : Revisions
  listeners : Nat

end LiveSheet.Script
