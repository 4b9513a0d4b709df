import LiveSheet.View.Errand
import LiveSheet.View.Script

/-!
A view played from a script, with nothing left to chance. The one who plays it is producer, owner of the consumer
and holder of the view in one; behind every act the worker goes on until it waits, and so an act always meets the
same view.
-/

namespace LiveSheet

open Script

structure Rehearsal where
  view : View
  setting : Setting := {}
  /-- The acts that each applied update sets off, in the order in which updates are applied. -/
  hooks : List (List Act) := []
  /-- Whether the snapshot that is asked for has passed what could befall it before the data are copied. -/
  isTaking : Bool := false
  shown : List Showing := []

namespace Rehearsal

def patience : Nat := 100000

def longRest : Nat := 10000

def close (byWorker : Bool) : Nat → View → Closing → View × Closing
  | 0, v, c => (v, c)
  | fuel + 1, v, c =>
      match v.closeStep byWorker c with
      | some (v, c) => close byWorker fuel v c
      | none => (v, c)

def spring (r : Rehearsal) : Rehearsal :=
  { r with view := (close true patience r.view .marking).1, setting := { r.setting with trap? := none } }

def move (r : Rehearsal) (fault? : Option PassError) : Option Rehearsal :=
  (r.view.work .ascending fault?).map fun v => { r with view := v }

def holdsAt (r : Rehearsal) (h : Hold) : Bool := r.setting.hold == h && !r.view.isClosed

def copyMove (r : Rehearsal) : Option Rehearsal :=
  if r.isTaking then
    if r.holdsAt .before then none else { r with isTaking := false }.move none
  else if r.setting.failures ≠ 0 then
    { r with setting := { r.setting with failures := r.setting.failures - 1 } }.move
      (some (.snapshot (.inconsistent "reloading")))
  else if r.setting.breaks ≠ 0 then
    { r with setting := { r.setting with breaks := r.setting.breaks - 1 } }.move (some (.broken "snapshot"))
  else some { r with isTaking := true }

def gainMove (r : Rehearsal) : Option Rehearsal :=
  if r.holdsAt .behind then none
  else
    match r.setting.trap? with
    | some .snapshot => r.spring.move none
    | some .failingSnapshot => r.spring.move (some (.snapshot .detached))
    | _ => r.move none

def publishMove (r : Rehearsal) : Option Rehearsal :=
  if r.setting.rejections ≠ 0 then
    { r with setting := { r.setting with rejections := r.setting.rejections - 1 } }.move
      (some (.publish (.rejected "busy")))
  else
    match r.setting.trap? with
    | some .failingPublish => r.spring.move (some (.publish .consumerGone))
    | some .publishing => (r.move none).map spring
    | _ => r.move none

def tellMove (r : Rehearsal) : Option Rehearsal :=
  match r.setting.trap? with
  | some .storing => (r.move none).map spring
  | _ => r.move none

def next (r : Rehearsal) : Option Rehearsal :=
  match r.view.worker.phase with
  | .pass _ .copying => r.copyMove
  | .pass _ (.copied _) => r.gainMove
  | .pass _ (.telling _ _) => r.tellMove
  | .pass _ (.scheduling _) => r.publishMove
  | .pass _ .resting => if longRest ≤ r.view.config.retryDelay && !r.view.isClosed then none else r.move none
  | _ => r.move none

def runOn : Nat → Rehearsal → Rehearsal
  | 0, r => r
  | fuel + 1, r =>
      match r.next with
      | some r => runOn fuel r
      | none => r

def rest (r : Rehearsal) : Rehearsal := runOn patience r

abbrev Player := Rehearsal → Act → Rehearsal × Reply

def playAll (play : Player) : Rehearsal → List Act → Rehearsal × List Reply
  | r, [] => (r, [])
  | r, a :: acts =>
      let (r, reply) := play r a
      let (r, replies) := playAll play r.rest acts
      (r, reply :: replies)

def hook (play : Player) (r : Rehearsal) (u : Update) : Rehearsal :=
  match r.hooks[r.view.consumer.applied - 1]? with
  | none => { r with shown := r.shown ++ [⟨u, none⟩] }
  | some acts =>
      let (r, replies) := playAll play r acts
      { r with shown := r.shown ++ [⟨u, some replies⟩] }

def attend (play : Player) : Nat → Rehearsal → Errand → Rehearsal
  | 0, r, _ => r
  | fuel + 1, r, e =>
      let r := match e with
        | .applied p => hook play r p.update
        | _ => r
      match r.view.attend e with
      | (v, some e) => attend play fuel { r with view := v } e
      | (v, none) => { r with view := v }

def pump (play : Player) (r : Rehearsal) : Rehearsal × Nat :=
  let (consumer, batch) := r.view.consumer.drain
  let r := { r with view := { r.view with consumer := consumer } }
  (batch.foldl (fun r p => (attend play patience r (.called p)).rest) r, batch.length)

def pumpAll (play : Player) : Nat → Rehearsal → Rehearsal × Nat
  | 0, r => (r, 0)
  | fuel + 1, r =>
      if r.view.consumer.pending = 0 then (r, 0)
      else
        let (r, n) := pump play r
        let (r, rest) := pumpAll play fuel r
        (r, n + rest)

def prepare (s : Source Unit) : List Production → Source Unit × List Reply
  | [] => (s, [])
  | p :: ps =>
      let (s, receipts, _) := s.produce p
      let (s, replies) := prepare s ps
      (s, .toProduction p receipts :: replies)

def onView (r : Rehearsal) (p : View × Reply) : Rehearsal × Reply := ({ r with view := p.1 }, p.2)

def onSetting (r : Rehearsal) (s : Setting) : Rehearsal × Reply := ({ r with setting := s }, .nothing)

def closeView (r : Rehearsal) : Rehearsal :=
  let (v, closing) := close false patience r.view .marking
  let r := { r with view := v }.rest
  { r with view := (close false patience r.view closing).1 }

def extend (r : Rehearsal) (row column : Nat) : Rehearsal × Reply :=
  if r.setting.failures ≠ 0 && !r.view.isClosed then
    let r := { r with setting := { r.setting with failures := r.setting.failures - 1 } }
    r.onView ((r.view.extend row column (some (.inconsistent "reloading"))).map id .extension)
  else r.onView ((r.view.extend row column none).map id .extension)

def play : Nat → Player
  | 0, r, _ => (r, .nothing)
  | depth + 1, r, a =>
      let v := r.view
      match a with
      | .produce p => r.onView ((v.produce p).map id (.toProduction p))
      | .pump => (pump (play depth) r).map id .count
      | .settle => (pumpAll (play depth) patience r).map id .count
      | .latest => (r, .update v.consumer.latest?)
      | .recompute structural => r.onView ((v.recompute structural).map id .request)
      | .setFormula row column text => r.onView ((v.setFormula row column text).map id .request)
      | .extend row column => r.extend row column
      | .resetFilters => r.onView (v.resetFilters.map id .request)
      | .adjustFilter => r.onView (v.adjustFilter.map id .heard)
      | .silenced acts =>
          let (r, replies) := playAll (play depth) { r with view := v.enterSilence } acts
          ({ r with view := r.view.leaveSilence }, .replies replies)
      | .result row column => (r, .outcome (v.result row column))
      | .dump => (r, .rows v.source.data.rows)
      | .hold h => r.onSetting { r.setting with hold := h }
      | .failSnapshots count => r.onSetting { r.setting with failures := count }
      | .breakSnapshots count => r.onSetting { r.setting with breaks := count }
      | .reject count => r.onSetting { r.setting with rejections := count }
      | .shutDown => r.onView ({ v with consumer := v.consumer.shutDown }, .nothing)
      | .close => (r.closeView, .nothing)
      | .closeIn t => r.onSetting { r.setting with trap? := some t }

def report (r : Rehearsal) (reply : Reply) : Rehearsal × Report :=
  let v := r.view
  ({ r with shown := [] },
    { reply, shown := r.shown, counts := v.counts, activity := v.activity, busy := v.indicator.busy,
      isSettled := v.isSettled, isClosed := v.isClosed, pending := v.consumer.pending,
      applied := v.consumer.applied, depth := v.silence.depth, revisions := v.live,
      listeners := v.source.listeners.length })

def step (r : Rehearsal) (a : Act) : Rehearsal × Report :=
  let (r, reply) := play patience r a
  r.rest.report reply

def steps : Rehearsal → List Act → Rehearsal × List Report
  | r, [] => (r, [])
  | r, a :: acts =>
      let (r, report) := r.step a
      let (r, reports) := steps r acts
      (r, report :: reports)

def run (r : Rehearsal) (acts : List Act) : Rehearsal × List Report :=
  let (r, first) := r.rest.report .nothing
  let (r, reports) := r.steps acts
  (r, first :: reports)

end Rehearsal

end LiveSheet
