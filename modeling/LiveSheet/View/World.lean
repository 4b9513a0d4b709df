import LiveSheet.View.Errand
import LiveSheet.View.Request

/-!
A view among threads of their own: its worker, the owner of its consumer, and any number of producers and holders
in the middle of a call. A move is one step of one of them, and any of them may move next.
-/

namespace LiveSheet

inductive Call where
  | telling (n : Notice)
  | hearing (structural : Bool)
  | marking (structural : Bool)
  | resetting
  | hushing (x : Extension)
  | writing (x : Extension)
  | noticing (x : Extension) (notice? : Option Notice)
  /-- Leaving the silence of an extension, and whether every row took it. -/
  | leaving (complete : Bool)
  | closing (c : Closing)

def Call.step (v : View) : Call → Option (View × Option Call)
  | .telling n => some (v, if v.source.listeners.isEmpty then none else some (.hearing n.isStructural))
  | .hearing structural => some (v, if v.silence.isKept then none else some (.marking structural))
  | .marking structural => some (v.mark structural, none)
  | .resetting => some ({ v with resets := v.resets + 1 }, some (.marking false))
  | .hushing x => some (v.enterSilence, some (.writing x))
  | .writing x =>
      match x.left with
      | [] => some (v, some (.leaving true))
      | row :: rows =>
          match v.change (.edit (.setFormula row (.index x.column) (x.textFor row))) with
          | (v, [.error _], _) => some (v, some (.leaving false))
          | (v, _, notice?) => some (v, some (.noticing { x with left := rows, written := x.written + 1 } notice?))
  | .noticing x notice? => some (v.tellAny notice?, some (.writing x))
  | .leaving complete => some (v.leaveSilence, if complete then some .resetting else none)
  | .closing c =>
      (v.closeStep false c).map fun (v, c) => (v, if c = .done then none else some (.closing c))

structure World where
  view : View
  batch : List Publication := []
  errand? : Option Errand := none
  calls : List Call := []

inductive Move where
  | work (visit : VisitOrder) (fault? : Option PassError)
  | drain
  | attend
  | change (p : Production)
  | adjustFilter
  | recompute (structural : Bool)
  | resetFilters
  | extend (row column : Nat)
  | shutDown
  | close
  | proceed (call : Nat)

namespace World

def call (w : World) (c? : Option Call) : World := { w with calls := w.calls ++ c?.toList }

def callOpen (w : World) (c? : Option Call) : Option World := if w.view.isClosed then none else some (w.call c?)

def step (w : World) : Move → Option World
  | .work visit fault? => (w.view.work visit fault?).map fun v => { w with view := v }
  | .drain =>
      match w.batch, w.errand? with
      | [], none =>
          let (consumer, batch) := w.view.consumer.drain
          some { w with view := { w.view with consumer := consumer }, batch := batch }
      | _, _ => none
  | .attend =>
      match w.errand?, w.batch with
      | some e, _ =>
          let (v, errand?) := w.view.attend e
          some { w with view := v, errand? := errand? }
      | none, p :: batch => some { w with batch := batch, errand? := some (.called p) }
      | none, [] => none
  | .change p =>
      let (v, _, notice?) := w.view.change p
      some ({ w with view := v }.call (notice?.map .telling))
  | .adjustFilter => some (w.call (some (.hearing false)))
  | .recompute structural => w.callOpen (some (.marking structural))
  | .resetFilters => w.callOpen (some .resetting)
  | .extend row column =>
      w.callOpen (((Extension.ofSnapshot w.view.source.data.snapshot row column).toOption.bind id).map .hushing)
  | .shutDown => some { w with view := { w.view with consumer := w.view.consumer.shutDown } }
  | .close => some (w.call (some (.closing .marking)))
  | .proceed i =>
      match w.calls[i]? with
      | none => none
      | some c =>
          (c.step w.view).map fun (v, c?) =>
            { w with view := v, calls := w.calls.take i ++ c?.toList ++ w.calls.drop (i + 1) }

def run (w : World) (history : List Move) : Option World := history.foldlM step w

end World

end LiveSheet
