import LiveSheet.View.View

/-!
The steps of the worker. Each is one access to what the view shares. A failing pass asks for itself again,
however it failed, and only closing ends the worker; a pass that sees the view closed goes no further.
-/

namespace LiveSheet

def Config.rangesOf (c : Config) (t : Table) : List FilterRange :=
  if c.filterCeiling?.any (· < t.size) then [] else t.filterRanges c.bins

namespace View

def stand (v : View) (p : Phase) : View := { v with worker := { v.worker with phase := p } }

def onto (v : View) (asked : Bool) (s : Stage) : View := v.stand (.pass asked s)

def checkOpen (v : View) (asked : Bool) (s : Stage) : View :=
  if v.isClosed then v.onto asked .succeeding else v.onto asked s

def compute (v : View) (visit : VisitOrder) (s : Snapshot) (rebuilt : Bool) : View × Finding :=
  let (sheet, table, _) := v.worker.sheet.runPass visit s v.config.formulaCeiling?
  let ranges? := if rebuilt || v.resets != v.worker.served then some (v.config.rangesOf table) else none
  ({ v with worker := { v.worker with sheet := sheet } },
    ⟨⟨if rebuilt then some s.schema else none, table, ranges?⟩, v.resets⟩)

def perform (v : View) (visit : VisitOrder) (asked : Bool) : Stage → View
  | .woken =>
      ({ v with
        counts := { v.counts with wakeups := v.counts.wakeups + 1 }
        worker := { v.worker with pass := v.worker.pass + 1 }
        activity := .copying } : View).onto asked .beginning
  | .beginning => (v.leadIndicator v.worker.pass).onto asked .copying
  | .copying => v.onto asked (.copied v.source.data.snapshot)
  | .copied s => ({ v with seen := s.revisions } : View).onto asked (.noted s)
  | .noted s => v.checkOpen asked (.preparing s)
  | .preparing s =>
      let v : View := { v with activity := .computing }
      if asked || v.worker.isForeign s then v.enterSilence.onto asked (.rebuilding s)
      else v.onto asked (.computing s false)
  | .rebuilding s =>
      ({ v with worker := { v.worker with sheet := .empty, schema? := some s.schema } } : View).leaveSilence.onto asked
        (.computing s true)
  | .computing s rebuilt =>
      let (v, f) := v.compute visit s rebuilt
      v.onto asked (.computed f)
  | .computed f => v.checkOpen asked (if f.update.table.evaluated then .silencing f else .showing f)
  | .silencing f => v.enterSilence.onto asked (.storing f)
  | .storing f =>
      let (source, _, notice?) := v.source.storeResults f.update.table
      ({ v with source := source } : View).onto asked (.telling f notice?)
  | .telling f notice? => (v.tellAny notice?).leaveSilence.onto asked (.showing f)
  | .showing f =>
      ({ v with latest? := some f.update.table, activity := .publishing } : View).onto asked (.publishing f)
  | .publishing f => v.checkOpen asked (.handing f)
  | .handing f => (v.setIndicator v.worker.pass .applying).onto asked (.scheduling f)
  | .scheduling f =>
      match v.consumer.schedule ⟨v.worker.pass, f.update⟩ with
      | .ok consumer => ({ v with consumer := consumer } : View).onto asked (.serving f)
      | .error e => v.onto asked (.refused f e)
  | .refused f _ => if v.isClosed then v.onto asked (.serving f) else v.onto asked .failing
  | .serving f =>
      ({ v with worker := { v.worker with served := f.resets } } : View).onto asked (.comparing f)
  | .comparing f =>
      let seen := f.update.table.revisions
      if v.live = seen then v.onto asked .succeeding
      else v.onto asked (.requesting (v.live.layout != seen.layout))
  | .requesting structural => (v.mark structural).onto asked .succeeding
  | .succeeding => ({ v with counts := { v.counts with passes := v.counts.passes + 1 } } : View).stand .finishing
  | .failing =>
      let v : View := { v with counts := { v.counts with failures := v.counts.failures + 1 } }
      (v.setIndicator v.worker.pass .idle).onto asked .recovering
  | .recovering => if v.isClosed then v.stand .finishing else v.onto asked .resting
  | .resting => if v.isClosed then v.stand .finishing else v.onto asked .retrying
  | .retrying => (v.mark asked).stand .finishing

/-- What a fault does to a pass, where it can come. A snapshot may still fail behind the copying. A pass that
breaks loses its sheet, and leaves the silence it kept. -/
def disturb (v : View) (asked : Bool) (s : Stage) (fault : PassError) : Option View :=
  match fault, s with
  | .snapshot _, .copying | .snapshot _, .copied _ => some (v.onto asked .failing)
  | .publish e, .scheduling f => some (v.onto asked (.refused f e))
  | .broken _, s =>
      if s.isUnderWay then
        let v := if s.isSilent then v.leaveSilence else v
        some (({ v with worker := { v.worker with sheet := .empty, schema? := none } } : View).onto asked .failing)
      else none
  | _, _ => none

def work (v : View) (visit : VisitOrder) (fault? : Option PassError) : Option View :=
  match v.worker.phase, fault? with
  | .turning, none => some (({ v with activity := .waiting } : View).stand .waiting)
  | .waiting, none =>
      match v.tracker.take with
      | (_, none) => none
      | (tracker, some .closed) => some (({ v with tracker := tracker } : View).stand .stopping)
      | (tracker, some (.recompute asked)) => some (({ v with tracker := tracker } : View).onto asked .woken)
  | .pass asked s, none => some (v.perform visit asked s)
  | .pass asked s, some fault => v.disturb asked s fault
  | .finishing, none => some (({ v with tracker := v.tracker.finish } : View).stand .turning)
  | .stopping, none => some (({ v with activity := .closed } : View).stand .stopped)
  | _, _ => none

end View

end LiveSheet
