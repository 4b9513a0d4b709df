import LiveSheet.View.View

/-!
How the consumer's owner runs a publication, step by step. While an update is applied the view keeps silence, so
edits that were made meanwhile are found by their revisions at the end.
-/

namespace LiveSheet

inductive Errand where
  | called (p : Publication)
  | silencing (p : Publication)
  | applying (p : Publication)
  /-- The update is applied and silence is still kept; the host may do what it likes here. -/
  | applied (p : Publication)
  | counting (p : Publication)
  | reading
  | comparing (seen : Revisions)
  | requesting (structural : Bool)

namespace View

def attend (v : View) : Errand → View × Option Errand
  | .called p => (v, if v.isClosed then none else some (.silencing p))
  | .silencing p => (v.enterSilence, some (.applying p))
  | .applying p => ({ v with consumer := v.consumer.apply p.update }, some (.applied p))
  | .applied p => (v.leaveSilence, some (.counting p))
  | .counting p =>
      let v : View := { v with counts := { v.counts with publications := v.counts.publications + 1 } }
      (v.setIndicator p.pass .idle, some .reading)
  | .reading => (v, some (.comparing v.seen))
  | .comparing seen =>
      (v, if v.live = seen then none else some (.requesting (v.live.layout != seen.layout)))
  | .requesting structural => (v.mark structural, none)

end View

end LiveSheet
