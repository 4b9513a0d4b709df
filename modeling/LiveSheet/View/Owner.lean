import LiveSheet.View.Consumer

namespace LiveSheet

inductive Deed (Note : Type) where
  | note (n : Note)
  | apply (u : Update)
  | schedule (deeds : List (Deed Note))

inductive Trace (Note : Type) where
  | note (n : Note)
  | applied (u : Update)

structure Owner (Note : Type) where
  consumer : Consumer (List (Deed Note)) := {}
  traces : List (Trace Note) := []

namespace Owner

variable {Note : Type}

def apply (o : Owner Note) (u : Update) : Owner Note :=
  { o with consumer := o.consumer.apply u, traces := o.traces ++ [.applied u] }

def schedule (o : Owner Note) (deeds : List (Deed Note)) : Owner Note × Except PublishError Unit :=
  match o.consumer.schedule deeds with
  | .ok consumer => ({ o with consumer := consumer }, .ok ())
  | .error e => (o, .error e)

def perform (o : Owner Note) : Deed Note → Owner Note
  | .note n => { o with traces := o.traces ++ [.note n] }
  | .apply u => o.apply u
  | .schedule deeds => (o.schedule deeds).1

def runTask (o : Owner Note) (deeds : List (Deed Note)) : Owner Note := deeds.foldl perform o

def pump (o : Owner Note) : Owner Note × Nat :=
  let (consumer, batch) := o.consumer.drain
  (batch.foldl runTask { o with consumer := consumer }, batch.length)

/-- Pumps until so many updates are applied, and whether they are. It gives up when nothing is queued, or
behind the given number of rounds. -/
def pumpUntil (applied : Nat) : Nat → Owner Note → Owner Note × Bool
  | 0, o => (o, applied ≤ o.consumer.applied)
  | rounds + 1, o =>
      if applied ≤ o.consumer.applied then (o, true)
      else if o.consumer.pending = 0 then (o, false)
      else pumpUntil applied rounds o.pump.1

end Owner

end LiveSheet
