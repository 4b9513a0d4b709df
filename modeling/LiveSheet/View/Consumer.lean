import LiveSheet.Filter.Range

namespace LiveSheet

/-- What a pass publishes. Columns and filter ranges are there only if the pass found them anew. -/
structure Update where
  schema? : Option (Stamped Schema)
  table : Table
  ranges? : Option (List FilterRange)

def Update.over (u : Update) (previous? : Option Update) : Update :=
  { u with
    schema? := u.schema? <|> previous?.bind (·.schema?)
    ranges? := u.ranges? <|> previous?.bind (·.ranges?) }

structure Consumer (Task : Type) where
  queue : List Task := []
  isShutDown : Bool := false
  latest? : Option Update := none
  applied : Nat := 0

namespace Consumer

variable {Task : Type}

def pending (c : Consumer Task) : Nat := c.queue.length

def schedule (c : Consumer Task) (t : Task) : Except PublishError (Consumer Task) :=
  if c.isShutDown then .error .consumerGone else .ok { c with queue := c.queue ++ [t] }

def drain (c : Consumer Task) : Consumer Task × List Task := ({ c with queue := [] }, c.queue)

def apply (c : Consumer Task) (u : Update) : Consumer Task :=
  { c with latest? := some (u.over c.latest?), applied := c.applied + 1 }

def shutDown (c : Consumer Task) : Consumer Task := { c with queue := [], isShutDown := true }

end Consumer

end LiveSheet
