import LiveSheet.Data.Edit

namespace LiveSheet

inductive Production where
  | edit (e : Edit)
  | batch (es : List Edit)
  | fire (n : Notice)

structure Source (Observer : Type) where
  data : Dataset
  listeners : List (Nat × Observer) := []
  nextListener : Nat := 0

structure Subscription where
  id? : Option Nat

namespace Source

variable {Observer : Type}

def ofSchema (s : Schema) : Source Observer := { data := .ofSchema s }

def observers (s : Source Observer) : List Observer := s.listeners.map Prod.snd

def listen (s : Source Observer) (o : Observer) : Source Observer × Nat :=
  ({ s with listeners := s.listeners ++ [(s.nextListener, o)], nextListener := s.nextListener + 1 },
    s.nextListener)

def unlisten (s : Source Observer) (id : Nat) : Source Observer × Bool :=
  ({ s with listeners := s.listeners.filter (·.1 ≠ id) }, s.listeners.any (·.1 = id))

def subscribe (s : Source Observer) (o : Observer) : Source Observer × Subscription :=
  ((s.listen o).1, ⟨some (s.listen o).2⟩)

def release (s : Source Observer) (subscription : Subscription) : Source Observer × Subscription :=
  match subscription.id? with
  | some id => ((s.unlisten id).1, ⟨none⟩)
  | none => (s, subscription)

def editAll (s : Source Observer) (edits : List Edit) : Source Observer × List Receipt × Option Notice :=
  let (data, receipts) := s.data.editAll edits
  ({ s with data := data }, receipts, s.data.revisions.notice? data.revisions)

def produce (s : Source Observer) : Production → Source Observer × List Receipt × Option Notice
  | .edit e => s.editAll [e]
  | .batch es => s.editAll es
  | .fire n => (s, [], some n)

def storeResults (s : Source Observer) (t : Table) : Source Observer × Nat × Option Notice :=
  let (data, written) := s.data.storeResults t
  ({ s with data := data }, written, if written = 0 then none else some .values)

end Source

end LiveSheet
