import LiveSheet.View.Consumer

namespace LiveSheet

structure Stint (Task : Type) where
  task : Task
  updates : List Update := []

structure Pumping (Task : Type) where
  consumer : Consumer Task := {}
  taken? : Option Nat := none
  batch : List Task := []
  running? : Option (Stint Task) := none
  ended : List (Stint Task) := []
  accepted : List Task := []
  dropped : List Task := []
  answers : List Nat := []

namespace Pumping

variable {Task : Type}

inductive Move (Task : Type) where
  | schedule (t : Task)
  | drain
  | start
  | apply (u : Update)
  | finish
  | answer
  | shutDown

def step (p : Pumping Task) : Move Task → Option (Pumping Task)
  | .schedule t =>
      match p.consumer.schedule t with
      | .ok consumer => some { p with consumer := consumer, accepted := p.accepted ++ [t] }
      | .error _ => some p
  | .drain =>
      match p.taken? with
      | none =>
          let (consumer, batch) := p.consumer.drain
          some { p with consumer := consumer, taken? := some batch.length, batch := batch }
      | some _ => none
  | .start =>
      match p.running?, p.batch with
      | none, t :: batch => some { p with batch := batch, running? := some { task := t } }
      | _, _ => none
  | .apply u =>
      p.running?.map fun stint =>
        { p with consumer := p.consumer.apply u, running? := some { stint with updates := stint.updates ++ [u] } }
  | .finish => p.running?.map fun stint => { p with running? := none, ended := p.ended ++ [stint] }
  | .answer =>
      match p.taken?, p.running?, p.batch with
      | some n, none, [] => some { p with taken? := none, answers := p.answers ++ [n] }
      | _, _, _ => none
  | .shutDown => some { p with consumer := p.consumer.shutDown, dropped := p.dropped ++ p.consumer.queue }

def run (p : Pumping Task) (moves : List (Move Task)) : Option (Pumping Task) := moves.foldlM step p

def stints (p : Pumping Task) : List (Stint Task) := p.ended ++ p.running?.toList

def begun (p : Pumping Task) : List Task := p.stints.map Stint.task

def updates (p : Pumping Task) : List Update := p.stints.flatMap Stint.updates

end Pumping

end LiveSheet
