import LiveSheet.Cell.Cell
import LiveSheet.Cell.Value

/-!
Computations that read the grid. Running a `Reading` answers with the cells it asked for, in order, and with
its result; after an error nothing more is asked.
-/

namespace LiveSheet

structure Grid where
  value : Cell → Outcome
  rowCount : Nat

structure Answer (α : Type) where
  reads : List Cell
  result : Except CellError α

def Reading (α : Type) : Type := Grid → Answer α

namespace Reading

def succeed {α : Type} (a : α) : Reading α := fun _ => ⟨[], .ok a⟩

def fail {α : Type} (e : CellError) : Reading α := fun _ => ⟨[], .error e⟩

def ofResult {α : Type} (r : Except CellError α) : Reading α := fun _ => ⟨[], r⟩

def andThen {α β : Type} (x : Reading α) (f : α → Reading β) : Reading β := fun g =>
  match x g with
  | ⟨reads, .ok a⟩ =>
      let rest := f a g
      ⟨reads ++ rest.reads, rest.result⟩
  | ⟨reads, .error e⟩ => ⟨reads, .error e⟩

def outcome {α : Type} (x : Reading α) : Reading (Except CellError α) := fun g =>
  ⟨(x g).reads, .ok (x g).result⟩

def cell (c : Cell) : Reading Value := fun g => ⟨[c], g.value c⟩

def rowCount : Reading Nat := fun g => ⟨[], .ok g.rowCount⟩

instance : Monad Reading where
  pure := succeed
  bind := andThen

def allBehind {α : Type} (g : Grid) (reads : List Cell) (found : List α) :
    List (Reading α) → Answer (List α)
  | [] => ⟨reads.reverse, .ok found.reverse⟩
  | x :: xs =>
      match x g with
      | ⟨more, .ok a⟩ => allBehind g (more.reverse ++ reads) (a :: found) xs
      | ⟨more, .error e⟩ => ⟨(more.reverse ++ reads).reverse, .error e⟩

def all {α : Type} (xs : List (Reading α)) : Reading (List α) := fun g => allBehind g [] [] xs

end Reading

end LiveSheet
