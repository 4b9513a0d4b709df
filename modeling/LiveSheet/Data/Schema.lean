import LiveSheet.Errors

namespace LiveSheet

inductive ColumnKind where
  | native
  | formula
  deriving DecidableEq, Repr

structure Column where
  name : String
  kind : ColumnKind
  slot? : Option Nat
  deriving DecidableEq, Repr

structure Schema where
  columns : List Column := []
  deriving DecidableEq, Repr

namespace Schema

def empty : Schema := {}

def width (s : Schema) : Nat := s.columns.length

def column? (s : Schema) (index : Nat) : Option Column := s.columns[index]?

def nativeCount (s : Schema) : Nat := s.columns.countP (·.slot?.isSome)

def slot? (s : Schema) (index : Nat) : Option Nat := (s.column? index).bind Column.slot?

def indexOf? (s : Schema) (name : String) : Option Nat := s.columns.findIdx? (·.name == name)

def index (s : Schema) (name : String) : Except DatasetError Nat :=
  match s.indexOf? name with
  | some i => .ok i
  | none => .error (.unknownColumn name)

def column (s : Schema) (index : Nat) : Except DatasetError Column :=
  match s.column? index with
  | some c => .ok c
  | none => .error (.columnOutOfRange index s.width)

def formulaColumns (s : Schema) : List Nat :=
  (List.range s.width).filter fun i => (s.column? i).any (·.kind == .formula)

def append (s : Schema) (name : String) (kind : ColumnKind) : Except DatasetError Schema :=
  if (s.indexOf? name).isSome then .error (.duplicateColumn name)
  else
    let slot? := match kind with
      | .native => some s.nativeCount
      | .formula => none
    .ok ⟨s.columns ++ [⟨name, kind, slot?⟩]⟩

def ofColumns (columns : List (String × ColumnKind)) : Except DatasetError Schema :=
  columns.foldlM (fun s c => s.append c.1 c.2) .empty

end Schema

end LiveSheet
