import LiveSheet.Config.Lexeme

/-!
The outline of JSON text that is one list or one record: the first lexeme of each element, with its key. All the
rest is only checked to be well formed, to any depth.
-/

namespace LiveSheet

inductive Expecting where
  | value
  | elementOrEnd
  | memberOrEnd
  | member
  | colon
  | commaOrEnd
  deriving DecidableEq, Repr

structure Item where
  key? : Option Lexeme
  head : Lexeme
  deriving DecidableEq, Repr

structure Outline where
  expecting : Expecting := .value
  inside : List Bracket := []
  key? : Option Lexeme := none
  items : List Item := []
  deriving DecidableEq, Repr

namespace Outline

def note (o : Outline) (l : Lexeme) : Outline :=
  match o.inside with
  | [_] => { o with items := ⟨o.key?, l⟩ :: o.items, key? := none }
  | _ => o

def startValue? (o : Outline) (l : Lexeme) : Option Outline :=
  match l with
  | .opening .list => some { o.note l with expecting := .elementOrEnd, inside := .list :: o.inside }
  | .opening .record => some { o.note l with expecting := .memberOrEnd, inside := .record :: o.inside }
  | .null | .truth _ | .number _ | .text _ => some { o.note l with expecting := .commaOrEnd }
  | _ => none

def startMember? (o : Outline) (l : Lexeme) : Option Outline :=
  match l with
  | .text _ => some { o with expecting := .colon, key? := some l }
  | _ => none

def close? (o : Outline) (b : Bracket) : Option Outline :=
  match o.inside with
  | innermost :: outer => if innermost = b then some { o with expecting := .commaOrEnd, inside := outer } else none
  | [] => none

def step? (o : Outline) (l : Lexeme) : Option Outline :=
  match o.expecting, l with
  | .value, l => o.startValue? l
  | .elementOrEnd, .closing b => o.close? b
  | .elementOrEnd, l => o.startValue? l
  | .memberOrEnd, .closing b => o.close? b
  | .memberOrEnd, l => o.startMember? l
  | .member, l => o.startMember? l
  | .colon, .colon => some { o with expecting := .value }
  | .colon, _ => none
  | .commaOrEnd, .closing b => o.close? b
  | .commaOrEnd, .comma =>
      match o.inside with
      | .list :: _ => some { o with expecting := .value }
      | .record :: _ => some { o with expecting := .member }
      | [] => none
  | .commaOrEnd, _ => none

def ofText? (text : String) : Option (Bracket × List Item) := do
  let lexemes ← Lexeme.scan text.toList
  let outline ← lexemes.foldlM step? {}
  match lexemes.head?, outline.expecting, outline.inside with
  | some (.opening b), .commaOrEnd, [] => return (b, outline.items.reverse)
  | _, _, _ => none

end Outline

end LiveSheet
