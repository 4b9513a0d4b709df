import LiveSheet.Formula.Formula

namespace LiveSheet

def rowCountName : String := "NCELLS"

def Address.text (a : Address) : String :=
  (if a.columnFixed then "$" else "") ++ columnLetters a.cell.column
    ++ (if a.rowFixed then "$" else "") ++ toString (a.cell.row + 1)

def quotedText (s : String) : String :=
  String.ofList ('"' :: s.toList.flatMap (fun c => if c = '"' then ['"', '"'] else [c]) ++ ['"'])

namespace Formula

def precedence : Formula → Nat
  | .binary operator _ _ => operator.precedence
  | .negate _ => 6
  | _ => 255

def enclose (needed : Bool) (s : String) : String := if needed then "(" ++ s ++ ")" else s

mutual

def text : Formula → String
  | .literal (.text s) => quotedText s
  | .literal .blank => quotedText ""
  | .literal v => v.display
  | .failure e => e.marker
  | .cell a => a.text
  | .range a b => a.text ++ ":" ++ b.text
  | .rowCount => rowCountName
  | .name word => word
  | .negate operand => "-" ++ enclose (operand.precedence < 6) operand.text
  | .binary operator left right =>
      enclose (left.precedence < operator.precedence) left.text ++ operator.symbol
        ++ enclose (right.precedence ≤ operator.precedence) right.text
  | .call function arguments => function ++ "(" ++ argumentsText arguments ++ ")"

def argumentsText : List Formula → String
  | [] => ""
  | [argument] => argument.text
  | argument :: rest => argument.text ++ "," ++ argumentsText rest

end

end Formula

end LiveSheet
