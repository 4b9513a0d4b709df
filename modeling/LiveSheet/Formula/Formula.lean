import LiveSheet.Cell.Cell
import LiveSheet.Cell.Value

namespace LiveSheet

structure Address where
  cell : Cell
  rowFixed : Bool
  columnFixed : Bool
  deriving DecidableEq, Repr

inductive Operator where
  | equal
  | unequal
  | less
  | atMost
  | greater
  | atLeast
  | join
  | add
  | subtract
  | multiply
  | divide
  | power
  deriving DecidableEq, Repr

namespace Operator

def precedence : Operator → Nat
  | .equal | .unequal | .less | .atMost | .greater | .atLeast => 1
  | .join => 2
  | .add | .subtract => 3
  | .multiply | .divide => 4
  | .power => 5

def symbol : Operator → String
  | .equal => "="
  | .unequal => "<>"
  | .less => "<"
  | .atMost => "<="
  | .greater => ">"
  | .atLeast => ">="
  | .join => "&"
  | .add => "+"
  | .subtract => "-"
  | .multiply => "*"
  | .divide => "/"
  | .power => "^"

end Operator

inductive Formula where
  | literal (value : Value)
  | failure (error : CellError)
  | cell (address : Address)
  | range (start stop : Address)
  | rowCount
  | name (word : String)
  | negate (operand : Formula)
  | binary (operator : Operator) (left right : Formula)
  | call (function : String) (arguments : List Formula)
  deriving Repr

namespace Formula

mutual

def height : Formula → Nat
  | .negate operand => operand.height + 1
  | .binary _ left right => max left.height right.height + 1
  | .call _ arguments => greatestHeight arguments + 1
  | _ => 1

def greatestHeight : List Formula → Nat
  | [] => 0
  | argument :: rest => max argument.height (greatestHeight rest)

end

mutual

def same : Formula → Formula → Bool
  | .literal v, .literal w => v.same w
  | .failure e, .failure f => e == f
  | .cell a, .cell b => a == b
  | .range a b, .range c d => a == c && b == d
  | .rowCount, .rowCount => true
  | .name s, .name t => s == t
  | .negate f, .negate g => f.same g
  | .binary o f g, .binary p h i => o == p && f.same h && g.same i
  | .call s fs, .call t gs => s == t && sameAll fs gs
  | _, _ => false

def sameAll : List Formula → List Formula → Bool
  | [], [] => true
  | f :: fs, g :: gs => f.same g && sameAll fs gs
  | _, _ => false

end

mutual

def usesRowCount : Formula → Bool
  | .rowCount => true
  | .negate operand => operand.usesRowCount
  | .binary _ left right => left.usesRowCount || right.usesRowCount
  | .call _ arguments => anyUsesRowCount arguments
  | _ => false

def anyUsesRowCount : List Formula → Bool
  | [] => false
  | argument :: rest => argument.usesRowCount || anyUsesRowCount rest

end

end Formula

end LiveSheet
