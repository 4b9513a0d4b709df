import LiveSheet.Cell.Cell

namespace LiveSheet

inductive Role where
  | input
  | formula
  deriving DecidableEq, Repr

/-- How far the last result of a cell can be trusted. A suspect cell has to be computed again only if one of
its precedents comes to a new result. -/
inductive Freshness where
  | fresh
  | suspect
  | stale
  deriving DecidableEq, Repr

def Freshness.doubted : Freshness → Freshness
  | .fresh => .suspect
  | f => f

structure Node where
  cell : Cell
  role : Role := .input
  freshness : Freshness := .fresh
  precedents : CellSet := ∅
  readers : CellSet := ∅
  deriving DecidableEq

def Node.isDetached (n : Node) : Bool :=
  n.role == .input && n.precedents.isEmpty && n.readers.isEmpty

structure Graph where
  nodes : CellMap Node := ∅
  deriving DecidableEq

namespace Graph

def empty : Graph := {}

def node? (g : Graph) (c : Cell) : Option Node := g.nodes[c]?

def nodeCount (g : Graph) : Nat := g.nodes.size

def isDetached (g : Graph) (c : Cell) : Bool := (g.node? c).any Node.isDetached

def freshness (g : Graph) (c : Cell) : Freshness := ((g.node? c).map Node.freshness).getD .fresh

def precedents (g : Graph) (c : Cell) : CellSet := ((g.node? c).map Node.precedents).getD ∅

def readers (g : Graph) (c : Cell) : CellSet := ((g.node? c).map Node.readers).getD ∅

/-- Changes the node of a cell, which gets one if it has none. -/
def establish (g : Graph) (c : Cell) (change : Node → Node) : Graph :=
  ⟨g.nodes.alter c fun n => some (change (n.getD { cell := c }))⟩

def adjust (g : Graph) (c : Cell) (change : Node → Node) : Graph := ⟨g.nodes.modify c change⟩

def addReader (c : Cell) (n : Node) : Node := { n with readers := n.readers.insert c }

def addPrecedent (c : Cell) (n : Node) : Node := { n with precedents := n.precedents.insert c }

def dropReader (c : Cell) (n : Node) : Node := { n with readers := n.readers.erase c }

def dropPrecedent (c : Cell) (n : Node) : Node := { n with precedents := n.precedents.erase c }

def link (g : Graph) (c reader : Cell) : Graph :=
  (g.establish c (addReader reader)).establish reader (addPrecedent c)

def unlink (g : Graph) (c reader : Cell) : Graph :=
  (g.adjust c (dropReader reader)).adjust reader (dropPrecedent c)

def prune (g : Graph) (c : Cell) : Graph :=
  if g.isDetached c then ⟨g.nodes.erase c⟩ else g

def forget (c : Cell) (g : Graph) (precedent : Cell) : Graph :=
  (g.adjust precedent (dropReader c)).prune precedent

def setPrecedents (g : Graph) (c : Cell) (role : Role) (precedents : List Cell) : Graph :=
  let cut := g.establish c fun n => { n with role := role, precedents := ∅ }
  let loose := (g.precedents c).toList.foldl (forget c) cut
  precedents.foldl (fun g p => g.link p c) loose

def setFreshness (f : Freshness) (g : Graph) (c : Cell) : Graph :=
  g.adjust c fun n => { n with freshness := f }

def doubt (g : Graph) (c : Cell) : Graph :=
  g.adjust c fun n => { n with freshness := n.freshness.doubted }

end Graph

end LiveSheet
