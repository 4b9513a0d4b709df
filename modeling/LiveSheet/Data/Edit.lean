import LiveSheet.Data.Dataset

namespace LiveSheet

inductive ColumnKey where
  | index (i : Nat)
  | name (title : String)
  deriving DecidableEq, Repr

def ColumnKey.resolve (k : ColumnKey) (s : Schema) : Except DatasetError Nat :=
  match k with
  | .index i => .ok i
  | .name title => s.index title

inductive Edit where
  | pushRow (native : List Value)
  | removeRow (row : Nat)
  | addColumn (name : String) (kind : ColumnKind)
  | setValue (row : Nat) (column : ColumnKey) (v : Value)
  | setFormula (row : Nat) (column : ColumnKey) (text : String)
  | clearFormula (row column : Nat)

/-- What a successful edit answers with: the id of its row, the index of its column, or nothing. -/
abbrev Receipt := Except DatasetError (Option Nat)

inductive Notice where
  | values
  | layout
  deriving DecidableEq, Repr

def Revisions.notice? (before after : Revisions) : Option Notice :=
  if after.layout ≠ before.layout then some .layout
  else if after.values ≠ before.values then some .values
  else none

namespace Dataset

def onColumn (d : Dataset) (k : ColumnKey) (f : Nat → Dataset × Except DatasetError Unit) :
    Dataset × Except DatasetError Unit :=
  match k.resolve d.schema.value with
  | .error e => (d, .error e)
  | .ok column => f column

def edit (d : Dataset) : Edit → Dataset × Receipt
  | .pushRow native => (d.pushRow native).map id fun r => r.map some
  | .removeRow row => (d.removeRow row).map id fun r => r.map some
  | .addColumn name kind => (d.addColumn name kind).map id fun r => r.map some
  | .setValue row k v => (d.onColumn k fun column => d.setValue row column v).map id fun r => r.map fun _ => none
  | .setFormula row k text =>
      (d.onColumn k fun column => d.setFormula row column text).map id fun r => r.map fun _ => none
  | .clearFormula row column => (d.clearFormula row column).map id fun r => r.map fun _ => none

def editAll (d : Dataset) : List Edit → Dataset × List Receipt
  | [] => (d, [])
  | e :: es =>
      let (d, receipt) := d.edit e
      let (d, receipts) := d.editAll es
      (d, receipt :: receipts)

end Dataset

end LiveSheet
