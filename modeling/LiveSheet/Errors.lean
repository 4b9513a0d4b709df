namespace LiveSheet

inductive DatasetError where
  | rowOutOfRange (row rows : Nat)
  | columnOutOfRange (column columns : Nat)
  | unknownColumn (name : String)
  | duplicateColumn (name : String)
  | noFormulaColumn (name : String)
  | noNativeColumn (name : String)
  | fieldCount (fields expected : Nat)
  deriving DecidableEq, Repr

inductive SnapshotError where
  | inconsistent (reason : String)
  | detached
  deriving DecidableEq, Repr

inductive PublishError where
  | consumerGone
  | rejected (reason : String)
  deriving DecidableEq, Repr

inductive ConfigError where
  | unreadable (reason : String)
  | invalid (reason : String)
  deriving DecidableEq, Repr

inductive PassError where
  | snapshot (e : SnapshotError)
  | publish (e : PublishError)
  | broken (reason : String)
  deriving DecidableEq, Repr

inductive ViewError where
  | config (e : ConfigError)
  | dataset (e : DatasetError)
  | snapshot (e : SnapshotError)
  | closed
  deriving DecidableEq, Repr

inductive AnyError where
  | dataset (e : DatasetError)
  | snapshot (e : SnapshotError)
  | publish (e : PublishError)
  | config (e : ConfigError)
  | view (e : ViewError)
  deriving DecidableEq, Repr

def DatasetError.message : DatasetError → String
  | .rowOutOfRange row rows => s!"row {row} out of range (dataset has {rows} rows)"
  | .columnOutOfRange column columns => s!"column {column} out of range (schema has {columns} columns)"
  | .unknownColumn name => s!"unknown column '{name}'"
  | .duplicateColumn name => s!"column '{name}' already exists"
  | .noFormulaColumn name => s!"column '{name}' does not hold formulas"
  | .noNativeColumn name => s!"column '{name}' holds formulas, not native values"
  | .fieldCount fields expected => s!"row has {fields} native fields, schema expects {expected}"

def SnapshotError.message : SnapshotError → String
  | .inconsistent reason => s!"data source is in an inconsistent state: {reason}"
  | .detached => "data source is no longer available"

def PublishError.message : PublishError → String
  | .consumerGone => "presentation consumer has been torn down"
  | .rejected reason => s!"presentation consumer rejected the update: {reason}"

def ConfigError.message : ConfigError → String
  | .unreadable reason => s!"failed to parse configuration: {reason}"
  | .invalid reason => s!"invalid configuration: {reason}"

def PassError.message : PassError → String
  | .snapshot e => e.message
  | .publish e => e.message
  | .broken reason => s!"recompute panicked: {reason}"

def ViewError.message : ViewError → String
  | .config e => e.message
  | .dataset e => e.message
  | .snapshot e => e.message
  | .closed => "view is closed"

def AnyError.message : AnyError → String
  | .dataset e => e.message
  | .snapshot e => e.message
  | .publish e => e.message
  | .config e => e.message
  | .view e => e.message

end LiveSheet
