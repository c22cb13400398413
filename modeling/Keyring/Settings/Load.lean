import Keyring.Settings.Basic
import Keyring.Settings.Source

/-!
# `Keyring.Settings.Load`: settings from their sources

The settings are read from the sources laid over each other. Numbers and truth
values count as texts. The domain of the backups may be given as a list of its
two texts.
-/

set_option autoImplicit false

namespace Keyring.Settings

/-- Why there are no settings. -/
inductive LoadError where
  | file (name : String) (e : FileError)
  | missing (name : String)
  /-- A scalar stands where the domain is expected. -/
  | notDomain (x : Scalar)
  /-- The domain is given as a list without items. -/
  | shortDomain
  /-- A value of this kind, from this origin, stands at a path where a text is expected. -/
  | notText (found path : String) (origin : Option String)
  deriving DecidableEq, Repr

/-- The wording of an error. -/
def LoadError.message : LoadError → String
  | .file name e => e.message name
  | .missing name => "missing field " ++ "`" ++ name ++ "`"
  | .notDomain x => "invalid type: " ++ domainFound x ++ ", expected struct ExportConfig"
  | .shortDomain => "invalid length 0, expected struct ExportConfig with 2 elements"
  | .notText found path origin =>
    "invalid type: " ++ found ++ ", expected a string for key `" ++ path ++ "`" ++
      (origin.map (" in " ++ ·)).getD ""
where
  /-- A scalar as part of a message. -/
  domainFound (x : Scalar) : String := x.describe "integer" .message

/-- The text that stands at a path. -/
def textOf (path : String) : Tree → Except LoadError String
  | .scalar origin x =>
    match x.toText? with
    | some s => .ok s
    | none => .error (.notText "unit value" path origin)
  | .list origin _ => .error (.notText "sequence" path origin)
  | .table origin _ => .error (.notText "map" path origin)

/-- The text of a field, if the field is there. -/
def textField? (path name : String) (tree : Tree) : Except LoadError (Option String) :=
  match tree.field? name with
  | none => .ok none
  | some value => (textOf path value).map some

/-- The domain of the backups. -/
def domainOf (tree : Tree) : Except LoadError Backup.Domain :=
  match tree with
  | .scalar _ x => .error (.notDomain x)
  | .list _ [] => .error .shortDomain
  | .list _ [secret] => do
    .ok ⟨← textOf "export[0]" secret, Backup.Domain.defaultPadding⟩
  | .list _ (secret :: padding :: _) => do
    .ok ⟨← textOf "export[0]" secret, ← textOf "export[1]" padding⟩
  | .table .. => do
    let padding ← textField? "export.padding" "padding" tree
    match ← textField? "export.system_secret" "system_secret" tree with
    | none => .error (.missing "system_secret")
    | some secret => .ok ⟨secret, padding.getD Backup.Domain.defaultPadding⟩

/-- The settings that a value gives. -/
def ofTree (tree : Tree) : Except LoadError Settings := do
  let domain ←
    match tree.field? "export" with
    | none => pure none
    | some value => (domainOf value).map some
  let poolKey ← textField? "pool_key" "pool_key" tree
  match domain with
  | none => .error (.missing "export")
  | some domain => .ok ⟨poolKey.getD defaultPoolKey, domain⟩

/-- The settings that the sources give. -/
def load (s : Sources) : Except LoadError Settings :=
  match collect s with
  | .error (name, e) => .error (.file name e)
  | .ok tree => ofTree tree

end Keyring.Settings
