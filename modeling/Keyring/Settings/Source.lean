import Keyring.Json.Reader
import Keyring.Settings.KeyPath
import Keyring.Text.Split
import Keyring.Toml.Document

/-!
# `Keyring.Settings.Source`: where settings come from

Settings come from two files, `default` and `local`, and from variables of the
environment; a later source is laid over the earlier ones. A file is JSON or
TOML by the ending of its name and may be missing. A variable counts if its
name starts with `wallet_vault_` in letters of any case; two underscores in
the rest of the name lead into a table.
-/

set_option autoImplicit false

namespace Keyring.Settings

/-- The texts that settings are read from. -/
structure Sources where
  /-- The names of files and what they hold. -/
  files : List (String × String)
  /-- The variables of the environment. -/
  environment : List (String × String)

/-- Why a file gives no settings. -/
inductive FileError where
  | json (f : Json.Fault)
  /-- A fault in this text. -/
  | toml (text : String) (f : Toml.Fault)
  /-- The file holds a scalar. -/
  | scalar (x : Scalar)
  /-- The file holds a list. -/
  | list
  deriving DecidableEq, Repr

/-- The folder of the files. -/
def folder : String := "config/"

/-- The wording of an error in the file of a name. -/
def FileError.message (name : String) (e : FileError) : String :=
  (match e with
    | .json f => f.message
    | .toml text f => f.message text
    | .scalar x => rootless (x.describe "64-bit integer" .bare)
    | .list => rootless "sequence") ++ " in " ++ folder ++ name
where
  /-- The wording for a value that is no table. -/
  rootless (found : String) : String :=
    "invalid type: " ++ found ++ ", expected a map in " ++ folder ++ name

/-! ### Files -/

namespace Tree

mutual

/-- A TOML value from a source. Dates and times are texts. -/
def ofToml (origin : String) : Toml.Plain → Tree
  | .text s | .moment s => .scalar origin (.text s)
  | .int n => .scalar origin (.int n)
  | .float x => .scalar origin (.float x)
  | .bool b => .scalar origin (.bool b)
  | .list items => .list origin (ofTomlItems origin items)
  | .table fields => .table origin (ofTomlFields origin fields)

/-- TOML values from a source. -/
def ofTomlItems (origin : String) : List Toml.Plain → List Tree
  | [] => []
  | item :: rest => ofToml origin item :: ofTomlItems origin rest

/-- TOML fields from a source. -/
def ofTomlFields (origin : String) : List (String × Toml.Plain) → Fields
  | [] => []
  | (name, value) :: rest => (name, ofToml origin value) :: ofTomlFields origin rest

end

end Tree

/-- The fields of the value that a file gives. -/
def rootFields : Tree → Except FileError Tree.Fields
  | .table _ fields => .ok fields
  | .list .. => .error .list
  | .scalar _ x => .error (.scalar x)

/-- The fields that a JSON file gives. -/
def readJson (name text : String) : Except FileError Tree.Fields :=
  match Json.parse text with
  | .error f => .error (.json f)
  | .ok value => rootFields (.ofJson (folder ++ name) value)

/-- The fields that a TOML file gives. -/
def readToml (name text : String) : Except FileError Tree.Fields :=
  match Toml.parse text with
  | .error f => .error (.toml text f)
  | .ok value => rootFields (.ofToml (folder ++ name) value)

/-- The fields of the file of a base name, or the name of the file and its error. A file
without an ending hides those with one. -/
def readFile (s : Sources) (base : String) : Except (String × FileError) Tree.Fields :=
  let read (name : String) (f : String → String → Except FileError Tree.Fields) :
      Option (Except (String × FileError) Tree.Fields) :=
    (s.files.lookup name).map fun text => (f name text).mapError fun e => (name, e)
  if (s.files.lookup base).isSome then .ok []
  else ((read (base ++ ".json") readJson) <|> (read (base ++ ".toml") readToml)).getD (.ok [])

/-! ### Variables -/

/-- How the names of variables start. -/
def variableStart : String := "wallet_vault_"

/-- Writes a point for each two underscores. -/
def pointed : List Char → List Char
  | '_' :: '_' :: rest => '.' :: pointed rest
  | c :: rest => c :: pointed rest
  | [] => []

/-- The name of a setting that a variable sets. -/
def settingOf? (variableName : String) : Option String :=
  (Text.dropStart? variableStart.toList (foldName variableName).toList).map fun rest =>
    String.ofList (pointed rest)

/-- The fields that variables give. Of two variables for one setting the later one counts. -/
def readVariables (s : Sources) : Tree.Fields :=
  s.environment.foldl (fun fields (name, text) =>
    match settingOf? name with
    | none => fields
    | some setting =>
      fields.filter (fun field => field.1 != setting) ++
        [(setting, .scalar (some "the environment") (.text text))]) []

/-! ### Laying sources over each other -/

/-- Lays the fields of a source over a value. -/
def Tree.lay (fields : Tree.Fields) (old : Tree) : Tree :=
  fields.foldl (fun tree (name, value) => Tree.set value (KeyPath.ofText name) tree) old

/-- All sources laid over each other. -/
def collect (s : Sources) : Except (String × FileError) Tree := do
  let base ← readFile s "default"
  let overrides ← readFile s "local"
  .ok ((((Tree.table none []).lay base).lay overrides).lay (readVariables s))

end Keyring.Settings
