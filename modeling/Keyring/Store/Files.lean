import Keyring.Bytes.Basic
import Keyring.Entries
import Keyring.Store.Basic

/-!
# `Keyring.Store.Files`: a tree of files

The tree is held as the paths below its root, ascending, each with a file's
bytes or as a directory. Every call walks its path from the root: a missing
part, or a file where a directory is needed, ends the walk with the error
that says so. A path that is too long is not walked at all. The root is a
directory always.
-/

set_option autoImplicit false

namespace Keyring

/-- A path from the root: the names on the way. -/
abbrev Path := List String

/-- What a path leads to. -/
inductive Entry where
  | file (bytes : Bytes)
  | directory
  deriving DecidableEq, Repr

/-- A tree of files. -/
structure Files where
  entries : List (Path × Entry)
  deriving DecidableEq, Repr

namespace Files

/-- The tree that holds nothing. -/
def empty : Files := ⟨[]⟩

/-- What stands at a path. -/
def entry? (files : Files) (path : Path) : Option Entry :=
  if path.isEmpty then some .directory else files.entries.lookup path

/-- The tree with an entry at a path. -/
def insert (files : Files) (path : Path) (entry : Entry) : Files :=
  ⟨Entries.insert path entry files.entries⟩

/-- The tree without the entry at a path. -/
def erase (files : Files) (path : Path) : Files :=
  ⟨files.entries.filter fun other => other.1 ≠ path⟩

/-- The tree without the entry at a path and all below it. -/
def eraseAll (files : Files) (path : Path) : Files :=
  ⟨files.entries.filter fun other => !path.isPrefixOf other.1⟩

/-! ### Walking -/

/-- The longest name, in bytes. -/
def maxName : Nat := 255

/-- The path that names lead to from `here`. Each of them is looked up in a directory;
what stands at the end may be anything or nothing. -/
def walk (files : Files) : (here : Path) → (names : List String) → Except IoError Path
  | here, [] => .ok here
  | here, name :: rest =>
    match files.entry? here with
    | none => .error .notFound
    | some (.file _) => .error .notDirectory
    | some .directory =>
      -- The dot and the two dots are in every directory.
      if name = "." then walk files here rest
      else if name = ".." then walk files here.dropLast rest
      else if maxName < name.utf8ByteSize then .error .nameTooLong
      else walk files (here ++ [name]) rest

/-- The longest path below the root, in bytes: a full path has at most 4095, and the root
takes the first 15 of them. -/
def maxPath : Nat := 4080

/-- The size of a path below the root, each name with the slash before it. -/
def pathSize (path : Path) : Nat := path.foldr (fun name size => name.utf8ByteSize + 1 + size) 0

/-- The path that names lead to from the root. -/
def resolve (files : Files) (path : Path) : Except IoError Path :=
  if maxPath < pathSize path then .error .nameTooLong else files.walk [] path

/-- Is there a directory at the path? -/
def isDirectory (files : Files) (path : Path) : Bool :=
  match files.resolve path with
  | .ok place => files.entry? place == some .directory
  | .error _ => false

/-! ### Calls -/

/-- The bytes of a file. -/
def read (files : Files) (path : Path) : Except IoError Bytes := do
  match files.entry? (← files.resolve path) with
  | none => .error .notFound
  | some .directory => .error .isDirectory
  | some (.file bytes) => .ok bytes

/-- Writes a file, new or not. -/
def write (files : Files) (path : Path) (bytes : Bytes) : Except IoError Files := do
  let place ← files.resolve path
  if files.entry? place = some .directory then .error .isDirectory
  else .ok (files.insert place (.file bytes))

/-- Removes a file. -/
def remove (files : Files) (path : Path) : Except IoError Files := do
  let place ← files.resolve path
  match files.entry? place with
  | none => .error .notFound
  | some .directory => .error .isDirectory
  | some (.file _) => .ok (files.erase place)

/-- Moves a file to a place where no directory stands. -/
def rename (files : Files) (source target : Path) : Except IoError Files := do
  let bytes ← files.read source
  let place ← files.resolve target
  if files.entry? place = some .directory then .error .isDirectory
  else .ok ((files.erase (← files.resolve source)).insert place (.file bytes))

/-- Makes a directory where nothing stands. -/
def makeDirectory (files : Files) (path : Path) : Except IoError Files := do
  let place ← files.resolve path
  match files.entry? place with
  | some (.file _) => .error (if path.getLast? = some "." then .notDirectory else .alreadyExists)
  | some .directory => .error .alreadyExists
  | none =>
    if path.getLast? = some "." then .error .notFound
    else .ok (files.insert place .directory)

/-- The names on the way to the directory that holds a path. -/
def parent (path : Path) : Path :=
  (if path.getLast? = some "." then path.dropLast else path).dropLast

/-- The directory of a path is shorter than the path, unless that is the root. The recursion
over parents ends because of it. -/
theorem parent_length (path : Path) : (parent path).length ≤ path.length - 1 := by
  unfold parent
  split <;> simp only [List.length_dropLast] <;> omega

/-- Makes the last directory of a path; one that is there already will do. -/
def ensureDirectory (files : Files) (path : Path) : Except IoError Unit × Files :=
  match files.makeDirectory path with
  | .ok files => (.ok (), files)
  | .error e =>
    (if e = .alreadyExists ∧ files.isDirectory path then .ok () else .error e, files)

/-- Makes a directory and those above it that are missing. Where that fails, the
directories made so far stay. -/
def makeDirectories (files : Files) (path : Path) : Except IoError Unit × Files :=
  match files.ensureDirectory path with
  -- Something above is missing: make that first.
  | (.error .notFound, files) =>
    if path.isEmpty then (.ok (), files)
    else
      match makeDirectories files (parent path) with
      | (.error e, files) => (.error e, files)
      | (.ok (), files) => files.ensureDirectory path
  | result => result
termination_by path.length
decreasing_by
  have := parent_length path
  have : path.length ≠ 0 := by simp_all
  omega

/-! ### Paths as texts -/

/-- The pieces of a text between slashes. -/
def pieces (text : String) : List String := (go text.toList).map String.ofList
where
  go : List Char → List (List Char)
    | [] => [[]]
    | c :: rest =>
      if c = '/' then [] :: go rest
      else
        match go rest with
        | [] => [[c]]
        | piece :: more => (c :: piece) :: more

/-- The path that a text spells: a dot counts at its end only. -/
def path (text : String) : Path :=
  let names := (pieces text).filter (· ≠ "")
  match names.getLast? with
  | some "." => names.filter (· ≠ ".") ++ ["."]
  | _ => names.filter (· ≠ ".")

/-- Does a piece say nothing at the ends of a path? -/
def isSilent (piece : String) : Bool := piece == "" || piece == "."

/-- The text of a path without the silent pieces at its ends. -/
def trimmed (text : String) : String :=
  let middle := (((pieces text).dropWhile isSilent).reverse.dropWhile isSilent).reverse
  "/".intercalate middle

end Files
end Keyring
