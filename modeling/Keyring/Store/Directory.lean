import Keyring.Bytes.Hex
import Keyring.Hash.Sha256
import Keyring.Store.Files

/-!
# `Keyring.Store.Directory`: a store in a directory

Each key has a file of its own, named by the digest of the key, since keys may
hold any characters. A text is written to a draft first that then takes the
file's place, so no reader meets half a text.
-/

set_option autoImplicit false

namespace Keyring

/-- A store that keeps its entries in a directory. -/
structure Directory where
  files : Files
  place : Path
  deriving DecidableEq, Repr

namespace Directory

/-- The digits that stand for a key. -/
def keyName (key : String) : String := Hex.encode (Sha256.digest (Bytes.ofText key))

/-- The file of a key. -/
def fileOf (d : Directory) (key : String) : Path := d.place ++ [keyName key ++ ".json"]

/-- The draft of a key. -/
def draftOf (d : Directory) (key : String) : Path := d.place ++ [keyName key ++ ".json.tmp"]

/-- Opens a directory, which is made if it is missing, and gives the tree after that. -/
def openAt (files : Files) (place : String) : Except StoreError Directory × Files :=
  if place.toList.contains '\x00' then (.error (.io .nulInName), files)
  -- All of the text counts, also the slashes and dots that say nothing.
  else if Files.maxPath < place.utf8ByteSize + 1 then (.error (.io .nameTooLong), files)
  else
    match files.makeDirectories (Files.path place) with
    -- A dot at the end has done its work by now: the directory is there.
    | (.ok (), files) => (.ok ⟨files, (Files.path place).filter (· ≠ ".")⟩, files)
    | (.error e, files) => (.error (.io e), files)

/-- The text of a key. -/
def get (key : String) (d : Directory) : Except StoreError (Option String) :=
  match d.files.read (d.fileOf key) with
  | .error .notFound => .ok none
  | .error e => .error (.io e)
  | .ok bytes =>
    match Bytes.toText? bytes with
    | some text => .ok (some text)
    | none => .error .notText

/-- Writes the text of a key. A draft that cannot take its place stays. -/
def put (key value : String) (d : Directory) : Except StoreError Unit × Directory :=
  match d.files.write (d.draftOf key) (Bytes.ofText value) with
  | .error e => (.error (.io e), d)
  | .ok files =>
    -- From here on the draft is on disk, also if it cannot take the file's place.
    match files.rename (d.draftOf key) (d.fileOf key) with
    | .error e => (.error (.io e), { d with files })
    | .ok files => (.ok (), { d with files })

/-- Removes the file of a key. -/
def delete (key : String) (d : Directory) : Except StoreError Unit × Directory :=
  match d.files.remove (d.fileOf key) with
  | .error .notFound => (.ok (), d)
  | .error e => (.error (.io e), d)
  | .ok files => (.ok (), { d with files })

instance : Store Directory where
  get key d := (d.get key, d)
  put := put
  delete := delete

end Directory
end Keyring
