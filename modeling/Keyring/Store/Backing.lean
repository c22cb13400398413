import Keyring.Store.Directory
import Keyring.Store.Memory

/-!
# `Keyring.Store.Backing`: in memory or in a directory

Where a session keeps its texts: in memory, beside a tree of files that it
does not use yet, or in a directory of that tree.
-/

set_option autoImplicit false

namespace Keyring

/-- A store in memory or in a directory. -/
inductive Backing where
  | memory (entries : Memory) (files : Files)
  | directory (d : Directory)
  deriving DecidableEq, Repr

namespace Backing

/-- The tree of files. -/
def files : Backing → Files
  | .memory _ files => files
  | .directory d => d.files

/-- The store with another tree of files. -/
def withFiles (files : Files) : Backing → Backing
  | .memory entries _ => .memory entries files
  | .directory d => .directory { d with files }

/-- Opens a directory of the tree; where that fails, the store stays the one it was. -/
def openAt (place : String) (b : Backing) : Except StoreError Unit × Backing :=
  match Directory.openAt b.files place with
  | (.ok d, _) => (.ok (), .directory d)
  | (.error e, files) => (.error e, b.withFiles files)

instance : Store Backing where
  get key
    | .memory entries files =>
      let (result, entries) := Store.get key entries
      (result, .memory entries files)
    | .directory d => let (result, d) := Store.get key d; (result, .directory d)
  put key value
    | .memory entries files =>
      let (result, entries) := Store.put key value entries
      (result, .memory entries files)
    | .directory d => let (result, d) := Store.put key value d; (result, .directory d)
  delete key
    | .memory entries files =>
      let (result, entries) := Store.delete key entries
      (result, .memory entries files)
    | .directory d => let (result, d) := Store.delete key d; (result, .directory d)

end Backing
end Keyring
