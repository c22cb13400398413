/-!
# `Keyring.Store.Basic`: stores of texts

A store keeps texts under keys. Each operation returns its result and the
store after it, so a store may fail and may change while it fails.
-/

set_option autoImplicit false

namespace Keyring

/-- Why a call to a store or a file system failed. -/
inductive IoError where
  | notFound
  | alreadyExists
  | notDirectory
  | isDirectory
  | nameTooLong
  | nulInName
  | diskFull
  deriving DecidableEq, Repr

/-- The wording of a failed call. -/
def IoError.message : IoError → String
  | .notFound => "No such file or directory (os error 2)"
  | .alreadyExists => "File exists (os error 17)"
  | .notDirectory => "Not a directory (os error 20)"
  | .isDirectory => "Is a directory (os error 21)"
  | .nameTooLong => "File name too long (os error 36)"
  | .nulInName => "file name contained an unexpected NUL byte"
  | .diskFull => "disk full"

/-- Why a store has no answer. -/
inductive StoreError where
  | io (e : IoError)
  | notText
  deriving DecidableEq, Repr

/-- The wording of an error. -/
def StoreError.message : StoreError → String
  | .io e => "IO error: " ++ e.message
  | .notText => "stored value is not valid UTF-8"

/-- A store of texts under keys. To delete a key that is not there is no error. -/
class Store (σ : Type) where
  get (key : String) (store : σ) : Except StoreError (Option String) × σ
  put (key value : String) (store : σ) : Except StoreError Unit × σ
  delete (key : String) (store : σ) : Except StoreError Unit × σ

end Keyring
