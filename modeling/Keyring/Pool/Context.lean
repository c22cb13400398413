import Keyring.Entropy
import Keyring.Key.Secret
import Keyring.Json.Fault
import Keyring.Store.Basic
import Keyring.Time.Instant

/-!
# `Keyring.Pool.Context`: what a pool works with

A pool is kept in a store; to add to it takes a source of bytes and a clock.
An action on a pool may change the store and use up bytes, also when it fails.
-/

set_option autoImplicit false

namespace Keyring

/-- Why an action on a pool failed. -/
inductive PoolError where
  | store (e : StoreError)
  /-- The text that is kept is no pool. -/
  | corrupt (f : Json.Fault)
  | key (e : KeyError)
  deriving DecidableEq, Repr

/-- The wording of an error. -/
def PoolError.message : PoolError → String
  | .store e => "persistence error: " ++ e.message
  | .corrupt f => "wallet pool is corrupt: " ++ f.message
  | .key e => e.message

namespace Pool

/-- A store, a source of bytes, and the time. One reading of the clock serves a whole action.
The two places that read it are the `createdAt` of a new entry and the `timestamp` of a
message to the ledger. No branch depends on either and nothing compares them, so an action
with a second, later reading differs in that message alone. -/
structure Context (σ : Type) where
  store : σ
  entropy : Entropy
  now : ClockTime
  deriving DecidableEq, Repr

/-- A step that may change the context and may fail; a failure keeps the changes. -/
abbrev Action (σ α : Type) := ExceptT PoolError (StateM (Context σ)) α

/-- A call to the store. -/
def call {σ α : Type} (f : σ → Except StoreError α × σ) : Action σ α := do
  match ← modifyGet fun c => let r := f c.store; (r.1, { c with store := r.2 }) with
  | .ok x => return x
  | .error e => throw (.store e)

/-- A draw from the source. -/
def draw {σ α : Type} (f : Entropy → α × Entropy) : Action σ α :=
  modifyGet fun c => let r := f c.entropy; (r.1, { c with entropy := r.2 })

end Pool
end Keyring
