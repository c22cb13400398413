import Keyring.Pool.Context
import Keyring.Pool.Wallet
import Keyring.Settings.Basic

/-!
# `Keyring.Pool.Operations`: wallets in a store

The pool is one text under one key of the store. The first wallet is the
active one. No two wallets of a pool share public key and address: to add a
wallet that is there already changes nothing. Wallets are added at the end or
removed, and never altered.
-/

set_option autoImplicit false

namespace Keyring.Pool

variable {σ : Type} [Store σ]

/-- The wallets, oldest first; none if nothing is stored. -/
def list (s : Settings) : Action σ (List Wallet) := do
  match ← call (Store.get s.poolKey) with
  | none => return []
  | some text =>
    match Wallet.parsePool text with
    | .ok pool => return pool
    | .error f => throw (.corrupt f)

/-- Stores the wallets. -/
def save (s : Settings) (pool : List Wallet) : Action σ Unit :=
  call (Store.put s.poolKey (Wallet.poolText pool))

/-- The oldest wallet. -/
def active (s : Settings) : Action σ (Option Wallet) := do return (← list s).head?

/-- What came of adding a wallet. -/
inductive Added where
  | added (w : Wallet)
  | duplicate
  deriving DecidableEq, Repr

/-- The wording of an outcome. -/
def Added.message : Added → String
  | .added _ => "Wallet added"
  | .duplicate => "Wallet already exists"

/-- The wallet that was added. -/
def Added.wallet? : Added → Option Wallet
  | .added w => some w
  | .duplicate => none

/-- Encrypts a pair under a password and adds it unless it is there already. -/
def add (s : Settings) (pair : KeyPair) (password : String) : Action σ Added := do
  let pool ← list s
  if pool.any fun w => w.isOf pair.publicHex pair.address then return .duplicate
  else
    let key ← draw fun e => SealedKey.encrypt e pair.secret.hex password
    let w : Wallet := ⟨pair.address, pair.publicHex, key, (← get).now⟩
    save s (pool ++ [w])
    return .added w

/-- Removes the whole pool. -/
def clear (s : Settings) : Action σ Unit := call (Store.delete s.poolKey)

/-- The public key and the address of the key that a backup holds. -/
def identity? (s : Settings) (backup : String) : Option (String × String) := do
  let text ← Backup.import? s.domain backup
  let pair ← (KeyPair.ofHex text).toOption
  return (pair.publicHex, pair.address)

/-- The wallet that a backup belongs to. -/
def find (s : Settings) (backup : String) : Action σ (Option Wallet) := do
  match identity? s backup with
  | none => return none
  | some (publicHex, address) => return (← list s).find? fun w => w.isOf publicHex address

/-- Removes the wallets that `drop` picks. Was there one? -/
def removeWhere (s : Settings) (drop : Wallet → Bool) : Action σ Bool := do
  let pool ← list s
  let kept := pool.filter fun w => !drop w
  if kept.length = pool.length then return false
  else
    save s kept
    return true

/-- Deletes what is stored under the backup itself, and removes the wallet that the
backup belongs to. Was there one? -/
def removeByKey (s : Settings) (backup : String) : Action σ Bool := do
  call (Store.delete backup)
  match identity? s backup with
  | none => return false
  | some (publicHex, address) => removeWhere s fun w => w.isOf publicHex address

/-- Removes the wallets of an address. Was there one? -/
def removeByAddress (s : Settings) (address : String) : Action σ Bool :=
  removeWhere s fun w => w.address == address

/-- The pair of the first wallet of an address; nothing if there is none or the
password is wrong. -/
def unlock (s : Settings) (address password : String) : Action σ (Option KeyPair) := do
  match (← list s).find? fun w => w.address == address with
  | none => return none
  | some w =>
    match w.decrypt? password with
    | none => return none
    | some text =>
      match KeyPair.ofHex text with
      | .ok pair => return some pair
      | .error e => throw (.key e)

end Keyring.Pool
