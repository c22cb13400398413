import Keyring.Session.World

/-!
# `Keyring.Session.Flow`: making, importing and using a wallet

A wallet that is made or imported is stored first and connected then. If the
ledger refuses it, it is removed from the pool again; whether that succeeds or
not, the refusal is what the caller gets. All other flows use the active
wallet under its password.
-/

set_option autoImplicit false

namespace Keyring.Session

variable {σ : Type} [Store σ]

/-- A wallet that the ledger accepted, and a backup of its key. -/
structure Connected where
  wallet : Wallet
  backup : String
  deriving DecidableEq, Repr

/-! ### Parts -/

/-- A fresh proof of a pair, signed. -/
def proofRequest (pair : KeyPair) : Action σ (Signed Proof) := do
  let nonce ← draw fun e => e.draw Proof.nonceLength
  let proof := Proof.make pair nonce (← get).context.now
  match Signing.signPayload pair.secret proof.toPayload with
  | .ok signature => return ⟨proof, signature⟩
  | .error e => throw (.sign e)

/-- A fresh backup of a pair's key. -/
def backup (s : Settings) (pair : KeyPair) : Action σ String :=
  draw fun e => Backup.exportText s.domain e pair.secret.hex

/-- Removes a wallet that was just stored. That this fails is passed over. -/
def rollBack (s : Settings) (w : Wallet) : Action σ Unit := do
  report .rollingBack
  let _ ← attempt (Pool.removeByAddress s w.address)

/-- Stores a pair and connects it. -/
def storeAndConnect (s : Settings) (pair : KeyPair) (password : String) :
    Action σ Connected := do
  report .encryptingWallet
  match ← onPool (Pool.add s pair password) with
  | .duplicate => throw .duplicate
  | .added w =>
    report .signingProof
    -- The wallet is in the pool by now, so every way out takes it back or keeps it.
    let request ← tryCatch (proofRequest pair) fun e => do
      rollBack s w
      throw e
    report .submitting
    match ← send (.connect request) with
    | some text =>
      rollBack s w
      throw (.refused text)
    | none =>
      let backup ← backup s pair
      report .done
      return ⟨w, backup⟩

/-- The active wallet and its pair. -/
def unlockActive (s : Settings) (password : String) : Action σ (Wallet × KeyPair) := do
  match ← onPool (Pool.active s) with
  | none => throw .noWallet
  | some w =>
    match w.decrypt? password with
    | none => throw .wrongPassword
    | some text =>
      match KeyPair.ofHex text with
      | .ok pair => return (w, pair)
      | .error e => throw (.key e)

/-! ### Flows -/

/-- Makes a fresh wallet, stores it and connects it. -/
def createWallet (s : Settings) (password : String) : Action σ Connected := do
  report .generatingKeys
  let pair ← draw KeyPair.fresh
  storeAndConnect s pair password

/-- Restores a wallet from a backup, stores it and connects it. -/
def importWallet (s : Settings) (backup password : String) : Action σ Connected := do
  report .decodingBackup
  match Backup.import? s.domain backup with
  | none => throw .badBackup
  | some text =>
    match KeyPair.ofHex text with
    | .ok pair => storeAndConnect s pair password
    | .error e => throw (.key e)

/-- Connects the active wallet anew. -/
def reauthenticate (s : Settings) (password : String) : Action σ Wallet := do
  let (w, pair) ← unlockActive s password
  let request ← proofRequest pair
  match ← send (.connect request) with
  | some text => throw (.refused text)
  | none => return w

/-- Signs a payload with the active wallet and sends it. -/
def submit (s : Settings) (password : String) (payload : Payload) : Action σ (Signed Json) := do
  let (_, pair) ← unlockActive s password
  match payload.toJson with
  | .error e => throw (.sign (.payload e))
  | .ok data =>
    match Signing.signPayload pair.secret (.ofJson data) with
    | .error e => throw (.sign e)
    | .ok signature =>
      match ← send (.submit ⟨data, signature⟩) with
      | some text => throw (.refused text)
      | none => return ⟨data, signature⟩

/-- A fresh backup of the active wallet's key. -/
def exportActive (s : Settings) (password : String) : Action σ String := do
  let (_, pair) ← unlockActive s password
  backup s pair

/-- Forgets all wallets. -/
def disconnect (s : Settings) : Action σ Unit := onPool (Pool.clear s)

end Keyring.Session
