import Keyring.Pool.Operations
import Keyring.Session.Request

/-!
# `Keyring.Session.World`: what a session works with

A session has a pool's context, a ledger that accepts or refuses what is sent
to it, and a list of the stages that were reported. The ledger keeps all that
it was sent, also what it refused.
-/

set_option autoImplicit false

namespace Keyring

/-- Why a session's action failed. -/
inductive SessionError where
  | key (e : KeyError)
  | sign (e : SignError)
  | pool (e : PoolError)
  | wrongPassword
  | badBackup
  | duplicate
  | noWallet
  /-- The ledger refused, with this text. -/
  | refused (text : String)
  deriving DecidableEq, Repr

/-- The wording of an error. -/
def SessionError.message : SessionError → String
  | .key e => e.message
  | .sign e => e.message
  | .pool e => e.message
  | .wrongPassword => "Incorrect password"
  | .badBackup => "Invalid or foreign export key"
  | .duplicate => "Wallet already exists"
  | .noWallet => "No wallet connected"
  | .refused text => "Ledger rejected request: " ++ text

namespace Session

/-- The stages of making or importing a wallet. -/
inductive Stage where
  | generatingKeys
  | decodingBackup
  | encryptingWallet
  | signingProof
  | submitting
  | rollingBack
  | done
  deriving DecidableEq, Repr

/-- The number of a stage. -/
def Stage.number : Stage → Nat
  | .generatingKeys | .decodingBackup => 1
  | .encryptingWallet => 2
  | .signingProof => 3
  | .submitting => 4
  | .rollingBack => 5
  | .done => 6

/-- The name of a stage. -/
def Stage.name : Stage → String
  | .generatingKeys => "GeneratingKeys"
  | .decodingBackup => "DecodingBackup"
  | .encryptingWallet => "EncryptingWallet"
  | .signingProof => "SigningProof"
  | .submitting => "Submitting"
  | .rollingBack => "RollingBack"
  | .done => "Done"

/-- What a ledger is sent. -/
inductive Message where
  | connect (request : Signed Proof)
  | submit (request : Signed Json)

/-- A ledger: the texts with which it refuses, and what it was sent, oldest first. A flow sends one
message at most, so one answer of each kind says all that a ledger can answer within a flow,
whatever the answer may depend on. Over several flows the answers may change: each step of a run
begins with a ledger of its own. -/
structure Ledger where
  /-- The text with which a proof of connection is refused; none if it is accepted. -/
  refuseConnect : Option String
  /-- The text with which a submission is refused; none if it is accepted. -/
  refuseSubmit : Option String
  received : List Message

/-- A ledger that accepts all. -/
def Ledger.accepting : Ledger := ⟨none, none, []⟩

/-- The text with which a ledger refuses a message. -/
def Ledger.refusal? (ledger : Ledger) : Message → Option String
  | .connect _ => ledger.refuseConnect
  | .submit _ => ledger.refuseSubmit

/-- A pool's context, a ledger, and the stages that were reported, oldest first. -/
structure World (σ : Type) where
  context : Pool.Context σ
  ledger : Ledger
  stages : List Stage

/-- A step that may change the world and may fail; a failure keeps the changes. -/
abbrev Action (σ α : Type) := ExceptT SessionError (StateM (World σ)) α

variable {σ : Type}

/-- What an action on the pool comes to. -/
def attempt {α : Type} (act : Pool.Action σ α) : Action σ (Except PoolError α) :=
  modifyGet fun w => let r := act.run w.context; (r.1, { w with context := r.2 })

/-- An action on the pool. -/
def onPool {α : Type} (act : Pool.Action σ α) : Action σ α := do
  match ← attempt act with
  | .ok x => return x
  | .error e => throw (.pool e)

/-- A draw from the source. -/
def draw {α : Type} (f : Entropy → α × Entropy) : Action σ α := onPool (Pool.draw f)

/-- Reports a stage. -/
def report (stage : Stage) : Action σ Unit :=
  modify fun w => { w with stages := w.stages ++ [stage] }

/-- Sends a message to the ledger and gives its refusal, if it refuses. -/
def send (message : Message) : Action σ (Option String) :=
  modifyGet fun w =>
    (w.ledger.refusal? message,
      { w with ledger := { w.ledger with received := w.ledger.received ++ [message] } })

end Session
end Keyring
