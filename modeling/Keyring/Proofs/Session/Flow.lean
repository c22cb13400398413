import Keyring.Proofs.Pool.Operations
import Keyring.Session.Flow

/-!
# `Keyring.Proofs.Session.Flow`: what the parts of a flow come to

The steps that flows are made of, each with what it runs to.

* `keeps_reauthenticate`, `keeps_submit`, `keeps_exportActive`: the flows that
  only read the pool.
* `storeAndConnect_cases`: everything that storing and connecting a wallet can
  come to. The pool is read and written once for the new wallet, and once more
  if it is taken back, so the outcome depends on the first two answers to each
  kind of call.
* `run_flow`, `run_flow_cases`: making and importing a wallet differ in where the key comes
  from (`Origin`) and end in the same steps.
-/

set_option autoImplicit false

namespace Keyring.Session

open Pool (refused built Present)

section Steps
variable {σ α : Type} {w : World σ}

/-- The world with another context. -/
def World.withContext (w : World σ) (context : Pool.Context σ) : World σ := { w with context }

/-- The world after a stage was reported. -/
def World.afterReport (w : World σ) (stage : Stage) : World σ :=
  { w with stages := w.stages ++ [stage] }

/-- The world after a message was sent. -/
def World.afterSend (w : World σ) (message : Message) : World σ :=
  { w with ledger := { w.ledger with received := w.ledger.received ++ [message] } }

/-- A stage is reported and nothing else is done. The list of stages is what an observer of
the session sees. -/
theorem run_report (w : World σ) (stage : Stage) :
    (report stage : Action σ Unit).run w = (.ok (), w.afterReport stage) :=
  rfl

/-- A message is sent, and the ledger answers by its kind. The ledger's answer is a refusal
or none, and the message is recorded in both cases. -/
theorem run_send (w : World σ) (message : Message) :
    (send message : Action σ (Option String)).run w
      = (.ok (w.ledger.refusal? message), w.afterSend message) :=
  rfl

/-- An action on the pool that is attempted does not fail: its error is given as its value. -/
theorem run_attempt (act : Pool.Action σ α) (w : World σ) :
    (attempt act).run w
      = (.ok (act.run w.context).1, w.withContext (act.run w.context).2) :=
  rfl

/-- What an action on the pool comes to: its errors are told as those of the session. -/
theorem run_onPool (act : Pool.Action σ α) (w : World σ) :
    (onPool act).run w
      = ((act.run w.context).1.mapError .pool, w.withContext (act.run w.context).2) := by
  rw [onPool, run_bind, run_attempt]
  obtain ⟨result, c⟩ := act.run w.context
  cases result <;> rfl

/-- An action on the pool that succeeds does so in the session. The ledger and the stages are
as before. -/
theorem run_onPool_ok {act : Pool.Action σ α} {x : α} {c : Pool.Context σ}
    (h : act.run w.context = (.ok x, c)) :
    (onPool act).run w = (.ok x, w.withContext c) := by
  rw [run_onPool, h]
  rfl

/-- An action on the pool that fails does so in the session, with its error told as one of
the pool. -/
theorem run_onPool_error {act : Pool.Action σ α} {e : PoolError} {c : Pool.Context σ}
    (h : act.run w.context = (.error e, c)) :
    (onPool act).run w = (.error (.pool e), w.withContext c) := by
  rw [run_onPool, h]
  rfl

/-- The world after a draw that left this source. -/
def World.withEntropy (w : World σ) (entropy : Entropy) : World σ :=
  w.withContext { w.context with entropy }

/-- A draw takes from the source of the pool's context and leaves the rest of it there. -/
theorem run_draw (f : Entropy → α × Entropy) (w : World σ) :
    (draw f).run w = (.ok (f w.context.entropy).1, w.withEntropy (f w.context.entropy).2) :=
  rfl

/-- The proof that a world makes of a pair. -/
def World.proof (w : World σ) (pair : KeyPair) : Proof :=
  Proof.make pair (w.context.entropy.draw Proof.nonceLength).1 w.context.now

/-- The world after the fresh number of a proof was drawn. -/
def World.afterNonce (w : World σ) : World σ :=
  w.withEntropy (w.context.entropy.draw Proof.nonceLength).2

/-- A proof is made and signed, or it has no signature. Its nonce is drawn either way. -/
theorem run_proofRequest (pair : KeyPair) (w : World σ) :
    (proofRequest pair).run w
      = (match Signing.signPayload pair.secret (w.proof pair).toPayload with
          | .ok signature => .ok ⟨w.proof pair, signature⟩
          | .error e => .error (.sign e), w.afterNonce) := by
  rw [proofRequest, run_bind_ok (run_draw _ w), run_bind_ok (run_get _)]
  show (match Signing.signPayload pair.secret (w.proof pair).toPayload with
    | .ok signature => (pure ⟨w.proof pair, signature⟩ : Action σ (Signed Proof))
    | .error e => throw (SessionError.sign e)).run w.afterNonce = _
  cases Signing.signPayload pair.secret (w.proof pair).toPayload <;> rfl

/-- A backup is an export of the private key with a vector that is drawn. -/
theorem run_backup (s : Settings) (pair : KeyPair) (w : World σ) :
    (backup s pair).run w
      = (.ok (Backup.exportText s.domain w.context.entropy pair.secret.hex).1,
          w.withEntropy (Backup.exportText s.domain w.context.entropy pair.secret.hex).2) :=
  rfl

/-- Taking back a wallet is a stage, whatever the store does: what fails in it is not
reported. -/
theorem run_rollBack [Store σ] (s : Settings) (new : Wallet) (w : World σ) :
    (rollBack s new).run w
      = (.ok (), (w.afterReport .rollingBack).withContext
          ((Pool.removeByAddress s new.address).run w.context).2) := by
  rw [rollBack, run_bind_ok (run_report w .rollingBack), run_bind_ok (run_attempt _ _)]
  rfl

end Steps

/-! ### Reading -/

section Reading
variable {σ α : Type} {store : σ}

/-- Does the store below still hold what it held? -/
def Unwritten (store : σ) (w : World (Faulty σ)) : Prop := Pool.Unwritten store w.context

/-- What writes nothing to the pool writes nothing in the session. Errors are told in another
way, but the context is the one that the action leaves. -/
theorem keeps_onPool {act : Pool.Action (Faulty σ) α} (hact : Keeps (Pool.Unwritten store) act) :
    Keeps (Unwritten store) (onPool act) := by
  intro w h
  rw [run_onPool]
  exact hact w.context h

/-- A draw writes nothing. It changes the source of bytes alone. -/
theorem keeps_draw (f : Entropy → α × Entropy) :
    Keeps (Unwritten store) (draw f : Action (Faulty σ) α) :=
  keeps_onPool fun _ h => h

/-- Sending a message writes nothing to the store. It changes the ledger alone. -/
theorem keeps_send (message : Message) :
    Keeps (Unwritten store) (send message : Action (Faulty σ) (Option String)) :=
  fun _ h => h

/-- Making a proof writes nothing to the store. It draws a nonce and reads the clock. -/
theorem keeps_proofRequest (pair : KeyPair) :
    Keeps (Unwritten store) (proofRequest pair : Action (Faulty σ) (Signed Proof)) := by
  intro w h
  rw [run_proofRequest]
  exact h

variable [Store σ] [Store.Sound σ]

/-- Unlocking the active wallet writes nothing, whether or not there is one and the password
opens it. -/
theorem keeps_unlockActive (s : Settings) (password : String) :
    Keeps (Unwritten store) (unlockActive s password) := by
  refine Keeps.bind (keeps_onPool (Pool.keeps_active s)) fun w? => ?_
  split
  · exact keeps_throw _
  · split
    · exact keeps_throw _
    · split
      · exact keeps_pure _
      · exact keeps_throw _

/-- Connecting the active wallet anew writes nothing, also if the ledger refuses. Its four
steps are unlocking, signing, sending and giving the answer, and none of them has a call that
writes. -/
theorem keeps_reauthenticate (s : Settings) (password : String) :
    Keeps (Unwritten store) (reauthenticate s password) := by
  refine Keeps.bind (keeps_unlockActive s password) fun ⟨w, pair⟩ => ?_
  refine Keeps.bind (keeps_proofRequest pair) fun request => ?_
  refine Keeps.bind (keeps_send _) fun refusal? => ?_
  split
  · exact keeps_throw _
  · exact keeps_pure w

/-- Submitting a payload writes nothing, also if the ledger refuses. It signs data of the
caller in place of a proof. The data is brought to its form first, so a number out of range
ends it before the ledger is asked. -/
theorem keeps_submit (s : Settings) (password : String) (payload : Payload) :
    Keeps (Unwritten store) (submit s password payload) := by
  refine Keeps.bind (keeps_unlockActive s password) fun ⟨_, pair⟩ => ?_
  dsimp only
  split
  · exact keeps_throw _
  · split
    · exact keeps_throw _
    · refine Keeps.bind (keeps_send _) fun refusal? => ?_
      split
      · exact keeps_throw _
      · exact keeps_pure _

/-- Exporting the key of the active wallet writes nothing. After the unlocking there is a
draw for the vector of the envelope. -/
theorem keeps_exportActive (s : Settings) (password : String) :
    Keeps (Unwritten store) (exportActive s password) :=
  Keeps.bind (keeps_unlockActive s password) fun _ => keeps_draw _

end Reading

/-! ### Storing and connecting -/

variable {σ : Type} [Store σ] [Store.Sound σ] {s : Settings} {pool : List Wallet}

/-- The pool that a world's store holds. -/
def World.stored (s : Settings) (w : World (Faulty σ)) : Except Json.Fault (List Wallet) :=
  Pool.stored s w.context.store.store

/-- What a pool is after a new wallet at its end was taken back with a store that is about to
answer so: every wallet of its address is gone, if both calls are answered. -/
def takenBack (f : Faulty σ) (pool : List Wallet) (new : Wallet) : List Wallet :=
  if f.gets.answers ∧ f.puts.answers then pool.filter fun v => !(v.address == new.address)
  else pool ++ [new]

/-- A wallet that was just stored is taken back. At least the new wallet goes, so the pool is
written unless the store refuses. -/
theorem rollBack_spec {w : World (Faulty σ)} {new : Wallet}
    (hpool : w.stored s = .ok (pool ++ [new])) :
    ∃ w', (rollBack s new).run w = (.ok (), w') ∧ w'.ledger = w.ledger ∧
      w'.stored s = .ok (takenBack w.context.store pool new) := by
  have hkept : ((pool ++ [new]).filter fun v => !(v.address == new.address))
      = pool.filter fun v => !(v.address == new.address) := by
    rw [List.filter_append, List.filter_cons_of_neg (by simp), List.filter_nil, List.append_nil]
  -- At least the new wallet goes, so the pool is written unless the store refuses.
  have hne : (pool.filter fun v => !(v.address == new.address)) ≠ pool ++ [new] := by
    intro heq
    have hle := List.length_filter_le (fun v => !(v.address == new.address)) pool
    rw [heq, List.length_append, List.length_singleton] at hle
    omega
  obtain ⟨result, c', hrun, houtcome⟩ :=
    Pool.removeWhere_cases (c := w.context) hpool fun v => v.address == new.address
  rw [hkept] at houtcome
  refine ⟨(w.afterReport .rollingBack).withContext c', ?_, rfl, ?_⟩
  · rw [rollBack, run_bind_ok (run_report w .rollingBack), run_bind_ok (run_attempt _ _)]
    show (Except.ok (), _) = _
    rw [show (Pool.removeByAddress s new.address).run (w.afterReport .rollingBack).context
      = (result, c') from hrun]
  · show Pool.stored s c'.store.store = _
    rw [takenBack]
    cases houtcome with
    | unread hget =>
        rw [if_neg (by rw [hget]; simp)]
        exact hpool
    | unchanged _ hsame => exact absurd hsame hne
    | unwritten _ _ hput =>
        rw [if_neg (by rw [hput]; simp)]
        exact hpool
    | removed store hget _ hput hstore =>
        rw [if_pos ⟨hget, hput⟩]
        exact hstore

/-- What a pool is after a new wallet was stored and taken back: the store answered one call of
each kind before. -/
def rolledBack (f : Faulty σ) (pool : List Wallet) (new : Wallet) : List Wallet :=
  takenBack { f with gets := f.gets.next, puts := f.puts.next } pool new

/-- The proof with which a new pair is connected: its number is drawn after the vector that
encrypts the private key. -/
def World.firstProof (w : World σ) (pair : KeyPair) : Proof :=
  Proof.make pair ((w.context.entropy.draw Gcm.ivLength).2.draw Proof.nonceLength).1
    w.context.now

/-- What storing and connecting a pair can come to. -/
inductive ConnectOutcome (s : Settings) (pair : KeyPair) (password : String) (pool : List Wallet)
    (before : World (Faulty σ)) : Except SessionError Connected → World (Faulty σ) → Prop
  | unstored {after : World (Faulty σ)} :
      ((Pool.add s pair password).run before.context).1 = .error refused →
      after.stored s = .ok pool → after.ledger = before.ledger →
      ConnectOutcome s pair password pool before (.error (.pool refused)) after
  | duplicate {after : World (Faulty σ)} :
      ((Pool.add s pair password).run before.context).1 = .ok .duplicate →
      after.stored s = .ok pool → after.ledger = before.ledger →
      ConnectOutcome s pair password pool before (.error .duplicate) after
  | unsigned {after : World (Faulty σ)} {e : SignError} :
      ((Pool.add s pair password).run before.context).1
        = .ok (.added (built pair password before.context)) → ¬Present pair pool →
      Signing.signPayload pair.secret (before.firstProof pair).toPayload = .error e →
      after.stored s = .ok (rolledBack before.context.store pool
        (built pair password before.context)) →
      after.ledger = before.ledger →
      ConnectOutcome s pair password pool before (.error (.sign e)) after
  | rejected {after : World (Faulty σ)} {signature text : String} :
      ((Pool.add s pair password).run before.context).1
        = .ok (.added (built pair password before.context)) → ¬Present pair pool →
      Signing.signPayload pair.secret (before.firstProof pair).toPayload = .ok signature →
      before.ledger.refuseConnect = some text →
      after.stored s = .ok (rolledBack before.context.store pool
        (built pair password before.context)) →
      after.ledger.received
        = before.ledger.received ++ [.connect ⟨before.firstProof pair, signature⟩] →
      ConnectOutcome s pair password pool before (.error (.refused text)) after
  | connected {after : World (Faulty σ)} {signature : String} (backup : String) :
      ((Pool.add s pair password).run before.context).1
        = .ok (.added (built pair password before.context)) → ¬Present pair pool →
      Signing.signPayload pair.secret (before.firstProof pair).toPayload = .ok signature →
      before.ledger.refuseConnect = none →
      after.stored s = .ok (pool ++ [built pair password before.context]) →
      after.ledger.received
        = before.ledger.received ++ [.connect ⟨before.firstProof pair, signature⟩] →
      ConnectOutcome s pair password pool before
        (.ok ⟨built pair password before.context, backup⟩) after

/-- What comes after a new wallet was stored: it is connected or taken back. -/
def connectStored {σ : Type} [Store σ] (s : Settings) (pair : KeyPair) (new : Wallet) :
    Action σ Connected := do
  report .signingProof
  let request ← tryCatch (proofRequest pair) fun e => do
    rollBack s new
    throw e
  report .submitting
  match ← send (.connect request) with
  | some text =>
    rollBack s new
    throw (.refused text)
  | none =>
    let backup ← backup s pair
    report .done
    return ⟨new, backup⟩

/-- Storing and connecting a pair in two parts: what comes before the wallet is stored, and
what comes after it. -/
theorem storeAndConnect_eq {σ : Type} [Store σ] (s : Settings) (pair : KeyPair)
    (password : String) :
    storeAndConnect s pair password = (do
      report .encryptingWallet
      match ← onPool (Pool.add s pair password) with
      | .duplicate => throw .duplicate
      | .added w => connectStored s pair w : Action σ Connected) :=
  rfl

/-- What connecting a stored wallet can come to. -/
inductive StoredOutcome (s : Settings) (pair : KeyPair) (pool : List Wallet) (new : Wallet)
    (w : World (Faulty σ)) : Except SessionError Connected → World (Faulty σ) → Prop
  | unsigned {after : World (Faulty σ)} {e : SignError} :
      Signing.signPayload pair.secret (w.proof pair).toPayload = .error e →
      after.stored s = .ok (takenBack w.context.store pool new) →
      after.ledger = w.ledger →
      StoredOutcome s pair pool new w (.error (.sign e)) after
  | rejected {after : World (Faulty σ)} {signature text : String} :
      Signing.signPayload pair.secret (w.proof pair).toPayload = .ok signature →
      w.ledger.refuseConnect = some text →
      after.stored s = .ok (takenBack w.context.store pool new) →
      after.ledger.received = w.ledger.received ++ [.connect ⟨w.proof pair, signature⟩] →
      StoredOutcome s pair pool new w (.error (.refused text)) after
  | connected {after : World (Faulty σ)} {signature : String} (backup : String) :
      Signing.signPayload pair.secret (w.proof pair).toPayload = .ok signature →
      w.ledger.refuseConnect = none → after.stored s = .ok (pool ++ [new]) →
      after.ledger.received = w.ledger.received ++ [.connect ⟨w.proof pair, signature⟩] →
      StoredOutcome s pair pool new w (.ok ⟨new, backup⟩) after

/-- Connecting a stored wallet comes to one of the three: it has no signature, it is refused,
or it is connected. The first two take it back. -/
theorem connectStored_cases {w : World (Faulty σ)} {new : Wallet}
    (hpool : w.stored s = .ok (pool ++ [new])) (pair : KeyPair) :
    ∃ result after, (connectStored s pair new).run w = (result, after) ∧
      StoredOutcome s pair pool new w result after := by
  rw [connectStored, run_bind_ok (run_report w .signingProof), run_bind, run_tryCatch,
    run_proofRequest, show (w.afterReport .signingProof).proof pair = w.proof pair from rfl]
  cases hsign : Signing.signPayload pair.secret (w.proof pair).toPayload with
  -- Without a signature nothing is sent.
  | error e =>
      obtain ⟨after, hback, hledger, hstored⟩ :=
        rollBack_spec (w := (w.afterReport .signingProof).afterNonce) hpool
      refine ⟨_, after, ?_, .unsigned hsign hstored hledger⟩
      simp only
      rw [run_bind_ok hback]
      rfl
  | ok signature =>
      simp only
      rw [run_bind_ok (run_report _ .submitting), run_bind_ok (run_send _ _)]
      -- What the ledger answers does not depend on what it was sent.
      have hrefusal :
          ((w.afterReport .signingProof).afterNonce.afterReport .submitting).ledger.refusal?
            (.connect ⟨w.proof pair, signature⟩) = w.ledger.refuseConnect := rfl
      rw [hrefusal]
      cases hrefuse : w.ledger.refuseConnect with
      | none => exact ⟨_, _, rfl, .connected _ hsign hrefuse hpool rfl⟩
      | some text =>
          obtain ⟨after, hback, hledger, hstored⟩ := rollBack_spec
            (w := (((w.afterReport .signingProof).afterNonce).afterReport .submitting).afterSend
              (.connect ⟨w.proof pair, signature⟩)) hpool
          refine ⟨_, after, ?_, .rejected hsign hrefuse hstored ?_⟩
          · simp only
            rw [run_bind_ok hback]
            rfl
          · rw [hledger]
            rfl

/-- Storing and connecting a pair comes to one of the five: the pool fails, the pair is a
duplicate, or one of the three ways in which connecting it can end. -/
theorem storeAndConnect_cases {before : World (Faulty σ)} (hpool : before.stored s = .ok pool)
    (pair : KeyPair) (password : String) :
    ∃ result after, (storeAndConnect s pair password).run before = (result, after) ∧
      ConnectOutcome s pair password pool before result after := by
  obtain ⟨added, c, hrun, houtcome⟩ := Pool.add_cases hpool pair password
  have hadd : ((Pool.add s pair password).run before.context).1 = added := by rw [hrun]
  have hrun' : (Pool.add s pair password).run (before.afterReport .encryptingWallet).context
      = (added, c) := hrun
  rw [storeAndConnect_eq, run_bind_ok (run_report before .encryptingWallet)]
  cases houtcome with
  | unread =>
      exact ⟨_, _, run_bind_error (run_onPool_error hrun') _, .unstored hadd hpool rfl⟩
  | duplicate =>
      exact ⟨_, _, run_bind_ok (run_onPool_ok hrun') _, .duplicate hadd hpool rfl⟩
  | unwritten =>
      exact ⟨_, _, run_bind_error (run_onPool_error hrun') _, .unstored hadd hpool rfl⟩
  | added store _ habsent _ hstore =>
      rw [run_bind_ok (run_onPool_ok hrun')]
      -- The new wallet is stored, with one call of each kind used up.
      obtain ⟨result, after, hconnect, hlast⟩ := connectStored_cases
        (w := (before.afterReport .encryptingWallet).withContext
          ((before.context.afterGet.afterSeal).afterPut store)) hstore pair
      refine ⟨result, after, hconnect, ?_⟩
      cases hlast with
      | unsigned hsign hstored hledger => exact .unsigned hadd habsent hsign hstored hledger
      | rejected hsign hrefuse hstored hreceived =>
          exact .rejected hadd habsent hsign hrefuse hstored hreceived
      | connected backup hsign hrefuse hstored hreceived =>
          exact .connected backup hadd habsent hsign hrefuse hstored hreceived

/-! ### Making and importing -/

/-- Where the key of a new wallet comes from. -/
inductive Origin where
  /-- The source of bytes. -/
  | fresh
  | backup (text : String)
  deriving DecidableEq, Repr

namespace Origin

/-- The flow that stores and connects the wallet. -/
def flow {σ : Type} [Store σ] (s : Settings) (password : String) : Origin → Action σ Connected
  | fresh => createWallet s password
  | backup text => importWallet s text password

/-- The pair, if the origin gives one. -/
def pair? (s : Settings) (e : Entropy) : Origin → Option KeyPair
  | fresh => some (KeyPair.fresh e).1
  | backup text => (Backup.import? s.domain text).bind fun key => (KeyPair.ofHex key).toOption

/-- The context in which the wallet is built. -/
def context {σ : Type} (c : Pool.Context σ) : Origin → Pool.Context σ
  | fresh => { c with entropy := (KeyPair.fresh c.entropy).2 }
  | backup _ => c

/-- The wallet that is built. -/
def new? {σ : Type} (s : Settings) (password : String) (c : Pool.Context σ) (origin : Origin) :
    Option Wallet :=
  (origin.pair? s c.entropy).map fun pair => built pair password (origin.context c)

/-- The wallet of an origin that gives a pair is built from that pair, with what is left of
the source. -/
theorem new?_eq_some {σ : Type} {s : Settings} {origin : Origin} {pair : KeyPair}
    {c : Pool.Context σ} (h : origin.pair? s c.entropy = some pair) (password : String) :
    origin.new? s password c = some (built pair password (origin.context c)) := by
  rw [new?, h]
  rfl

/-- Making the key of a wallet does not touch the store, whichever origin it has. -/
theorem context_store {σ : Type} (origin : Origin) (c : Pool.Context σ) :
    (origin.context c).store = c.store := by
  cases origin <;> rfl

/-- Making the key of a wallet takes no time, whichever origin it has. -/
theorem context_now {σ : Type} (origin : Origin) (c : Pool.Context σ) :
    (origin.context c).now = c.now := by
  cases origin <;> rfl

end Origin

/-- The stage with which a flow begins. -/
def Origin.firstStage : Origin → Stage
  | fresh => .generatingKeys
  | backup _ => .decodingBackup

/-- The world in which the wallet of an origin is stored. -/
def Origin.world {σ : Type} (before : World σ) (origin : Origin) : World σ :=
  (before.withContext (origin.context before.context)).afterReport origin.firstStage

/-- A flow reports its first stage and has no pair, or stores and connects its pair. Only a
backup can be without one. What follows, storing and connecting, is the same for both
origins. -/
theorem run_flow {σ : Type} [Store σ] (s : Settings) (origin : Origin) (password : String)
    (before : World σ) :
    (origin.pair? s before.context.entropy = none ∧ ∃ e,
      (origin.flow s password).run before = (.error e, origin.world before) ∧
        (e = .badBackup ∨ ∃ keyError, e = .key keyError)) ∨
    ∃ pair, origin.pair? s before.context.entropy = some pair ∧
      (origin.flow s password).run before
        = (storeAndConnect s pair password).run (origin.world before) := by
  cases origin with
  | fresh =>
      refine .inr ⟨_, rfl, ?_⟩
      rw [Origin.flow, createWallet, run_bind_ok (run_report before .generatingKeys),
        run_bind_ok (run_draw _ _)]
      rfl
  | backup text =>
      rw [Origin.flow, importWallet, run_bind_ok (run_report before .decodingBackup), Origin.pair?]
      -- A text that is no backup, or the backup of something that is no private key, has no pair.
      cases Backup.import? s.domain text with
      | none => exact .inl ⟨rfl, _, rfl, .inl rfl⟩
      | some key =>
          dsimp only
          rw [Option.bind_some]
          cases KeyPair.ofHex key with
          | error e => exact .inl ⟨rfl, .key e, rfl, .inr ⟨e, rfl⟩⟩
          | ok pair => exact .inr ⟨pair, rfl, rfl⟩

/-- A flow has no pair and leaves pool and ledger alone, or goes on with what its origin
left. The two origins differ in how they come by a pair, and this lemma hides the difference
from all that comes after. -/
theorem run_flow_cases {σ : Type} [Store σ] (s : Settings) (origin : Origin) (password : String)
    (before : World σ) :
    (origin.pair? s before.context.entropy = none ∧
      ∃ e after, (origin.flow s password).run before = (.error e, after) ∧
        (e = .badBackup ∨ ∃ keyError, e = .key keyError) ∧ after.context = before.context ∧
        after.ledger = before.ledger) ∨
    ∃ pair start, origin.pair? s before.context.entropy = some pair ∧
      start.context = origin.context before.context ∧ start.ledger = before.ledger ∧
      (origin.flow s password).run before = (storeAndConnect s pair password).run start := by
  rcases run_flow s origin password before with ⟨hnone, e, hrun, he⟩ | ⟨pair, hpair, hrun⟩
  · refine .inl ⟨hnone, e, origin.world before, hrun, he, ?_, rfl⟩
    -- Only a backup can be without a pair, and reading it draws nothing.
    cases origin with
    | fresh => cases hnone
    | backup text => rfl
  · exact .inr ⟨pair, origin.world before, hpair, rfl, rfl, hrun⟩

end Keyring.Session
