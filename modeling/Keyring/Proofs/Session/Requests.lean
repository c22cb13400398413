import Keyring.Proofs.Key.Signing
import Keyring.Proofs.Session.Reachable

/-!
# `Keyring.Proofs.Session.Requests`: what a ledger is sent is signed

A ledger is sent requests to connect, signed under the public key that they name,
and data to submit, signed under the public key of the active wallet. The
theorems:

* `Op.received_signed`: one operation sends nothing else.
* `correspondence_signed`: so all that is sent in a run is signed.
* `requests_signed`: this, together with what a single signature is.

Only what a signature is depends on the secret numbers that are derived: a
request that has none is not sent.
-/

set_option autoImplicit false

namespace Keyring.Session

/-! ### Signed messages -/

/-- The request is signed under the public key that it names, and names the address of that key. -/
def ConnectSigned (request : Signed Proof) : Prop :=
  Proof.isSignedBySelf request = true ∧
    Address.ofHex request.data.publicHex = .ok request.data.address

section Messages
variable {σ : Type} [Store σ]

/-- The request has the data of the payload that was to be submitted. It is signed, as that data
and as that payload, under the public key of the active wallet of a world. -/
def SubmitSigned (s : Settings) (w : World σ) (op : Op) (request : Signed Json) : Prop :=
  ∃ password payload wallet key pair, op = .submit password payload ∧
    ((Pool.active s).run w.context).1 = .ok (some wallet) ∧
    wallet.decrypt? password = some key ∧ KeyPair.ofHex key = .ok pair ∧
    payload.toJson = .ok request.data ∧
    Signing.verify pair.publicHex (.ofJson request.data) request.signature = true ∧
    Signing.verify pair.publicHex payload request.signature = true

/-- A message that an operation sends in a world is signed. -/
def MessageSigned (s : Settings) (w : World σ) (op : Op) : Message → Prop
  | .connect request => ConnectSigned request
  | .submit request => SubmitSigned s w op request

end Messages

/-- A proof of a pair that was signed is signed under the public key that it names, and names
the address of that key. -/
theorem connectSigned_of_signPayload {pair : KeyPair} (hpair : pair = KeyPair.ofSecret pair.secret)
    {nonce : Bytes} {now : Instant} {signature : String}
    (h : Signing.signPayload pair.secret (Proof.make pair nonce now).toPayload = .ok signature) :
    ConnectSigned ⟨Proof.make pair nonce now, signature⟩ := by
  constructor
  · show Signing.verify pair.publicHex (Proof.make pair nonce now).toPayload signature = true
    rw [congrArg KeyPair.publicHex hpair]
    exact Signing.verify_of_signPayload rfl h
  · show Address.ofHex pair.publicHex = .ok pair.address
    rw [hpair]
    exact Address.ofHex_ofSecret pair.secret

/-! ### What the parts of a flow send -/

section Parts
variable {σ α : Type} {ok : Message → Prop}

/-- All that the ledger was sent has a property. -/
def Received (ok : Message → Prop) (w : World σ) : Prop := ∀ m ∈ w.ledger.received, ok m

/-- An action on the pool sends nothing. The pool does not know the ledger. -/
theorem received_onPool (act : Pool.Action σ α) : Keeps (Received ok) (onPool act) := by
  intro w h
  rw [run_onPool]
  exact h

/-- Reporting a stage sends nothing. Stages are told to the caller and not to the ledger. -/
theorem received_report (stage : Stage) :
    Keeps (Received ok) (report stage : Action σ Unit) := fun _ h => h

/-- A message that is sent joins those that were received before. The messages from before
have the property by the hypothesis on the state, and the new one has it by that on the
message. -/
theorem received_send {m : Message} (hm : ok m) :
    Keeps (Received ok) (send m : Action σ (Option String)) := by
  intro w h m' hm'
  rcases List.mem_append.1 hm' with hold | hnew
  · exact h m' hold
  · rw [List.mem_singleton.1 hnew]
    exact hm

/-- Making a proof sends nothing. The request is given to the caller, who sends it. -/
theorem received_proofRequest (pair : KeyPair) :
    Keeps (Received ok) (proofRequest pair : Action σ (Signed Proof)) := by
  intro w h
  rw [run_proofRequest]
  exact h

/-- A request that was made is signed. Its signature was made from the canonical text of the
proof that it carries, with the private key of the public key that it names. -/
theorem connectSigned_of_proofRequest {pair : KeyPair} (hpair : pair = KeyPair.ofSecret pair.secret)
    {w : World σ} {request : Signed Proof} (h : ((proofRequest pair).run w).1 = .ok request) :
    ConnectSigned request := by
  rw [run_proofRequest] at h
  cases hsign : Signing.signPayload pair.secret (w.proof pair).toPayload with
  | error e =>
      rw [hsign] at h
      cases h
  | ok signature =>
      rw [hsign] at h
      rw [← Except.ok.inj h]
      exact connectSigned_of_signPayload hpair hsign

variable [Store σ]

/-- Taking back a wallet sends nothing. The ledger does not hear of it. -/
theorem received_rollBack (s : Settings) (w : Wallet) :
    Keeps (Received ok) (rollBack s w : Action σ Unit) :=
  Keeps.bind (received_report _) fun _ => Keeps.bind (fun _ h => h) fun _ => keeps_pure _

/-- To store and connect a pair sends no more than a signed request to connect. -/
theorem received_storeAndConnect (s : Settings) {pair : KeyPair}
    (hpair : pair = KeyPair.ofSecret pair.secret) (password : String)
    (hok : ∀ request, ConnectSigned request → ok (.connect request)) :
    Keeps (Received ok) (storeAndConnect s pair password : Action σ Connected) := by
  refine Keeps.bind (received_report _) fun _ => Keeps.bind (received_onPool _) fun added => ?_
  split
  · exact keeps_throw _
  · rename_i wallet
    refine Keeps.bind (received_report _) fun _ => Keeps.bind_of ?_ fun w request hrequest => ?_
    · exact (received_proofRequest pair).tryCatch fun e =>
        Keeps.bind (received_rollBack s wallet) fun _ => keeps_throw e
    -- The handler fails, so the request is one that was made.
    · have hmade := run_eq_ok_of_tryCatch (fun e => run_bind_throw_ne_ok _ e) hrequest
      have hsigned := hok request (connectSigned_of_proofRequest hpair hmade)
      refine Keeps.bind (received_report _) fun _ =>
        Keeps.bind (received_send hsigned) fun refusal? => ?_
      split
      · exact Keeps.bind (received_rollBack s wallet) fun _ => keeps_throw _
      · exact Keeps.bind (received_onPool _) fun _ =>
          Keeps.bind (received_report _) fun _ => keeps_pure _

/-- What was unlocked is the active wallet, with the pair of its private key; nothing was
sent. -/
theorem unlockActive_spec (s : Settings) (password : String) (w : World σ) :
    ((unlockActive s password).run w).2.ledger = w.ledger ∧
      ∀ wallet pair, ((unlockActive s password).run w).1 = .ok (wallet, pair) →
        ((Pool.active s).run w.context).1 = .ok (some wallet) ∧
          ∃ key, wallet.decrypt? password = some key ∧ KeyPair.ofHex key = .ok pair := by
  rw [unlockActive, run_bind, run_onPool]
  -- What the pool does is not looked into; it has no way to the ledger.
  generalize (Pool.active s).run w.context = outcome
  obtain ⟨result, c⟩ := outcome
  cases result with
  | error e => exact ⟨rfl, fun _ _ h => by cases h⟩
  | ok found =>
      cases found with
      | none => exact ⟨rfl, fun _ _ h => by cases h⟩
      | some active =>
          simp only [Except.mapError]
          cases hkey : active.decrypt? password with
          | none => exact ⟨rfl, fun _ _ h => by cases h⟩
          | some key =>
              simp only
              cases hpair : KeyPair.ofHex key with
              | error e => exact ⟨rfl, fun _ _ h => by cases h⟩
              | ok found =>
                  -- The one case that gives a wallet and a pair.
                  refine ⟨rfl, fun wallet pair h => ?_⟩
                  obtain ⟨rfl, rfl⟩ := Prod.mk.inj (Except.ok.inj h)
                  exact ⟨rfl, key, hkey, hpair⟩

/-! ### What an operation sends -/

/-- A proof with a signature is a signed request. This is the same fact about the request as
a function of nonce and clock, without a state. -/
theorem connectSigned_of_signedProof {pair : KeyPair} (hpair : pair = KeyPair.ofSecret pair.secret)
    {nonce : Bytes} {now : Instant} {request : Signed Proof}
    (h : signedProof pair (Proof.make pair nonce now) = .ok request) : ConnectSigned request := by
  rw [signedProof] at h
  cases hsign : Signing.signPayload pair.secret (Proof.make pair nonce now).toPayload with
  | error e =>
      rw [hsign] at h
      cases h
  | ok signature =>
      rw [hsign] at h
      rw [← Except.ok.inj h]
      exact connectSigned_of_signPayload hpair hsign

/-- Data with a signature of a pair is verified under its public key, as data and as the
payload that it comes from: both have one canonical text. -/
theorem verify_of_signedData {pair : KeyPair} (hpair : pair = KeyPair.ofSecret pair.secret)
    {payload : Payload} {request : Signed Json} (h : signedData pair payload = .ok request) :
    payload.toJson = .ok request.data ∧
      Signing.verify pair.publicHex (.ofJson request.data) request.signature = true ∧
      Signing.verify pair.publicHex payload request.signature = true := by
  rw [signedData] at h
  cases hdata : payload.toJson with
  | error e =>
      rw [hdata] at h
      cases h
  | ok data =>
      rw [hdata] at h
      simp only at h
      cases hsign : Signing.signPayload pair.secret (.ofJson data) with
      | error e =>
          rw [hsign] at h
          cases h
      | ok signature =>
          rw [hsign] at h
          -- The data is the payload's form, and a form has the canonical text of its payload.
          rw [← Except.ok.inj h, congrArg KeyPair.publicHex hpair]
          exact ⟨rfl, Signing.verify_of_signPayload rfl hsign,
            Signing.verify_of_signPayload (Payload.canonical_of_toJson hdata) hsign⟩

/-- What is sent is the request, if it could be signed. At most one message is sent, so the
list has one element or none. -/
theorem eq_of_mem_sent {request : Except SignError α} {message : α → Message} {m : Message}
    (h : m ∈ sent request message) : ∃ x, request = .ok x ∧ m = message x := by
  cases request with
  | error e => exact absurd h List.not_mem_nil
  | ok x => exact ⟨x, rfl, List.mem_singleton.1 h⟩

/-- What an operation on the active wallet sends, if it sends only what it is unlocked for.
If the wallet is not unlocked, it sends nothing. -/
theorem received_of_unlockActive (s : Settings) (password : String) {w : World σ}
    {act : Wallet × KeyPair → Action σ α} (h : Received ok w)
    (hact : ∀ wallet pair w', (unlockActive s password).run w = (.ok (wallet, pair), w') →
      ∃ messages, ((unlockActive s password >>= act).run w).2.ledger.received
        = w'.ledger.received ++ messages ∧ ∀ m ∈ messages, ok m) :
    Received ok ((unlockActive s password >>= act).run w).2 := by
  obtain ⟨hledger, -⟩ := unlockActive_spec s password w
  cases hunlock : (unlockActive s password).run w with
  | mk result w' =>
      rw [hunlock] at hledger
      cases result with
      | error e =>
          -- Without a pair nothing follows, so nothing is sent.
          rw [run_bind_error hunlock]
          intro m hm
          rw [hledger] at hm
          exact h m hm
      | ok found =>
          -- What was received is what was there before and what the rest of the flow sent.
          obtain ⟨messages, hreceived, hmessages⟩ := hact found.1 found.2 w' hunlock
          intro m hm
          rw [hreceived, hledger] at hm
          exact (List.mem_append.1 hm).elim (h m) (hmessages m)

/-- An operation sends signed messages only. There is a case for each of the fourteen
operations; those on the pool send nothing. The ledger starts empty, so that what it holds
afterwards was sent by this operation. -/
theorem Op.received_signed (s : Settings) (op : Op) {w : World σ}
    (h : w.ledger.received = []) :
    Received (MessageSigned s w op) ((op.act s).run w).2 := by
  -- There are three kinds of operations: those on the pool, the two flows and the active
  -- wallet's.
  have hstart : Received (MessageSigned s w op) w := by
    intro m hm
    rw [h] at hm
    exact absurd hm List.not_mem_nil
  have hflow : ∀ (origin : Origin) (password : String),
      Received (MessageSigned s w op) ((origin.flow s password).run w).2 := by
    intro origin password
    rcases run_flow_cases s origin password w with
      ⟨-, e, after, hrun, -, -, hledger⟩ | ⟨pair, start, hpair, -, hledger, hrun⟩
    · rw [hrun]
      intro m hm
      rw [hledger] at hm
      exact hstart m hm
    · rw [hrun]
      refine received_storeAndConnect s (Origin.eq_ofSecret hpair) password (fun _ hok => hok) _ ?_
      intro m hm
      rw [hledger] at hm
      exact hstart m hm
  -- An unlocked pair was read from a text, so its public key is that of its private key.
  have hpaired : ∀ {password : String} {wallet : Wallet} {pair : KeyPair} {w' : World σ},
      (unlockActive s password).run w = (.ok (wallet, pair), w') →
      pair = KeyPair.ofSecret pair.secret := by
    intro password wallet pair w' hunlock
    obtain ⟨-, key, -, hkey⟩ := (unlockActive_spec s password w).2 wallet pair (by rw [hunlock])
    exact KeyPair.eq_ofSecret_of_ofHex hkey
  cases op with
  | add keyText password =>
      rw [Op.act]
      split
      · exact received_onPool _ w hstart
      · exact hstart
  | clear | removeByAddress _ | removeByKey _ | list | active | find _ | unlock _ _ | disconnect =>
      exact received_onPool _ w hstart
  | create password => exact hflow .fresh password
  | restore backup password => exact hflow (.backup backup) password
  | reauthenticate password =>
      refine received_of_unlockActive s password hstart fun wallet pair w' hunlock => ?_
      obtain ⟨after, hrun, hreceived⟩ := run_reauthenticate hunlock
      refine ⟨_, (congrArg (fun r => r.2.ledger.received) hrun).trans hreceived, fun m hm => ?_⟩
      obtain ⟨request, hrequest, rfl⟩ := eq_of_mem_sent hm
      exact connectSigned_of_signedProof (hpaired hunlock) hrequest
  | submit password payload =>
      refine received_of_unlockActive s password hstart fun wallet pair w' hunlock => ?_
      obtain ⟨after, hrun, hreceived⟩ := run_submit hunlock payload
      refine ⟨_, (congrArg (fun r => r.2.ledger.received) hrun).trans hreceived, fun m hm => ?_⟩
      obtain ⟨request, hrequest, rfl⟩ := eq_of_mem_sent hm
      obtain ⟨hactive, key, hkey, hpair⟩ :=
        (unlockActive_spec s password w).2 wallet pair (by rw [hunlock])
      exact ⟨password, payload, wallet, key, pair, rfl, hactive, hkey, hpair,
        verify_of_signedData (hpaired hunlock) hrequest⟩
  | exportActive password =>
      refine received_of_unlockActive s password hstart fun wallet pair w' hunlock => ?_
      refine ⟨[], ?_, fun m hm => absurd hm List.not_mem_nil⟩
      rw [List.append_nil]
      exact congrArg (fun r => r.2.ledger.received) (run_exportActive hunlock)

end Parts

/-! ### What a run sends -/

section Runs
variable {σ : Type} [Store σ]

/-- A message with the step that it was sent in and the store before that step. -/
structure Sent (σ : Type) where
  store : σ
  step : Step
  message : Message

/-- All messages of a run, in the order in which they were sent. -/
def correspondence (s : Settings) : List Step → σ → List (Sent σ)
  | [], _ => []
  | step :: rest, store =>
    (((step.op.act s).run (step.start store)).2.ledger.received.map fun message =>
      ⟨store, step, message⟩) ++ correspondence s rest (step.next s store)

/-- All messages of a run are signed. Induction on the steps: each begins with a ledger that
has received nothing of it. A message is listed with the step that sent it and the store of
that moment, because the active wallet is read from there. -/
theorem correspondence_signed (s : Settings) (steps : List Step) (store : σ) :
    ∀ m ∈ correspondence s steps store,
      MessageSigned s (m.step.start m.store) m.step.op m.message := by
  induction steps generalizing store with
  | nil => exact fun m hm => absurd hm List.not_mem_nil
  | cons step rest ih =>
      intro m hm
      rcases List.mem_append.1 hm with hfirst | hrest
      · obtain ⟨message, hmessage, rfl⟩ := List.mem_map.1 hfirst
        exact step.op.received_signed s rfl message hmessage
      · exact ih _ m hrest

end Runs

/-- Every request that the ledger receives is correctly signed. A private key signs every payload
that has a canonical text; the signature is well formed and verified under the public key, and it
is the signature of the digest of the text as well. In every run, over any store, a request to
connect is signed under the public key that it names and names the address of that key, and what is
submitted is signed, as data and as the payload that it comes from, under the public key of the
active wallet. -/
theorem requests_signed :
    (∀ (key : String) (pair : KeyPair) (payload : Payload) (text : String),
      KeyPair.ofHex key = .ok pair → payload.canonical = .ok text →
      Nonce.Suits pair.secret.scalar (Sha256.digest (Bytes.ofText text)).toNat →
      ∃ signature, Signing.sign key payload = .ok signature ∧ Signing.WellFormed signature ∧
        Signing.verify pair.publicHex payload signature = true ∧
        Signing.signData key (Hex.encode (Sha256.digest (Bytes.ofText text))) = .ok signature) ∧
    ∀ (σ : Type) [Store σ] (s : Settings) (steps : List Step) (store : σ),
      ∀ m ∈ correspondence s steps store,
        MessageSigned s (m.step.start m.store) m.step.op m.message := by
  refine ⟨fun key pair payload text hkey htext hnonce => ?_, fun σ _ => correspondence_signed⟩
  -- A pair is read through its private key, so the key that signs is that of the pair.
  have hsecret : Secret.ofHex key = .ok pair.secret := by
    rw [KeyPair.ofHex] at hkey
    cases hread : Secret.ofHex key with
    | error e =>
        rw [hread] at hkey
        cases hkey
    | ok secret =>
        rw [hread] at hkey
        rw [← Except.ok.inj hkey]
        rfl
  rw [congrArg KeyPair.publicHex (KeyPair.eq_ofSecret_of_ofHex hkey)]
  exact Signing.sign_spec hsecret htext hnonce

/-- The private key with the number one signs a text, and a wallet that is made is connected. -/
theorem requests_signed_created :
    (∃ signature, Signing.sign (Secret.hex ⟨1, by decide, by decide⟩) (.text "hello")
        = .ok signature ∧
      Signing.verify (KeyPair.ofSecret ⟨1, by decide, by decide⟩).publicHex (.text "hello")
        signature = true) ∧
    ∃ m ∈ correspondence (Settings.ofSecret "secret") [.plain (.create "password") none]
        Memory.empty,
      MessageSigned (Settings.ofSecret "secret") (m.step.start m.store) m.step.op m.message := by
  obtain ⟨hsigns, hsent⟩ := requests_signed
  constructor
  · have hdigest : (Sha256.digest (Bytes.ofText "hello")).toNat
        = 0x2cf24dba5fb0a30e26e83b2ac5b9e29e1b161e5c1fa7425e73043362938b9824 := by
      decide +kernel
    have hsuits : Nonce.Suits 1
        0x2cf24dba5fb0a30e26e83b2ac5b9e29e1b161e5c1fa7425e73043362938b9824 := by
      refine ⟨0x2bb655d3b6310e1b2e909773df10dfcf97caa34f39cf32abbe01c674c5ea6e1d,
        0xfe485cf09056db3fec44540ce06a9abf8ac1498d5cae2fa5c36519afaff98487,
        0x8adb4e4340e9a036f4f266cb056608aeffdd99042520a0fbb140e62d95d59c41, ?_, ?_, ?_, ?_⟩
      all_goals decide +kernel
    obtain ⟨signature, hsign, -, hverify, -⟩ := hsigns _ _ (.text "hello") "hello"
      (KeyPair.ofHex_hex ⟨1, by decide, by decide⟩) rfl (by rw [hdigest]; exact hsuits)
    exact ⟨signature, hsign, hverify⟩
  · -- The run sends one message; its signature is not computed but known from the theorem.
    have hone : (correspondence (Settings.ofSecret "secret") [.plain (.create "password") none]
        Memory.empty).length = 1 := by
      decide +kernel
    obtain ⟨m, hm⟩ := List.length_eq_one_iff.1 hone
    have hmem : m ∈ correspondence (Settings.ofSecret "secret")
        [.plain (.create "password") none] Memory.empty := by
      rw [hm]
      exact List.mem_singleton_self m
    exact ⟨m, hmem, hsent Memory _ _ _ m hmem⟩

end Keyring.Session
