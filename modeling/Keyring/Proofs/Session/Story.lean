import Keyring.Proofs.Session.RollBack

/-!
# `Keyring.Proofs.Session.Story`: stages, messages and results tell the same story

A flow shows itself in three ways: by the stages that it reports, by what the ledger receives, and
by its result. Nothing is assumed of the store: any call to it may fail, and it may hold and do
anything.

* `World.Told`: what a run added to the stages and to what the ledger received.
* `Story`: everything that making or importing a wallet can tell, one constructor for each way out.
* `Story.sameStory`: so stages, messages and results belong together.
* `received_reauthenticate`, `received_submit`: the flows of the active wallet send what its pair
  signs, and nothing if there is no pair.
* `store_unlockActive`: they ask the store for the pool, and make no other call.
* `flows_tell`: all of it together.
-/

set_option autoImplicit false

namespace Keyring.Session

variable {σ : Type}

/-! ### What a run tells -/

/-- What a run added to the stages and to what the ledger received. -/
structure World.Told (before after : World σ) (stages : List Stage) (messages : List Message) :
    Prop where
  stages : after.stages = before.stages ++ stages
  received : after.ledger.received = before.ledger.received ++ messages

/-- What two parts of a flow tell is told one after the other. -/
theorem World.Told.trans {before mid after : World σ} {first rest : List Stage}
    {sent received : List Message} (hfirst : before.Told mid first sent)
    (hrest : mid.Told after rest received) :
    before.Told after (first ++ rest) (sent ++ received) where
  stages := by rw [hrest.stages, hfirst.stages, List.append_assoc]
  received := by rw [hrest.received, hfirst.received, List.append_assoc]

/-- Everything that making or importing a wallet can tell after its first stage was reported: the
stages, what the ledger is sent, and the result. -/
inductive Story (first : Stage) :
    List Stage → List Message → Except SessionError Connected → Prop
  | badBackup : Story first [first] [] (.error .badBackup)
  | noKey (e : KeyError) : Story first [first] [] (.error (.key e))
  | unstored (e : PoolError) : Story first [first, .encryptingWallet] [] (.error (.pool e))
  | duplicate : Story first [first, .encryptingWallet] [] (.error .duplicate)
  | unsigned (e : SignError) :
      Story first [first, .encryptingWallet, .signingProof, .rollingBack] [] (.error (.sign e))
  | refused (request : Signed Proof) (text : String) :
      Story first [first, .encryptingWallet, .signingProof, .submitting, .rollingBack]
        [.connect request] (.error (.refused text))
  | connected (request : Signed Proof) (connected : Connected) :
      Story first [first, .encryptingWallet, .signingProof, .submitting, .done]
        [.connect request] (.ok connected)

/-- A run has these stages exactly if it ends in this way, and then it makes these calls. -/
def Row (numbers row : List Nat) (ends calls : Prop) : Prop :=
  (numbers = row ↔ ends) ∧ (ends → calls)

/-- The numbers of the stages, what the ledger was sent and the result belong together. -/
structure SameStory (numbers : List Nat) (messages : List Message)
    (result : Except SessionError Connected) : Prop where
  /-- There was no private key. -/
  unmade : Row numbers [1]
    (result = .error .badBackup ∨ ∃ e, result = .error (.key e)) (messages = [])
  /-- The wallet was not stored. -/
  unstored : Row numbers [1, 2]
    (result = .error .duplicate ∨ ∃ e, result = .error (.pool e)) (messages = [])
  /-- There was no signature, so the wallet was taken back. -/
  unsigned : Row numbers [1, 2, 3, 5] (∃ e, result = .error (.sign e)) (messages = [])
  /-- The ledger refused the wallet, so it was taken back. -/
  refused : Row numbers [1, 2, 3, 4, 5]
    (∃ text, result = .error (.refused text)) (∃ request, messages = [.connect request])
  /-- The ledger accepted the wallet. -/
  connected : Row numbers [1, 2, 3, 4, 6]
    (∃ connected, result = .ok connected) (∃ request, messages = [.connect request])
  /-- There are no other stories. -/
  complete : numbers ∈ [[1], [1, 2], [1, 2, 3, 5], [1, 2, 3, 4, 5], [1, 2, 3, 4, 6]]

/-- Stages, messages and results belong together in every story. There is one case for each
way in which a flow can end. What is asked of a story is decided by its stages and its
message, so each case is computed. -/
theorem Story.sameStory {first : Stage} (hfirst : first.number = 1) {stages : List Stage}
    {messages : List Message} {result : Except SessionError Connected}
    (h : Story first stages messages result) :
    SameStory (stages.map Stage.number) messages result := by
  cases h <;> simp only [List.map_cons, List.map_nil, hfirst] <;> constructor <;>
    simp [Row, Stage.number]

variable [Store σ]

/-- The story of connecting a wallet that was just stored. There is no signature only if the
pair does not sign its proof. -/
theorem connectStored_story (s : Settings) (pair : KeyPair) (new : Wallet) (first : Stage)
    (w : World σ) :
    ∃ stages messages, w.Told ((connectStored s pair new).run w).2 stages messages ∧
      Story first (first :: .encryptingWallet :: stages) messages
        ((connectStored s pair new).run w).1 ∧
      ∀ e, ((connectStored s pair new).run w).1 = .error (.sign e) →
        Signing.signPayload pair.secret (w.proof pair).toPayload = .error e := by
  rw [connectStored, run_bind_ok (run_report w .signingProof), run_bind, run_tryCatch,
    run_proofRequest, show (w.afterReport .signingProof).proof pair = w.proof pair from rfl]
  cases Signing.signPayload pair.secret (w.proof pair).toPayload with
  | error e =>
      dsimp only
      rw [run_bind_ok (run_rollBack s new _)]
      refine ⟨[.signingProof, .rollingBack], [], ⟨?_, (List.append_nil _).symm⟩, .unsigned e, ?_⟩
      · exact List.append_assoc w.stages [.signingProof] [.rollingBack]
      · intro e' h
        rw [SessionError.sign.inj (Except.error.inj h)]
  | ok signature =>
      dsimp only
      rw [run_bind_ok (run_report _ .submitting), run_bind_ok (run_send _ _)]
      -- What the ledger answers does not depend on what it was sent.
      have hrefusal :
          ((w.afterReport .signingProof).afterNonce.afterReport .submitting).ledger.refusal?
            (.connect ⟨w.proof pair, signature⟩) = w.ledger.refuseConnect := rfl
      rw [hrefusal]
      cases w.ledger.refuseConnect with
      | none =>
          refine ⟨[.signingProof, .submitting, .done], [.connect ⟨w.proof pair, signature⟩],
            ⟨?_, rfl⟩, .connected _ _, fun e h => by cases h⟩
          show w.stages ++ [.signingProof] ++ [.submitting] ++ [.done] = _
          simp
      | some text =>
          dsimp only
          rw [run_bind_ok (run_rollBack s new _)]
          refine ⟨[.signingProof, .submitting, .rollingBack],
            [.connect ⟨w.proof pair, signature⟩], ⟨?_, rfl⟩, .refused _ text,
            fun e h => by cases h⟩
          show w.stages ++ [.signingProof] ++ [.submitting] ++ [.rollingBack] = _
          simp

/-- The story of storing and connecting a pair: what comes before the wallet is stored tells
nothing to the ledger. -/
theorem storeAndConnect_story (s : Settings) (pair : KeyPair) (password : String) (first : Stage)
    (w : World σ) :
    ∃ stages messages, w.Told ((storeAndConnect s pair password).run w).2 stages messages ∧
      Story first (first :: stages) messages ((storeAndConnect s pair password).run w).1 ∧
      ∀ e, ((storeAndConnect s pair password).run w).1 = .error (.sign e) →
        Signing.signPayload pair.secret (w.firstProof pair).toPayload = .error e := by
  rw [storeAndConnect_eq, run_bind_ok (run_report w .encryptingWallet)]
  cases hadd : (Pool.add s pair password).run w.context with
  | mk result c =>
      cases result with
      | error e =>
          rw [run_bind_error (run_onPool_error (w := w.afterReport .encryptingWallet) hadd)]
          exact ⟨[.encryptingWallet], [], ⟨rfl, (List.append_nil _).symm⟩, .unstored e,
            fun e h => by cases h⟩
      | ok added =>
          rw [run_bind_ok (run_onPool_ok (w := w.afterReport .encryptingWallet) hadd)]
          cases added with
          | duplicate =>
              exact ⟨[.encryptingWallet], [], ⟨rfl, (List.append_nil _).symm⟩, .duplicate,
                fun e h => by cases h⟩
          | added new =>
              obtain ⟨stages, messages, htold, hstory, hsign⟩ := connectStored_story s pair new
                first ((w.afterReport .encryptingWallet).withContext c)
              -- The number of the proof is drawn after the vector that encrypts the key.
              obtain ⟨hentropy, hnow⟩ := Pool.run_add_added hadd
              have hproof : ((w.afterReport .encryptingWallet).withContext c).proof pair
                  = w.firstProof pair := by
                show Proof.make pair (c.entropy.draw Proof.nonceLength).1 c.now = _
                rw [hentropy, hnow]
                rfl
              rw [hproof] at hsign
              have hstored : w.Told ((w.afterReport .encryptingWallet).withContext c)
                  [.encryptingWallet] [] := ⟨rfl, (List.append_nil _).symm⟩
              exact ⟨_, _, hstored.trans htold, hstory, hsign⟩

omit [Store σ] in
/-- An origin tells its first stage and sends nothing. The key is made or read before the
ledger is asked for anything. -/
theorem Origin.told_world (before : World σ) (origin : Origin) :
    before.Told (origin.world before) [origin.firstStage] [] :=
  ⟨rfl, (List.append_nil _).symm⟩

/-- The story of making or importing a wallet. It begins with the first stage of its origin,
and ends there if there is no pair. -/
theorem flow_story (s : Settings) (origin : Origin) (password : String) (before : World σ) :
    ∃ stages messages, before.Told ((origin.flow s password).run before).2 stages messages ∧
      Story origin.firstStage stages messages ((origin.flow s password).run before).1 := by
  rcases run_flow s origin password before with ⟨-, e, hrun, rfl | ⟨e, rfl⟩⟩ | ⟨pair, -, hrun⟩
  · rw [hrun]
    exact ⟨_, _, origin.told_world before, .badBackup⟩
  · rw [hrun]
    exact ⟨_, _, origin.told_world before, .noKey e⟩
  · obtain ⟨stages, messages, htold, hstory, -⟩ :=
      storeAndConnect_story s pair password origin.firstStage (origin.world before)
    rw [hrun]
    exact ⟨_, _, (origin.told_world before).trans htold, hstory⟩

/-- If the secret number for its proof suits, the pair of a flow has a signature, so the flow
cannot end for want of one. -/
theorem ne_sign_of_suits {s : Settings} {origin : Origin} {before : World σ} {pair : KeyPair}
    (hpair : origin.pair? s before.context.entropy = some pair)
    (hsuits : (origin.world before).Suits pair) (password : String) (e : SignError) :
    ((origin.flow s password).run before).1 ≠ .error (.sign e) := by
  obtain ⟨signature, hsigned⟩ := hsuits.exists_signPayload
  rcases run_flow s origin password before with ⟨hnone, -⟩ | ⟨other, hother, hrun⟩
  · cases hpair.symm.trans hnone
  · obtain rfl := Option.some.inj (hpair.symm.trans hother)
    obtain ⟨-, -, -, -, hsign⟩ :=
      storeAndConnect_story s pair password origin.firstStage (origin.world before)
    rw [hrun]
    intro hfails
    cases hsigned.symm.trans (hsign e hfails)

/-! ### The active wallet -/

/-- The pair of the active wallet, if there is one and the password is right. -/
def World.activePair? (s : Settings) (password : String) (w : World σ) : Option KeyPair :=
  match ((Pool.active s).run w.context).1 with
  | .ok (some wallet) => wallet.pair? password
  | _ => none

/-- The world after the store was asked for the pool. -/
def World.afterListed (s : Settings) (w : World σ) : World σ :=
  w.withContext { w.context with store := (Store.get s.poolKey w.context.store).2 }

/-- The active wallet has a pair and is unlocked, or it is not. Either way the store was
asked for the pool, and nothing else was done. -/
theorem run_unlockActive_cases (s : Settings) (password : String) (w : World σ) :
    (w.activePair? s password = none ∧
      ∃ e, (unlockActive s password).run w = (.error e, w.afterListed s)) ∨
    ∃ wallet pair, w.activePair? s password = some pair ∧
      (unlockActive s password).run w = (.ok (wallet, pair), w.afterListed s) := by
  rw [World.activePair?, unlockActive, run_bind, run_onPool, Pool.run_active]
  dsimp only
  -- The steps are gone through in their order: the pool, its first wallet, the password, the key.
  cases Pool.listed s w.context.store with
  | error e => exact .inl ⟨rfl, _, rfl⟩
  | ok pool =>
      cases pool with
      | nil => exact .inl ⟨rfl, _, rfl⟩
      | cons wallet rest =>
          show (wallet.pair? password = none ∧ _) ∨ _
          simp only [Except.map, Except.mapError, List.head?_cons]
          rw [Wallet.pair?]
          cases wallet.decrypt? password with
          | none => exact .inl ⟨rfl, _, rfl⟩
          | some text =>
              rw [Option.bind_some]
              dsimp only
              cases KeyPair.ofHex text with
              | error e => exact .inl ⟨rfl, _, rfl⟩
              | ok pair => exact .inr ⟨wallet, pair, rfl, rfl⟩

/-! ### What the flows of the active wallet call -/

/-- Does a world have this store? -/
def World.HasStore (store : σ) (w : World σ) : Prop := w.context.store = store

section Rest
variable {store : σ}

omit [Store σ] in
/-- Making a proof does not touch the store. It changes the source of bytes alone. -/
theorem hasStore_proofRequest (pair : KeyPair) :
    Keeps (World.HasStore store) (proofRequest pair : Action σ (Signed Proof)) := by
  intro w h
  rw [run_proofRequest]
  exact h

omit [Store σ] in
/-- Sending a message does not touch the store. It changes the ledger alone. -/
theorem hasStore_send (message : Message) :
    Keeps (World.HasStore store) (send message : Action σ (Option String)) := fun _ h => h

end Rest

/-- Of the store the flow of an unlocked wallet is only asked for the pool, if what comes
after the unlocking does not touch it. It is an equation and not an inequality, so nothing
can have been written in between either. -/
theorem store_unlockActive {α : Type} (s : Settings) (password : String)
    {act : Wallet × KeyPair → Action σ α} (before : World σ)
    (hact : ∀ found store, Keeps (World.HasStore store) (act found)) :
    ((unlockActive s password >>= act).run before).2.context.store
      = (Store.get s.poolKey before.context.store).2 := by
  rcases run_unlockActive_cases s password before with
    ⟨-, e, hrun⟩ | ⟨wallet, pair, -, hrun⟩
  · rw [run_bind_error hrun]
    rfl
  · rw [run_bind_ok hrun]
    exact hact (wallet, pair) _ _ rfl

/-- To connect the active wallet anew, the store is asked for the pool once. -/
theorem store_reauthenticate (s : Settings) (password : String) (before : World σ) :
    ((reauthenticate s password).run before).2.context.store
      = (Store.get s.poolKey before.context.store).2 := by
  refine store_unlockActive s password before fun ⟨w, pair⟩ store => ?_
  refine Keeps.bind (hasStore_proofRequest pair) fun request => ?_
  refine Keeps.bind (hasStore_send _) fun refusal? => ?_
  split
  · exact keeps_throw _
  · exact keeps_pure w

/-- To submit a payload, the store is asked for the pool once. After the unlocking there is
no call, whether the payload is signed, refused or accepted. -/
theorem store_submit (s : Settings) (password : String) (payload : Payload) (before : World σ) :
    ((submit s password payload).run before).2.context.store
      = (Store.get s.poolKey before.context.store).2 := by
  refine store_unlockActive s password before fun ⟨_, pair⟩ store => ?_
  dsimp only
  split
  · exact keeps_throw _
  · split
    · exact keeps_throw _
    · refine Keeps.bind (hasStore_send _) fun refusal? => ?_
      split
      · exact keeps_throw _
      · exact keeps_pure _

/-- To export the active wallet's key, the store is asked for the pool once. -/
theorem store_exportActive (s : Settings) (password : String) (before : World σ) :
    ((exportActive s password).run before).2.context.store
      = (Store.get s.poolKey before.context.store).2 :=
  store_unlockActive s password before fun _ _ _ h => h

/-- To connect anew, the ledger is sent the proof that the pair of the active wallet signs.
Without such a pair it is sent nothing. The equation holds whatever the ledger answers,
because the answer comes after the message. -/
theorem received_reauthenticate (s : Settings) (password : String) (before : World σ) :
    ((reauthenticate s password).run before).2.ledger.received = before.ledger.received ++
      (before.activePair? s password).elim [] fun pair =>
        sent (signedProof pair (before.proof pair)) .connect := by
  rcases run_unlockActive_cases s password before with
    ⟨hnone, e, hunlock⟩ | ⟨wallet, pair, hpair, hunlock⟩
  · rw [hnone, reauthenticate, run_bind_error hunlock]
    exact (List.append_nil _).symm
  · obtain ⟨after, hrun, hreceived⟩ := run_reauthenticate hunlock
    rw [hpair, hrun]
    exact hreceived

/-- To submit, the ledger is sent the data that the pair of the active wallet signs. Without
such a pair it is sent nothing. Data that has no form or no signature is not sent, which
`sent` has as its other case. -/
theorem received_submit (s : Settings) (password : String) (payload : Payload)
    (before : World σ) :
    ((submit s password payload).run before).2.ledger.received = before.ledger.received ++
      (before.activePair? s password).elim [] fun pair =>
        sent (signedData pair payload) .submit := by
  rcases run_unlockActive_cases s password before with
    ⟨hnone, e, hunlock⟩ | ⟨wallet, pair, hpair, hunlock⟩
  · rw [hnone, submit, run_bind_error hunlock]
    exact (List.append_nil _).symm
  · obtain ⟨after, hrun, hreceived⟩ := run_submit hunlock payload
    rw [hpair, hrun]
    exact hreceived

/-- The secret number that is derived to sign a text with a private key suits. -/
def SuitsText (secret : Secret) (text : String) : Prop :=
  Nonce.Suits secret.scalar (Sha256.digest (Bytes.ofText text)).toNat

/-- A proof is signed, if the secret number suits. Its fields are in range, so it has a
canonical text. -/
theorem exists_signedProof {pair : KeyPair} {proof : Proof} (hrange : proof.InRange)
    (hsuits : SuitsText pair.secret (String.ofList proof.canonicalChars)) :
    ∃ request, signedProof pair proof = .ok request := by
  obtain ⟨signature, hsign⟩ := Signing.exists_signText_of_suits hsuits
  refine ⟨⟨proof, signature⟩, ?_⟩
  rw [signedProof, Signing.signPayload_eq_ok_iff.2 ⟨_, Proof.canonical_toPayload hrange, hsign⟩]
  rfl

/-- Data is signed, if the secret number suits. The canonical text is that of the data that
was already brought to its JSON form, so it exists. -/
theorem exists_signedData {pair : KeyPair} {payload : Payload} {data : Json}
    (hdata : payload.toJson = .ok data) (hsuits : SuitsText pair.secret data.canonical) :
    ∃ signature, signedData pair payload = .ok ⟨data, signature⟩ := by
  obtain ⟨signature, hsign⟩ := Signing.exists_signText_of_suits hsuits
  refine ⟨signature, ?_⟩
  rw [signedData, hdata]
  dsimp only
  rw [Signing.signPayload_eq_ok_iff.2 ⟨_, Payload.canonical_ofJson data, hsign⟩]
  rfl

/-- What the flows of the active wallet ask of the ledger and of the store. -/
structure ActiveCalls (s : Settings) (password : String) (before : World σ) : Prop where
  /-- To connect anew sends the proof that the pair signs, and nothing else. -/
  connects : ((reauthenticate s password).run before).2.ledger.received
    = before.ledger.received ++ (before.activePair? s password).elim [] fun pair =>
        sent (signedProof pair (before.proof pair)) .connect
  /-- With a pair this is one message; the secret number for the proof must suit. -/
  connectsOnce : ∀ pair, before.activePair? s password = some pair →
    SuitsText pair.secret (String.ofList (before.proof pair).canonicalChars) →
    ∃ request, ((reauthenticate s password).run before).2.ledger.received
      = before.ledger.received ++ [.connect request]
  /-- Without a pair there is none. -/
  connectsNot : before.activePair? s password = none →
    ((reauthenticate s password).run before).2.ledger.received = before.ledger.received
  /-- To submit sends the data that the pair signs, and nothing else. -/
  submits : ∀ payload, ((submit s password payload).run before).2.ledger.received
    = before.ledger.received ++ (before.activePair? s password).elim [] fun pair =>
        sent (signedData pair payload) .submit
  /-- With a pair and a JSON form this is one message; the secret number must suit. -/
  submitsOnce : ∀ pair payload data, before.activePair? s password = some pair →
    payload.toJson = .ok data → SuitsText pair.secret data.canonical →
    ∃ signature, ((submit s password payload).run before).2.ledger.received
      = before.ledger.received ++ [.submit ⟨data, signature⟩]
  /-- Without a pair or without a JSON form there is none. -/
  submitsNot : ∀ payload, before.activePair? s password = none ∨
      (∃ e, payload.toJson = .error e) →
    ((submit s password payload).run before).2.ledger.received = before.ledger.received
  /-- The store is asked for the pool. Nothing is put into it and nothing is deleted. -/
  reads : ((reauthenticate s password).run before).2.context.store
      = (Store.get s.poolKey before.context.store).2 ∧
    (∀ payload, ((submit s password payload).run before).2.context.store
      = (Store.get s.poolKey before.context.store).2) ∧
    ((exportActive s password).run before).2.context.store
      = (Store.get s.poolKey before.context.store).2

/-- A payload without a JSON form is not sent, because there is nothing to sign. -/
theorem sent_signedData_error {pair : KeyPair} {payload : Payload} {e : Payload.Error}
    (h : payload.toJson = .error e) : sent (signedData pair payload) .submit = [] := by
  rw [signedData, h]
  rfl

/-- The flows of the active wallet ask no more of any ledger and of any store. -/
theorem activeCalls (s : Settings) (password : String) (before : World σ) :
    ActiveCalls s password before where
  connects := received_reauthenticate s password before
  connectsOnce pair hpair hsuits := by
    obtain ⟨request, hrequest⟩ := exists_signedProof (Proof.inRange_make _ _ _) hsuits
    refine ⟨request, ?_⟩
    rw [received_reauthenticate, hpair, Option.elim_some, World.proof, hrequest]
    rfl
  connectsNot hnone := by
    rw [received_reauthenticate, hnone]
    exact List.append_nil _
  submits payload := received_submit s password payload before
  submitsOnce pair payload data hpair hdata hsuits := by
    obtain ⟨signature, hsigned⟩ := exists_signedData hdata hsuits
    refine ⟨signature, ?_⟩
    rw [received_submit, hpair, Option.elim_some, hsigned]
    rfl
  submitsNot payload hnot := by
    rw [received_submit]
    -- Without a pair, or for data that has no JSON form, nothing is sent.
    rcases hnot with hnone | ⟨e, herror⟩
    · rw [hnone]
      exact List.append_nil _
    · simp only [sent_signedData_error herror]
      cases before.activePair? s password <;> exact List.append_nil _
  reads := ⟨store_reauthenticate s password before,
    fun payload => store_submit s password payload before, store_exportActive s password before⟩

/-- Stages, messages and results tell the same story. Whatever a store holds and answers, whatever
the ledger answers and whatever is drawn, the stages of making or importing a wallet and what the
ledger received say how it ended, and the end says them; without a signature it ends only if the
secret number for the proof does not suit. The flows of the active wallet send one message if it is
unlocked, and none if it is not; they only read the store. -/
theorem flows_tell (s : Settings) (password : String) (before : World σ) :
    (∀ origin : Origin, ∃ stages messages,
      before.Told ((origin.flow s password).run before).2 stages messages ∧
      SameStory (stages.map Stage.number) messages ((origin.flow s password).run before).1 ∧
      ∀ pair, origin.pair? s before.context.entropy = some pair →
        (origin.world before).Suits pair →
        ∀ e, ((origin.flow s password).run before).1 ≠ .error (.sign e)) ∧
    ActiveCalls s password before := by
  refine ⟨fun origin => ?_, activeCalls s password before⟩
  obtain ⟨stages, messages, htold, hstory⟩ := flow_story s origin password before
  have hfirst : origin.firstStage.number = 1 := by cases origin <;> rfl
  exact ⟨stages, messages, htold, hstory.sameStory hfirst,
    fun pair hpair hsuits => ne_sign_of_suits hpair hsuits password⟩

/-- A world whose ledger refuses and whose store, without a pool, is written once and not again. -/
def stuckWorld : World (Faulty Memory) :=
  (⟨.list, .ofBytes [], .epoch, .always, .upTo 1, .always, some "no", none⟩ : Step).start
    Memory.empty

/-- The active wallet of the example is unlocked by its password. The definition names the
pair that the flow signs with, and the flow of the example is known to unlock. -/
theorem activePair?_labelledWorld :
    (labelledWorld least).activePair? oldSettings "password" = some (KeyPair.ofSecret least) := by
  rcases run_unlockActive_cases oldSettings "password" (labelledWorld least) with
    ⟨-, e, hrun⟩ | ⟨wallet, pair, hpair, hrun⟩
  · cases congrArg Prod.fst ((unlockActive_labelledWorld least).symm.trans hrun)
  · have hfound := congrArg Prod.fst ((unlockActive_labelledWorld least).symm.trans hrun)
    rw [hpair, (Prod.mk.inj (Except.ok.inj hfound)).2]

/-- What the pair of the least private key signs first in a world without a pool. -/
def leastProof : Proof := newWorld.firstProof (KeyPair.ofSecret least)

/-- The secret number for the proof of the example suits. It was checked once, for the world
in which a wallet is made. -/
theorem suits_leastProof : SuitsText least (String.ofList leastProof.canonicalChars) :=
  newWorld_suits

/-- The proof of the example is the one that its world makes. Both are made at the same time
and with the same bytes. -/
theorem proof_least : (labelledWorld least).proof (KeyPair.ofSecret least) = leastProof := rfl

/-- The proof is also the first one in the world that refuses. An import draws the vector of
the wallet before the nonce, and the other world stands behind such a draw. -/
theorem firstProof_stuckWorld :
    ((Origin.backup leastBackup).world stuckWorld).firstProof (KeyPair.ofSecret least)
      = leastProof :=
  rfl

/-- The canonical text of a proof is that of its JSON form. -/
theorem exists_toJson_leastProof : ∃ data, leastProof.toPayload.toJson = .ok data ∧
    data.canonical = String.ofList leastProof.canonicalChars := by
  have hcanonical := Proof.canonical_toPayload (p := leastProof) (Proof.inRange_make _ _ _)
  rw [Payload.canonical] at hcanonical
  cases hdata : leastProof.toPayload.toJson with
  | error e =>
      rw [hdata] at hcanonical
      cases hcanonical
  | ok data =>
      rw [hdata] at hcanonical
      exact ⟨data, rfl, Except.ok.inj hcanonical⟩

/-- The least private key is refused. The ledger's text is handed on in the error, and what
the flow tells is then known from the general theorem. -/
theorem run_stuckWorld : ∃ after,
    ((Origin.backup leastBackup).flow oldSettings "password").run stuckWorld
      = (.error (.refused "no"), after) := by
  have hempty : stuckWorld.stored oldSettings = .ok [] := (holds_nil rfl).stored
  have hsuits : stuckWorld.Suits (KeyPair.ofSecret least) := suits_leastProof
  obtain ⟨-, result, after, hrun, -, ⟨haccept, -⟩ | ⟨text, hrefuse, rfl, -⟩⟩ :=
    importWallet_decided import?_leastBackup hempty rfl rfl hsuits (by simp [Pool.Present])
      "password"
  · cases haccept
  · obtain rfl := Option.some.inj hrefuse
    exact ⟨after, hrun⟩

/-- A wallet that is refused and cannot be taken back; a wallet that is unlocked to connect it anew,
to submit data, and for a number that has no JSON form; and no wallet at all. -/
theorem flows_tell_stuck :
    (∃ stages request,
      stuckWorld.Told ((importWallet oldSettings leastBackup "password").run stuckWorld).2
        stages [.connect request] ∧ stages.map Stage.number = [1, 2, 3, 4, 5] ∧
      ∀ e, ((importWallet oldSettings leastBackup "password").run stuckWorld).1
        ≠ .error (.sign e)) ∧
    (∃ request, ((reauthenticate oldSettings "password").run
      (labelledWorld least)).2.ledger.received = [.connect request]) ∧
    (∃ request, ((submit oldSettings "password" leastProof.toPayload).run
      (labelledWorld least)).2.ledger.received = [.submit request]) ∧
    ((submit oldSettings "password" (.int (2 ^ 64))).run
      (labelledWorld least)).2.ledger.received = [] ∧
    ((reauthenticate oldSettings "password").run newWorld).2.ledger.received = [] := by
  obtain ⟨-, hcalls⟩ := flows_tell oldSettings "password" (labelledWorld least)
  refine ⟨?_, ?_, ?_, ?_, ?_⟩
  · -- The wallet is refused, so the stages and the message are those of a refusal.
    obtain ⟨stages, messages, htold, hsame, hsigned⟩ :=
      (flows_tell oldSettings "password" stuckWorld).1 (.backup leastBackup)
    obtain ⟨after, hrun⟩ := run_stuckWorld
    have hends := congrArg Prod.fst hrun
    obtain ⟨request, rfl⟩ := hsame.refused.2 ⟨"no", hends⟩
    have hsuits : ((Origin.backup leastBackup).world stuckWorld).Suits
        (KeyPair.ofSecret least) := by
      rw [World.Suits, firstProof_stuckWorld]
      exact suits_leastProof
    exact ⟨stages, request, htold, hsame.refused.1.2 ⟨"no", hends⟩,
      hsigned _ (Origin.pair?_backup import?_leastBackup _) hsuits⟩
  · refine hcalls.connectsOnce _ activePair?_labelledWorld ?_
    rw [proof_least]
    exact suits_leastProof
  · obtain ⟨data, hdata, htext⟩ := exists_toJson_leastProof
    have hsuits : SuitsText least data.canonical := by
      rw [htext]
      exact suits_leastProof
    obtain ⟨signature, hsent⟩ := hcalls.submitsOnce _ _ data activePair?_labelledWorld hdata hsuits
    exact ⟨⟨data, signature⟩, hsent⟩
  · exact hcalls.submitsNot (.int (2 ^ 64)) (.inr ⟨.numberRange, rfl⟩)
  · exact (flows_tell oldSettings "password" newWorld).2.connectsNot rfl

end Keyring.Session
