import Keyring.Proofs.Backup
import Keyring.Proofs.Key.Sealed
import Keyring.Proofs.Session.Run

/-!
# `Keyring.Proofs.Session.Reachable`: no wallet is lost

A wallet that came into the pool and was not removed can be used under its
password, whatever else was done since and whatever failed.

* `run_unlock_of_list`, `run_unlockActive_of_list`: a wallet of the list is
  unlocked, if its private key is read back.
* `run_unlock`, `run_unlockActive`: so an entry of the pool is unlocked under its
  password.
* `run_reauthenticate`, `run_submit`, `run_exportActive`: what the flows of an
  unlocked active wallet run to.
* `reachable_of_added`: so a wallet stays reachable after every run.
-/

set_option autoImplicit false

namespace Keyring.Session

variable {σ : Type} {s : Settings}

/-! ### Flows of an unlocked wallet -/

/-- A proof with the signature of its pair. -/
def signedProof (pair : KeyPair) (proof : Proof) : Except SignError (Signed Proof) :=
  (Signing.signPayload pair.secret proof.toPayload).map fun signature => ⟨proof, signature⟩

/-- The data of a payload with the signature of a pair. -/
def signedData (pair : KeyPair) (payload : Payload) : Except SignError (Signed Json) :=
  match payload.toJson with
  | .error e => .error (.payload e)
  | .ok data =>
    (Signing.signPayload pair.secret (.ofJson data)).map fun signature => ⟨data, signature⟩

/-- The messages that a request is sent with: none if it could not be signed. -/
def sent {α : Type} (request : Except SignError α) (message : α → Message) : List Message :=
  match request with
  | .ok x => [message x]
  | .error _ => []

/-- What the caller gets for a request that the ledger accepts, or refuses with this text. -/
def answered {α β : Type} (request : Except SignError α) (refusal? : Option String) (f : α → β) :
    Except SessionError β :=
  match request, refusal? with
  | .error e, _ => .error (.sign e)
  | .ok _, some text => .error (.refused text)
  | .ok x, none => .ok (f x)

section Flows
variable [Store σ] {w w' : World σ} {password : String} {wallet : Wallet} {pair : KeyPair}

/-- The active wallet is connected with a proof of its pair, if the proof is signed and the
ledger accepts. What is sent is the signed proof and nothing else. -/
theorem run_reauthenticate
    (h : (unlockActive s password).run w = (.ok (wallet, pair), w')) :
    ∃ after, (reauthenticate s password).run w
        = (answered (signedProof pair (w'.proof pair)) w'.ledger.refuseConnect fun _ => wallet,
          after) ∧
      after.ledger.received
        = w'.ledger.received ++ sent (signedProof pair (w'.proof pair)) .connect := by
  rw [reauthenticate, run_bind_ok h, signedProof]
  dsimp only
  have hproof := run_proofRequest pair w'
  cases hsign : Signing.signPayload pair.secret (w'.proof pair).toPayload with
  | error e =>
      rw [hsign] at hproof
      exact ⟨w'.afterNonce, run_bind_error hproof _, (List.append_nil _).symm⟩
  | ok signature =>
      rw [hsign] at hproof
      refine ⟨w'.afterNonce.afterSend (.connect ⟨w'.proof pair, signature⟩), ?_, rfl⟩
      rw [run_bind_ok hproof, run_bind_ok (run_send _ _)]
      -- The ledger's answer is that of the world before, since drawing the nonce left it alone.
      have hrefusal : (w'.afterNonce.ledger.refusal? (.connect ⟨w'.proof pair, signature⟩))
          = w'.ledger.refuseConnect := rfl
      rw [hrefusal]
      cases w'.ledger.refuseConnect <;> rfl

/-- A payload is submitted with a signature of the active wallet's pair, if it is signed and
the ledger accepts. The message is the signed form of the payload and nothing else. -/
theorem run_submit
    (h : (unlockActive s password).run w = (.ok (wallet, pair), w')) (payload : Payload) :
    ∃ after, (submit s password payload).run w
        = (answered (signedData pair payload) w'.ledger.refuseSubmit id, after) ∧
      after.ledger.received
        = w'.ledger.received ++ sent (signedData pair payload) .submit := by
  rw [submit, run_bind_ok h, signedData]
  dsimp only
  -- A number out of range is found before anything is signed.
  cases payload.toJson with
  | error e => exact ⟨w', rfl, (List.append_nil _).symm⟩
  | ok data =>
      dsimp only
      cases Signing.signPayload pair.secret (.ofJson data) with
      | error e => exact ⟨w', rfl, (List.append_nil _).symm⟩
      | ok signature =>
          refine ⟨w'.afterSend (.submit ⟨data, signature⟩), ?_, rfl⟩
          dsimp only
          rw [run_bind_ok (run_send _ _)]
          have hrefusal : w'.ledger.refusal? (.submit ⟨data, signature⟩)
              = w'.ledger.refuseSubmit := rfl
          rw [hrefusal]
          cases w'.ledger.refuseSubmit <;> rfl

/-- The active wallet's key is exported. After the unlocking nothing can fail. The vector is
drawn from the source of bytes as the unlocking left it. -/
theorem run_exportActive
    (h : (unlockActive s password).run w = (.ok (wallet, pair), w')) :
    (exportActive s password).run w
      = (.ok (Backup.exportText s.domain w'.context.entropy pair.secret.hex).1,
          w'.withEntropy (Backup.exportText s.domain w'.context.entropy pair.secret.hex).2) := by
  rw [exportActive, run_bind_ok h]
  dsimp only
  rw [run_backup]

/-- The first wallet of the list is unlocked, if its private key is read back. The three
hypotheses are the three steps of unlocking, and each can fail in another way. -/
theorem run_unlockActive_of_list {c : Pool.Context σ} {rest : List Wallet}
    (hlist : (Pool.list s).run w.context = (.ok (wallet :: rest), c)) {text : String}
    (htext : wallet.decrypt? password = some text)
    (hpair : KeyPair.ofHex text = .ok pair) :
    (unlockActive s password).run w = (.ok (wallet, pair), w.withContext c) := by
  have hactive : (Pool.active s).run w.context = (.ok (some wallet), c) := by
    rw [Pool.active, run_bind_ok hlist]
    rfl
  rw [unlockActive, run_bind_ok (run_onPool_ok hactive)]
  dsimp only
  rw [htext]
  dsimp only
  rw [hpair]
  rfl

/-- So is the first wallet of an address. The sealed text is opened by the password and read
as a key; the hypotheses are these two steps. -/
theorem run_unlock_of_list {c c' : Pool.Context σ} {pool : List Wallet}
    (hlist : (Pool.list s).run c = (.ok pool, c')) {address : String}
    (hfind : (pool.find? fun v => v.address == address) = some wallet) {text : String}
    (htext : wallet.decrypt? password = some text)
    (hpair : KeyPair.ofHex text = .ok pair) :
    (Pool.unlock s address password).run c = (.ok (some pair), c') := by
  rw [Pool.unlock, run_bind_ok hlist, hfind]
  dsimp only
  rw [htext]
  dsimp only
  rw [hpair]
  rfl

end Flows

/-! ### Unlocking an entry -/

variable [Store σ] [Store.Sound σ] {entries : List Entry} {e : Entry}

/-- The text of an entry's private key is read back under its password, since the wallet was
sealed under it. -/
theorem Entry.Made.decrypt? (h : e.Made) : e.wallet.decrypt? e.password = some e.secret.hex := by
  obtain ⟨entropy, hkey⟩ := h.key
  rw [Wallet.decrypt?, hkey, SealedKey.decrypt?_encrypt]

/-- A wallet is found by its address, if no other private key has it. Entries have different
private keys, so there is one wallet of that address. -/
theorem Holds.find? {store : σ} (h : Holds s store entries) (he : e ∈ entries)
    (halone : ∀ f ∈ entries, f.wallet.address = e.wallet.address → f.secret = e.secret) :
    ((entries.map Entry.wallet).find? fun v : Wallet => v.address == e.wallet.address)
      = some e.wallet := by
  cases hfind : (entries.map Entry.wallet).find?
      fun v : Wallet => v.address == e.wallet.address with
  | none =>
      have hnone := List.find?_eq_none.1 hfind e.wallet (List.mem_map_of_mem he)
      exact absurd (beq_self_eq_true _) hnone
  | some found =>
      -- The wallet that is found first has the same private key, so it is the same.
      obtain ⟨f, hf, rfl⟩ := List.mem_map.1 (List.mem_of_find?_eq_some hfind)
      have hsame : (f.wallet.address == e.wallet.address) = true :=
        List.find?_some (p := fun v : Wallet => v.address == e.wallet.address) hfind
      have hsecret := halone f hf (beq_iff_eq.1 hsame)
      rw [List.inj_on_of_nodup_map h.nodup hf he hsecret]

/-- An entry is unlocked under its password, if the store answers. Another entry of the
address would be found first, so the hypothesis asks that such an entry holds the same
private key. -/
theorem run_unlock {c : Pool.Context (Faulty σ)} (h : Holds s c.store.store entries)
    (he : e ∈ entries)
    (halone : ∀ f ∈ entries, f.wallet.address = e.wallet.address → f.secret = e.secret)
    (hget : c.store.gets.answers = true) :
    (Pool.unlock s e.wallet.address e.password).run c
      = (.ok (some (KeyPair.ofSecret e.secret)), c.afterGet) :=
  run_unlock_of_list (Pool.list_ok h.stored hget) (h.find? he halone) (h.made e he).decrypt?
    (KeyPair.ofHex_hex e.secret)

/-- The oldest entry is unlocked under its password, if the store answers. The active wallet
is the first of the pool, so no condition on the other entries is needed. -/
theorem run_unlockActive {w : World (Faulty σ)} (hmade : e.Made) {rest : List Wallet}
    (holdest : w.stored s = .ok (e.wallet :: rest)) (hget : w.context.store.gets.answers = true) :
    (unlockActive s e.password).run w
      = (.ok (e.wallet, KeyPair.ofSecret e.secret), w.withContext w.context.afterGet) :=
  run_unlockActive_of_list (Pool.list_ok holdest hget) hmade.decrypt? (KeyPair.ofHex_hex e.secret)

/-! ### Reachable wallets -/

/-- What the owner of an entry can do while its store holds it and answers. -/
structure Reachable (s : Settings) (store : σ) (e : Entry) : Prop where
  /-- Its address and its password unlock the pair of its private key. -/
  unlock : ∀ c : Pool.Context (Faulty σ), c.store.store = store →
    c.store.gets.answers = true →
    ((Pool.unlock s e.wallet.address e.password).run c).1
      = .ok (some (KeyPair.ofSecret e.secret))
  /-- It is listed, as the first wallet of its address. -/
  listed : ∀ c : Pool.Context (Faulty σ), c.store.store = store →
    c.store.gets.answers = true →
    ∃ pool, ((Pool.list s).run c).1 = .ok pool ∧
      (pool.find? fun v : Wallet => v.address == e.wallet.address) = some e.wallet
  /-- Its private key is read back under its password. -/
  decrypts : e.wallet.decrypt? e.password = some e.secret.hex
  /-- As the oldest wallet it is connected anew with a proof that its private key signs. -/
  reauthenticate : ∀ (w : World (Faulty σ)) (rest : List Wallet),
    w.context.store.store = store → w.context.store.gets.answers = true →
    Pool.stored s store = .ok (e.wallet :: rest) →
    ∃ nonce after, let proof := Proof.make (KeyPair.ofSecret e.secret) nonce w.context.now
      (Session.reauthenticate s e.password).run w
          = (answered (signedProof (KeyPair.ofSecret e.secret) proof) w.ledger.refuseConnect
              fun _ => e.wallet, after) ∧
        after.ledger.received = w.ledger.received ++
          sent (signedProof (KeyPair.ofSecret e.secret) proof) .connect
  /-- As the oldest wallet it submits payloads that its private key signs. -/
  submit : ∀ (w : World (Faulty σ)) (rest : List Wallet) (payload : Payload),
    w.context.store.store = store → w.context.store.gets.answers = true →
    Pool.stored s store = .ok (e.wallet :: rest) →
    ∃ after, (Session.submit s e.password payload).run w
          = (answered (signedData (KeyPair.ofSecret e.secret) payload) w.ledger.refuseSubmit id,
              after) ∧
        after.ledger.received = w.ledger.received ++
          sent (signedData (KeyPair.ofSecret e.secret) payload) .submit
  /-- As the oldest wallet it exports a backup of its private key. -/
  exportActive : ∀ (w : World (Faulty σ)) (rest : List Wallet),
    w.context.store.store = store → w.context.store.gets.answers = true →
    Pool.stored s store = .ok (e.wallet :: rest) →
    ∃ backup, ((Session.exportActive s e.password).run w).1 = .ok backup ∧
      Backup.import? s.domain backup = some e.secret.hex

/-- Every entry that a store holds is reachable, if no other private key has its address. -/
theorem Holds.reachable {store : σ} (h : Holds s store entries) (he : e ∈ entries)
    (halone : ∀ f ∈ entries, f.wallet.address = e.wallet.address → f.secret = e.secret) :
    Reachable s store e where
  unlock c hstore hget := by
    rw [← hstore] at h
    rw [run_unlock h he halone hget]
  listed c hstore hget := by
    rw [← hstore] at h
    refine ⟨entries.map Entry.wallet, ?_, h.find? he halone⟩
    rw [Pool.list_ok h.stored hget]
  decrypts := (h.made e he).decrypt?
  reauthenticate w rest hstore hget holdest := by
    rw [← hstore] at holdest
    -- The oldest entry is the active wallet, so the flow is unlocked and sends its proof.
    obtain ⟨after, hrun, hreceived⟩ :=
      run_reauthenticate (run_unlockActive (w := w) (h.made e he) holdest hget)
    exact ⟨(w.context.entropy.draw Proof.nonceLength).1, after, hrun, hreceived⟩
  submit w rest payload hstore hget holdest := by
    rw [← hstore] at holdest
    obtain ⟨after, hrun, hreceived⟩ :=
      run_submit (run_unlockActive (w := w) (h.made e he) holdest hget) payload
    exact ⟨after, hrun, hreceived⟩
  exportActive w rest hstore hget holdest := by
    rw [← hstore] at holdest
    have hactive := run_unlockActive (w := w) (h.made e he) holdest hget
    rw [run_exportActive hactive]
    exact ⟨_, rfl, Backup.import?_exportText _ _ _⟩

/-! ### After a run -/

/-- A new private key is added by a store that answers, so the step succeeds with its entry. -/
theorem Op.add_of_answers {w : World (Faulty σ)} (h : Holds s w.context.store.store entries)
    (hget : w.context.store.gets.answers = true) (hput : w.context.store.puts.answers = true)
    (secret : Secret) (hnew : ∀ f ∈ entries, f.secret ≠ secret) (password : String) :
    (Op.add secret.hex password).added? s w.context
        = some ⟨secret, password, Pool.built (KeyPair.ofSecret secret) password w.context⟩ ∧
      (Op.add secret.hex password).Succeeds s w := by
  have habsent : ¬Pool.Present (KeyPair.ofSecret secret) (entries.map Entry.wallet) := by
    intro hpresent
    obtain ⟨f, hf, hsecret⟩ := (h.present_iff secret).1 hpresent
    exact hnew f hf hsecret
  obtain ⟨result, c', hrun, houtcome⟩ :=
    Pool.add_cases h.stored (KeyPair.ofSecret secret) password
  have hadded : (Op.add secret.hex password).added? s w.context
      = Entry.added? s (KeyPair.ofSecret secret) password w.context := by
    rw [added?, KeyPair.ofHex_hex]
    rfl
  have hact : (Op.add secret.hex password).act s = (onPool
      (Pool.add s (KeyPair.ofSecret secret) password) : Action (Faulty σ) Pool.Added) := by
    rw [act, KeyPair.ofHex_hex]
    rfl
  rw [hadded, Entry.added?, Succeeds, hact, hrun]
  -- The store answers and the key is new, which leaves one outcome.
  cases houtcome with
  | unread hrefused => exact absurd hget (by rw [hrefused]; decide)
  | duplicate _ hpresent => exact absurd hpresent habsent
  | unwritten _ _ hrefused => exact absurd hput (by rw [hrefused]; decide)
  | added => exact ⟨rfl, _, congrArg Prod.fst (run_onPool_ok hrun)⟩

/-- The pool is not cleared by a store that refuses. Its only call is the deletion. -/
theorem Op.not_succeeds_clear {w : World (Faulty σ)}
    (hdelete : w.context.store.deletes.answers = false) : ¬Op.clear.Succeeds s w := by
  rintro ⟨answer, hok⟩
  have hrefused := run_onPool_error (Pool.delete_refused s.poolKey hdelete)
  exact absurd (hok.symm.trans (congrArg Prod.fst hrefused)) nofun

/-- No wallet becomes unreachable. A wallet that was added by a step that succeeded can be used
after every run from a store without a pool, unless a later step removed it. No other private key
of the run may have its address, and no step may remove the pool itself as if it were a backup. -/
theorem reachable_of_added (s : Settings) (store : σ)
    (hempty : Store.Sound.lookup s.poolKey store = none) (before after : List Step) (step : Step)
    (hsteps : ∀ t ∈ before ++ step :: after, t.op ≠ .removeByKey s.poolKey) (e : Entry)
    (hadded : step.op.added? s (step.start (run s before store)).context = some e)
    (hsucceeds : step.op.Succeeds s (step.start (run s before store)))
    (hkept : Unremoved s e.wallet after (step.next s (run s before store)))
    (halone : ∀ f ∈ history s (before ++ step :: after) store,
      f.wallet.address = e.wallet.address → f.secret = e.secret) :
    Reachable s (run s (before ++ step :: after) store) e := by
  rw [history_append, history, ← List.append_assoc] at halone
  -- The run in three parts: what comes before the step, the step, and what comes after it.
  obtain ⟨first, hfirst, hholds, -, -⟩ := holds_run before (holds_nil hempty) fun t ht =>
    hsteps t (List.mem_append_left _ ht)
  obtain ⟨middle, houtcome, hmiddle⟩ := holds_next hholds step
    (hsteps step (List.mem_append_right _ List.mem_cons_self))
  obtain ⟨left, hleft, hlast, hmem, -⟩ := holds_run after hmiddle fun t ht =>
    hsteps t (List.mem_append_right _ (List.mem_cons_of_mem step ht))
  have he : e ∈ left := hmem e (houtcome.mem_added (w := step.start _) hadded hsucceeds) hkept
    fun f hf => halone f (List.mem_append_right _ hf)
  -- What is left are entries of the history.
  have hpast : left.Sublist (history s before store ++
      (step.op.added? s (step.start (run s before store)).context).toList ++
        history s after (step.next s (run s before store))) :=
    hleft.trans ((houtcome.sublist.trans (hfirst.append_right _)).append_right _)
  rw [run_append]
  exact hlast.reachable he fun f hf => halone f (hpast.subset hf)

/-- The least private key. -/
def least : Secret := ⟨1, by decide, by decide⟩

/-- A step that the store refuses to clear the pool in. -/
def Step.uncleared : Step := { Step.plain .clear none with deletes := .upTo 0 }

/-- A wallet is added, and the pool is not cleared then, so the wallet is reachable. -/
theorem reachable_of_added_uncleared :
    Reachable (Settings.ofSecret "secret")
      (run (Settings.ofSecret "secret")
        ([] ++ Step.plain (.add least.hex "password") none :: [Step.uncleared]) Memory.empty)
      ⟨least, "password", Pool.built (KeyPair.ofSecret least) "password"
        ((Step.plain (.add least.hex "password") none).start Memory.empty).context⟩ := by
  have hempty : Holds (Settings.ofSecret "secret") Memory.empty [] := holds_nil rfl
  obtain ⟨hadded, hsucceeds⟩ := Op.add_of_answers
    (w := (Step.plain (.add least.hex "password") none).start Memory.empty) hempty rfl rfl
    least (fun f hf => absurd hf List.not_mem_nil) "password"
  refine reachable_of_added (Settings.ofSecret "secret") Memory.empty rfl [] [Step.uncleared]
    (Step.plain (.add least.hex "password") none) ?_ _ hadded hsucceeds ?_ ?_
  · rw [List.nil_append, List.forall_mem_cons, List.forall_mem_singleton]
    exact ⟨nofun, nofun⟩
  · -- Clearing would have removed the wallet, but it was refused.
    exact ⟨fun hremoves => Op.not_succeeds_clear rfl hremoves.1, trivial⟩
  · intro f hf _
    -- Nothing else was ever added.
    have hhistory : history (Settings.ofSecret "secret")
        ([] ++ Step.plain (.add least.hex "password") none :: [Step.uncleared]) Memory.empty
          = ((Op.add least.hex "password").added? (Settings.ofSecret "secret")
              ((Step.plain (.add least.hex "password") none).start Memory.empty).context).toList :=
      List.append_nil _
    rw [hhistory, hadded, Option.toList_some, List.mem_singleton] at hf
    rw [hf]

end Keyring.Session
