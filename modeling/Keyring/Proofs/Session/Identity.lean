import Keyring.Proofs.Pool.Removal
import Keyring.Proofs.Session.Portable

/-!
# `Keyring.Proofs.Session.Identity`: whose key signs

A wallet in a pool has two parts: the address and the public key that it is known by, and a private
key that was sealed under a password. Nothing ties one part to the other in the text of a pool. The
flows take the wallet by the first part and sign with the second.

* `Wallet.pair?`: the pair that a wallet was sealed with.
* `Wallet.HoldsOwnKey`: the two parts belong together.
* `reauthenticate_pair`, `submit_pair`, `unlock_pair`: what the flows do with the pair.
* `holds_run_any`: all that a session itself puts into a pool belongs together.
* `signing_key`: so the flows name the wallet exactly if it holds its own key.
* `signing_key_foreign`: a wallet with the private key of another one.
-/

set_option autoImplicit false

namespace Keyring

namespace Wallet

/-- The pair of the private key that is sealed in a wallet under a password. -/
def pair? (w : Wallet) (password : String) : Option KeyPair :=
  (w.decrypt? password).bind fun text => (KeyPair.ofHex text).toOption

/-- The private key that is sealed in a wallet under a password is its own. -/
def HoldsOwnKey (w : Wallet) (password : String) : Prop :=
  ∃ pair, w.pair? password = some pair ∧ pair.address = w.address ∧ pair.publicHex = w.publicHex

variable {w : Wallet} {password : String} {pair : KeyPair}

/-- The pair that is sealed in a wallet is the one that is read from its decrypted text. -/
theorem pair?_of_decrypt? {text : String} (htext : w.decrypt? password = some text)
    (hpair : KeyPair.ofHex text = .ok pair) : w.pair? password = some pair := by
  rw [pair?, htext, Option.bind_some, hpair]
  rfl

/-- Only the pair that is sealed can be the own one, so a wallet holds its own key exactly if
that pair has its address and its public key. -/
theorem holdsOwnKey_iff (h : w.pair? password = some pair) :
    w.HoldsOwnKey password ↔ pair.address = w.address ∧ pair.publicHex = w.publicHex := by
  constructor
  · rintro ⟨other, hother, howns⟩
    obtain rfl := Option.some.inj (h.symm.trans hother)
    exact howns
  · exact fun howns => ⟨pair, h, howns⟩

end Wallet

namespace Session

/-- A wallet that was built from a private key holds that key. The sealed text is the hex of
the key, which is read as the pair of that key, and address and public key were taken from
the same pair. -/
theorem Entry.Made.holdsOwnKey {e : Entry} (h : e.Made) : e.wallet.HoldsOwnKey e.password :=
  ⟨KeyPair.ofSecret e.secret, Wallet.pair?_of_decrypt? h.decrypt? (KeyPair.ofHex_hex e.secret),
    h.address.symm, h.publicHex.symm⟩

/-! ### What the flows do -/

/-- What the ledger accepts was signed: without a signature nothing is sent that it could
accept. -/
theorem answered_eq_ok {α β : Type} {request : Except SignError α} {refusal? : Option String}
    {f : α → β} {y : β} (h : answered request refusal? f = .ok y) :
    ∃ x, request = .ok x ∧ refusal? = none ∧ f x = y := by
  cases request with
  | error e => cases h
  | ok x =>
      cases refusal? with
      | some text => cases h
      | none => exact ⟨x, rfl, rfl, Except.ok.inj h⟩

/-- What is signed is the proof, and it is sent as it was signed. -/
theorem data_of_signedProof {pair : KeyPair} {proof : Proof} {request : Signed Proof}
    (h : signedProof pair proof = .ok request) : request.data = proof := by
  rw [signedProof] at h
  cases hsign : Signing.signPayload pair.secret proof.toPayload with
  | error e =>
      rw [hsign] at h
      cases h
  | ok signature =>
      rw [hsign] at h
      rw [← Except.ok.inj h]

section Flows
variable {σ : Type} [Store σ] {s : Settings} {pool : List Wallet} {password : String}
  {before after : World σ}

/-- The active wallet is the first one of the list. No mark in the pool says which one is
active. -/
theorem run_active_of_list {c : Pool.Context σ} (hlist : ((Pool.list s).run c).1 = .ok pool) :
    ((Pool.active s).run c).1 = .ok pool.head? := by
  cases hrun : (Pool.list s).run c with
  | mk result c' =>
      rw [hrun] at hlist
      obtain rfl : result = .ok pool := hlist
      rw [Pool.active, run_bind_ok hrun]
      rfl

/-- What was unlocked is the first wallet of the list, with the pair that is sealed in it. -/
theorem unlockActive_pair (hlist : ((Pool.list s).run before.context).1 = .ok pool)
    {w : Wallet} {pair : KeyPair}
    (hunlock : (unlockActive s password).run before = (.ok (w, pair), after)) :
    pool.head? = some w ∧ w.pair? password = some pair ∧ pair = KeyPair.ofSecret pair.secret ∧
      after.ledger = before.ledger := by
  obtain ⟨hledger, hfound⟩ := unlockActive_spec s password before
  rw [hunlock] at hledger hfound
  obtain ⟨hactive, text, htext, hpair⟩ := hfound w pair rfl
  exact ⟨Except.ok.inj ((run_active_of_list hlist).symm.trans hactive),
    Wallet.pair?_of_decrypt? htext hpair, KeyPair.eq_ofSecret_of_ofHex hpair, hledger⟩

/-- A wallet that is connected anew is the first of the list. What the ledger was sent names
the pair that is sealed in it, which need not be the pair of the wallet's own address. -/
theorem reauthenticate_pair (hlist : ((Pool.list s).run before.context).1 = .ok pool) {w : Wallet}
    (hrun : (reauthenticate s password).run before = (.ok w, after)) :
    pool.head? = some w ∧ ∃ pair request, w.pair? password = some pair ∧
      after.ledger.received = before.ledger.received ++ [.connect request] ∧
      ConnectSigned request ∧ request.data.address = pair.address ∧
      request.data.publicHex = pair.publicHex := by
  obtain ⟨⟨active, pair⟩, mid, hunlock, -⟩ := exists_of_run_bind_ok hrun
  obtain ⟨hactive, hpair, hsecret, hledger⟩ := unlockActive_pair hlist hunlock
  -- The flow succeeds, so the proof was signed and the ledger took it.
  obtain ⟨after', hflow, hreceived⟩ := run_reauthenticate hunlock
  obtain ⟨hanswer, rfl⟩ := Prod.mk.inj (hflow.symm.trans hrun)
  obtain ⟨request, hrequest, -, rfl⟩ := answered_eq_ok hanswer
  rw [hrequest, hledger] at hreceived
  refine ⟨hactive, pair, request, hpair, hreceived, connectSigned_of_signedProof hsecret hrequest,
    ?_, ?_⟩
  all_goals
    rw [data_of_signedProof hrequest]
    rfl

/-- A payload is signed with the pair that is sealed in the first wallet of the list. Nothing
is said of the wallet's address or public key, because nothing compares them with the pair. -/
theorem submit_pair (hlist : ((Pool.list s).run before.context).1 = .ok pool) {payload : Payload}
    {request : Signed Json}
    (hrun : (submit s password payload).run before = (.ok request, after)) :
    ∃ w pair, pool.head? = some w ∧ w.pair? password = some pair ∧
      Signing.verify pair.publicHex (.ofJson request.data) request.signature = true ∧
      Signing.verify pair.publicHex payload request.signature = true := by
  obtain ⟨⟨active, pair⟩, mid, hunlock, -⟩ := exists_of_run_bind_ok hrun
  obtain ⟨hactive, hpair, hsecret, -⟩ := unlockActive_pair hlist hunlock
  obtain ⟨after', hflow, -⟩ := run_submit hunlock payload
  obtain ⟨hanswer, -⟩ := Prod.mk.inj (hflow.symm.trans hrun)
  obtain ⟨signed, hsigned, -, rfl⟩ := answered_eq_ok hanswer
  exact ⟨active, pair, hactive, hpair, (verify_of_signedData hsecret hsigned).2⟩

/-- The pair that an address unlocks is sealed in the first wallet of that address. The
password alone decides whether the text opens, and the text alone which pair it is. -/
theorem unlock_pair {c : Pool.Context σ} (hlist : ((Pool.list s).run c).1 = .ok pool)
    {address : String} {pair : KeyPair}
    (hrun : ((Pool.unlock s address password).run c).1 = .ok (some pair)) :
    ∃ w, (pool.find? fun v => v.address == address) = some w ∧ w.pair? password = some pair := by
  cases hread : (Pool.list s).run c with
  | mk result c' =>
      rw [hread] at hlist
      obtain rfl : result = .ok pool := hlist
      rw [Pool.unlock, run_bind_ok hread] at hrun
      -- An unknown address, a wrong password and a text that is no key each give no pair.
      cases hfind : pool.find? fun v => v.address == address with
      | none =>
          rw [hfind] at hrun
          cases Except.ok.inj hrun
      | some w =>
          refine ⟨w, rfl, ?_⟩
          rw [hfind] at hrun
          dsimp only at hrun
          cases htext : w.decrypt? password with
          | none =>
              rw [htext] at hrun
              cases Except.ok.inj hrun
          | some text =>
              rw [htext] at hrun
              dsimp only at hrun
              cases hpair : KeyPair.ofHex text with
              | error e =>
                  rw [hpair] at hrun
                  cases hrun
              | ok found =>
                  rw [hpair] at hrun
                  rw [← Option.some.inj (Except.ok.inj hrun)]
                  exact Wallet.pair?_of_decrypt? htext hpair

end Flows

/-! ### What a session puts into a pool -/

section Runs
variable {σ : Type} [Store σ] [Store.Sound σ] {s : Settings} {entries : List Entry}

/-- Any step leaves entries from before or its own one. Removing the pool as if it were a
backup is allowed here: it leaves none. -/
theorem holds_next_any {store : σ} (h : Holds s store entries) (step : Step) :
    ∃ left, left.Sublist
        (entries ++ (step.op.added? s (step.start store).context).toList) ∧
      Holds s (step.next s store) left := by
  by_cases hop : step.op = .removeByKey s.poolKey
  · have hnext : step.next s store = ((Pool.removeByKey s s.poolKey).run
        (step.start store).context).2.store.store := by
      obtain ⟨op, entropy, now, gets, puts, deletes, refuseConnect, refuseSubmit⟩ := step
      obtain rfl : op = .removeByKey s.poolKey := hop
      exact congrArg (fun r : Except SessionError Bool × World (Faulty σ) =>
        r.2.context.store.store) (run_onPool (Pool.removeByKey s s.poolKey) _)
    rw [hnext]
    -- The key of the pool as a backup takes all wallets or none.
    rcases Pool.stored_removeByKey_poolKey (c := (step.start store).context) h.stored with
      hsame | hnone
    · exact ⟨entries, List.sublist_append_left _ _, hsame, h.made, h.nodup⟩
    · exact ⟨[], List.nil_sublist _, hnone, fun _ he => absurd he List.not_mem_nil,
        List.nodup_nil⟩
  · obtain ⟨left, houtcome, hleft⟩ := holds_next h step hop
    exact ⟨left, houtcome.sublist, hleft⟩

/-- After any run the pool is made of entries from before and those of its history. Induction
on the steps. Other than in `holds_run` no step is excluded, so the pool may also be lost,
and it is a sublist in any case. -/
theorem holds_run_any (steps : List Step) {store : σ} (h : Holds s store entries) :
    ∃ left, left.Sublist (entries ++ history s steps store) ∧ Holds s (run s steps store) left := by
  induction steps generalizing store entries with
  | nil =>
      refine ⟨entries, ?_, h⟩
      rw [history, List.append_nil]
  | cons step rest ih =>
      obtain ⟨middle, hsublist, hmiddle⟩ := holds_next_any h step
      obtain ⟨left, hleft, hholds⟩ := ih hmiddle
      refine ⟨left, hleft.trans ?_, hholds⟩
      rw [history, ← List.append_assoc]
      exact hsublist.append_right _

end Runs

/-- The key that signs is the one that is sealed in the wallet that is named. This holds over any
store whose pool can be listed, also of a pool that was written elsewhere, for any password and any
ledger.

* Connecting anew names the first wallet of the list. The ledger was sent a proof of the pair that
  is sealed in it; the proof has the address and the public key of the wallet exactly if the wallet
  holds its own key.
* What is submitted is verified under the public key of the pair that is sealed in the first
  wallet, so under the wallet's public key if it holds its own key.
* The pair that an address unlocks is sealed in the first wallet of that address; it has that
  address if the wallet holds its own key.

All wallets that come into a pool in a run, whatever fails in it, hold their own keys under their
passwords. -/
theorem signing_key (s : Settings) :
    (∀ (σ : Type) [Store σ] (before : World σ) (pool : List Wallet) (password : String),
      ((Pool.list s).run before.context).1 = .ok pool →
      (∀ w after, (reauthenticate s password).run before = (.ok w, after) →
        pool.head? = some w ∧ ∃ pair request, w.pair? password = some pair ∧
          after.ledger.received = before.ledger.received ++ [.connect request] ∧
          ConnectSigned request ∧
          request.data.address = pair.address ∧ request.data.publicHex = pair.publicHex ∧
          (w.HoldsOwnKey password ↔
            request.data.address = w.address ∧ request.data.publicHex = w.publicHex)) ∧
      (∀ payload request after, (submit s password payload).run before = (.ok request, after) →
        ∃ w pair, pool.head? = some w ∧ w.pair? password = some pair ∧
          Signing.verify pair.publicHex (.ofJson request.data) request.signature = true ∧
          (w.HoldsOwnKey password →
            Signing.verify w.publicHex (.ofJson request.data) request.signature = true ∧
            Signing.verify w.publicHex payload request.signature = true)) ∧
      ∀ address pair, ((Pool.unlock s address password).run before.context).1 = .ok (some pair) →
        ∃ w, (pool.find? fun v => v.address == address) = some w ∧
          w.pair? password = some pair ∧ (w.HoldsOwnKey password → pair.address = address)) ∧
    ∀ (σ : Type) [Store σ] [Store.Sound σ] (steps : List Step) (store : σ),
      Store.Sound.lookup s.poolKey store = none →
      ∃ entries : List Entry, entries.Sublist (history s steps store) ∧
        Pool.stored s (run s steps store) = .ok (entries.map Entry.wallet) ∧
        ∀ e ∈ entries, e.wallet.HoldsOwnKey e.password := by
  refine ⟨fun σ _ before pool password hlist => ⟨fun w after hrun => ?_,
    fun payload request after hrun => ?_, fun address pair hrun => ?_⟩,
    fun σ _ _ steps store hempty => ?_⟩
  · obtain ⟨hactive, pair, request, hpair, hreceived, hsigned, haddress, hpublic⟩ :=
      reauthenticate_pair hlist hrun
    refine ⟨hactive, pair, request, hpair, hreceived, hsigned, haddress, hpublic, ?_⟩
    rw [haddress, hpublic]
    exact Wallet.holdsOwnKey_iff hpair
  · obtain ⟨w, pair, hactive, hpair, hdata, hpayload⟩ := submit_pair hlist hrun
    refine ⟨w, pair, hactive, hpair, hdata, fun howns => ?_⟩
    rw [← ((Wallet.holdsOwnKey_iff hpair).1 howns).2]
    exact ⟨hdata, hpayload⟩
  · obtain ⟨w, hfind, hpair⟩ := unlock_pair hlist hrun
    refine ⟨w, hfind, hpair, fun howns => ?_⟩
    have hnamed : (w.address == address) = true :=
      List.find?_some (p := fun v : Wallet => v.address == address) hfind
    exact ((Wallet.holdsOwnKey_iff hpair).1 howns).1.trans (beq_iff_eq.1 hnamed)
  -- What a run leaves was built from private keys, so it holds them.
  · obtain ⟨left, hleft, hholds⟩ := holds_run_any steps (holds_nil hempty)
    exact ⟨left, hleft, hholds.stored, fun e he => (hholds.made e he).holdsOwnKey⟩

/-- A private key that is not the least one. -/
def second : Secret := ⟨2, by decide, by decide⟩

/-- A wallet that is known as the one of a private key and holds the least private key. -/
def labelled (label : Secret) : Wallet :=
  ⟨(KeyPair.ofSecret label).address, (KeyPair.ofSecret label).publicHex,
    SealedKey.encryptWith (List.replicate 12 0) least.hex "password", .epoch⟩

/-- A world with that wallet as the only one. The bytes for its first proof come next. -/
def labelledWorld (label : Secret) : World (Faulty Memory) :=
  { newWorld with
    context :=
      { newWorld.context with
        store := .sound ⟨[(oldSettings.poolKey, Wallet.poolText [labelled label])]⟩
        entropy := (newWorld.context.entropy.draw Gcm.ivLength).2 } }

/-- A labelled wallet has the address of its label. -/
theorem address_labelled (label : Secret) :
    (labelled label).address = (KeyPair.ofSecret label).address :=
  rfl

/-- A labelled wallet has the public key of its label. -/
theorem publicHex_labelled (label : Secret) :
    (labelled label).publicHex = (KeyPair.ofSecret label).publicHex :=
  rfl

/-- Whatever its label is, the least private key is sealed in the wallet. -/
theorem decrypt?_labelled (label : Secret) :
    (labelled label).decrypt? "password" = some least.hex := by
  rw [Wallet.decrypt?, labelled]
  exact SealedKey.decrypt?_encryptWith rfl least.hex "password"

/-- The pair that is sealed in a labelled wallet is that of the least private key. -/
theorem pair?_labelled (label : Secret) :
    (labelled label).pair? "password" = some (KeyPair.ofSecret least) :=
  Wallet.pair?_of_decrypt? (decrypt?_labelled label) (KeyPair.ofHex_hex least)

/-- The wallet is listed. The pool is the text of one wallet, which is read back because its
instant is the epoch. -/
theorem list_labelledWorld (label : Secret) :
    (Pool.list oldSettings).run (labelledWorld label).context
      = (.ok [labelled label], (labelledWorld label).context.afterGet) :=
  have hleap : ∀ w ∈ [labelled label], w.createdAt.LeapLast :=
    List.forall_mem_singleton.2 (by decide : Instant.epoch.LeapLast)
  Pool.list_ok (Pool.stored_singleton oldSettings hleap) rfl

/-- The wallet is unlocked, whichever it is known as, because only the sealed text and the
password decide. -/
theorem unlockActive_labelledWorld (label : Secret) :
    (unlockActive oldSettings "password").run (labelledWorld label)
      = (.ok (labelled label, KeyPair.ofSecret least),
          (labelledWorld label).withContext (labelledWorld label).context.afterGet) :=
  run_unlockActive_of_list (list_labelledWorld label) (decrypt?_labelled label)
    (KeyPair.ofHex_hex least)

/-- So is the first wallet of its address. It opens to the least key and not to that of its
label, because nothing compares the two. -/
theorem unlock_labelledWorld (label : Secret) :
    ((Pool.unlock oldSettings (labelled label).address "password").run
      (labelledWorld label).context).1 = .ok (some (KeyPair.ofSecret least)) :=
  congrArg Prod.fst (run_unlock_of_list (list_labelledWorld label)
    (List.find?_cons_of_pos (beq_self_eq_true _)) (decrypt?_labelled label)
    (KeyPair.ofHex_hex least))

/-- Its proof is the one that the other world makes first. The labelled world has the source
that the other one has behind its first draw, so what was proved of the one proof is proved
of the other. -/
theorem proof_labelledWorld (label : Secret) (pair : KeyPair) :
    ((labelledWorld label).withContext (labelledWorld label).context.afterGet).proof pair
      = newWorld.firstProof pair :=
  rfl

/-- It is connected anew, whichever it is known as. The proof is signed by the key in the
entry, which is the least one for every label. -/
theorem reauthenticate_labelledWorld (label : Secret) :
    ∃ after, (reauthenticate oldSettings "password").run (labelledWorld label)
      = (.ok (labelled label), after) := by
  obtain ⟨signature, hsign⟩ := newWorld_suits.exists_signPayload
  obtain ⟨after, hrun, -⟩ := run_reauthenticate (unlockActive_labelledWorld label)
  rw [proof_labelledWorld, signedProof, hsign] at hrun
  exact ⟨after, hrun⟩

/-- The least private key signs a payload, and not in the name of the other one. -/
theorem signedData_least : ∃ request, signedData (KeyPair.ofSecret least) (.text "hello")
    = .ok request ∧
      Signing.verify (KeyPair.ofSecret second).publicHex (.ofJson request.data) request.signature
        = false := by
  have hcomputed :
      ((signedData (KeyPair.ofSecret least) (.text "hello")).toOption.map fun request =>
        Signing.verify (KeyPair.ofSecret second).publicHex (.ofJson request.data)
          request.signature) = some false := by
    decide +kernel
  cases hsigned : signedData (KeyPair.ofSecret least) (.text "hello") with
  | error e =>
      rw [hsigned] at hcomputed
      cases hcomputed
  | ok request =>
      rw [hsigned] at hcomputed
      exact ⟨request, rfl, Option.some.inj hcomputed⟩

/-- A payload is submitted with the wallet, and the signature is not that of the second key. -/
theorem submit_labelledWorld (label : Secret) :
    ∃ request after, (submit oldSettings "password" (.text "hello")).run (labelledWorld label)
        = (.ok request, after) ∧
      Signing.verify (KeyPair.ofSecret second).publicHex (.ofJson request.data) request.signature
        = false := by
  obtain ⟨request, hsigned, hforeign⟩ := signedData_least
  obtain ⟨after, hrun, -⟩ := run_submit (unlockActive_labelledWorld label) (.text "hello")
  rw [hsigned] at hrun
  exact ⟨request, after, hrun, hforeign⟩

/-- A wallet that holds its own key signs for itself, and a wallet that is added is one. -/
theorem signing_key_own :
    (∃ w after request, (reauthenticate oldSettings "password").run (labelledWorld least)
        = (.ok w, after) ∧
      after.ledger.received = [.connect request] ∧ ConnectSigned request ∧
      request.data.address = w.address ∧ request.data.publicHex = w.publicHex) ∧
    (∃ request after, (submit oldSettings "password" (.text "hello")).run (labelledWorld least)
        = (.ok request, after) ∧
      Signing.verify (labelled least).publicHex (.ofJson request.data) request.signature = true) ∧
    (∃ pair, ((Pool.unlock oldSettings (labelled least).address "password").run
        (labelledWorld least).context).1 = .ok (some pair) ∧
      pair.address = (labelled least).address) ∧
    ∃ entries : List Entry, Pool.stored oldSettings
        (run oldSettings [.plain (.add least.hex "password") none] Memory.empty)
          = .ok (entries.map Entry.wallet) ∧
      ∀ e ∈ entries, e.wallet.HoldsOwnKey e.password := by
  -- The wallet of the least key is labelled as what it is, so it holds its own key.
  have howns : (labelled least).HoldsOwnKey "password" :=
    ⟨KeyPair.ofSecret least, pair?_labelled least, (address_labelled least).symm,
      (publicHex_labelled least).symm⟩
  have hlist : ((Pool.list oldSettings).run (labelledWorld least).context).1
      = .ok [labelled least] := congrArg Prod.fst (list_labelledWorld least)
  obtain ⟨hnamed, hruns⟩ := signing_key oldSettings
  obtain ⟨hconnects, hsubmits, hunlocks⟩ :=
    hnamed (Faulty Memory) (labelledWorld least) [labelled least] "password" hlist
  refine ⟨?_, ?_, ?_, ?_⟩
  · obtain ⟨after, hrun⟩ := reauthenticate_labelledWorld least
    obtain ⟨-, pair, request, -, hreceived, hsigned, -, -, hiff⟩ := hconnects _ after hrun
    exact ⟨labelled least, after, request, hrun, hreceived, hsigned, hiff.1 howns⟩
  · obtain ⟨request, after, hrun, -⟩ := submit_labelledWorld least
    obtain ⟨w, pair, hactive, -, -, hverify⟩ := hsubmits (.text "hello") request after hrun
    obtain rfl : labelled least = w := Option.some.inj hactive
    exact ⟨request, after, hrun, (hverify howns).1⟩
  · obtain ⟨w, hfind, -, haddress⟩ := hunlocks (labelled least).address (KeyPair.ofSecret least)
      (unlock_labelledWorld least)
    obtain rfl : w = labelled least :=
      List.mem_singleton.1 (List.mem_of_find?_eq_some hfind)
    exact ⟨_, unlock_labelledWorld least, haddress howns⟩
  · obtain ⟨entries, -, hstored, howned⟩ :=
      hruns Memory [.plain (.add least.hex "password") none] Memory.empty rfl
    exact ⟨entries, hstored, howned⟩

/-- A wallet that holds another key than it is known by. It is connected anew with a proof of the
other address and the other public key; what is submitted is not signed in its name; and its
address unlocks a pair of another address. -/
theorem signing_key_foreign :
    ((Pool.list oldSettings).run (labelledWorld second).context).1 = .ok [labelled second] ∧
    (∃ after request, (reauthenticate oldSettings "password").run (labelledWorld second)
        = (.ok (labelled second), after) ∧
      after.ledger.received = [.connect request] ∧
      request.data.address ≠ (labelled second).address ∧
      request.data.publicHex ≠ (labelled second).publicHex) ∧
    (∃ request after, (submit oldSettings "password" (.text "hello")).run (labelledWorld second)
        = (.ok request, after) ∧
      Signing.verify (labelled second).publicHex (.ofJson request.data) request.signature
        = false) ∧
    ∃ pair, ((Pool.unlock oldSettings (labelled second).address "password").run
        (labelledWorld second).context).1 = .ok (some pair) ∧
      pair.address ≠ (labelled second).address := by
  -- The label and the key inside differ in address and in public key, by computation.
  have haddress : (KeyPair.ofSecret least).address ≠ (labelled second).address := by
    rw [address_labelled]
    decide +kernel
  have hpublic : (KeyPair.ofSecret least).publicHex ≠ (labelled second).publicHex := by
    rw [publicHex_labelled]
    intro heq
    exact absurd (congrArg Secret.scalar (KeyPair.eq_of_publicHex_eq heq)) (by decide)
  have hlist : ((Pool.list oldSettings).run (labelledWorld second).context).1
      = .ok [labelled second] := congrArg Prod.fst (list_labelledWorld second)
  refine ⟨hlist, ?_, submit_labelledWorld second, _, unlock_labelledWorld second, haddress⟩
  -- The proof names the pair in the wallet, which is that of the least key.
  obtain ⟨after, hrun⟩ := reauthenticate_labelledWorld second
  obtain ⟨-, pair, request, hpair, hreceived, -, hnamed, hkey⟩ := reauthenticate_pair hlist hrun
  obtain rfl := Option.some.inj ((pair?_labelled second).symm.trans hpair)
  refine ⟨after, request, hrun, hreceived, ?_, ?_⟩
  · rw [hnamed]
    exact haddress
  · rw [hkey]
    exact hpublic

end Session
end Keyring
