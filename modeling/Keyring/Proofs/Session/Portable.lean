import Keyring.Proofs.Session.Requests
import Keyring.Proofs.Session.Wire

/-!
# `Keyring.Proofs.Session.Portable`: backups restore wallets elsewhere

A backup that one session gave out restores the wallet in every session of the
same domain: the wallet is encrypted under a new password, stored and connected,
and a new backup of it is given out.

* `GaveOut`: the ways in which a session gives out a backup of a wallet.
* `GaveOut.made`: such a backup holds the private key of that wallet.
* `importWallet_outcome`: importing a backup of a private key stores and connects its pair.
* `importWallet_decided`: with a store that answers, the ledger decides about a new wallet.
* `backup_portable`: so what was given out by one session is restored in another.
-/

set_option autoImplicit false

namespace Keyring

variable {σ : Type} [Store σ]

/-! ### What is given out -/

/-- A wallet that is added is made from its private key under its password. -/
theorem Pool.yields_add (s : Settings) (secret : Secret) (password : String) :
    Yields (fun added => ∀ w, added = .added w → (⟨secret, password, w⟩ : Session.Entry).Made)
      (Pool.add s (KeyPair.ofSecret secret) password : Pool.Action σ Pool.Added) := by
  refine yields_bind _ fun pool => ?_
  split
  · refine yields_pure fun w h => ?_
    cases h
  · -- The sealed key is made with the vector that is drawn, whichever it is.
    have hdraw : Yields (fun key => ∃ e, key = (SealedKey.encrypt e secret.hex password).1)
        (Pool.draw fun e => SealedKey.encrypt e secret.hex password :
          Pool.Action σ SealedKey) :=
      fun c key h => ⟨c.entropy, (Except.ok.inj h).symm⟩
    refine hdraw.bind fun key hkey => ?_
    refine yields_bind _ fun c => ?_
    refine yields_bind _ fun _ => yields_pure fun w hw => ?_
    rw [← Pool.Added.added.inj hw]
    exact ⟨rfl, rfl, hkey⟩

namespace Session

omit [Store σ] in
/-- What an action on the pool yields it yields in the session. Its values are handed on as
they are; only errors are told in another way. -/
theorem yields_onPool {α : Type} {good : α → Prop} {act : Pool.Action σ α} (h : Yields good act) :
    Yields good (onPool act) := by
  intro w x hx
  rw [run_onPool] at hx
  cases hresult : (act.run w.context).1 with
  | error e =>
      rw [hresult] at hx
      cases hx
  | ok y =>
      rw [hresult] at hx
      rw [← Except.ok.inj hx]
      exact h w.context y hresult

omit [Store σ] in
/-- A backup that is given out is imported again, under the settings that it was exported
with. -/
theorem yields_backup (s : Settings) (pair : KeyPair) :
    Yields (fun text => Backup.import? s.domain text = some pair.secret.hex)
      (backup s pair : Action σ String) := by
  intro w text h
  rw [run_backup] at h
  rw [← Except.ok.inj h]
  exact Backup.import?_exportText _ _ _

/-- A wallet that is connected is made from its private key, and its backup holds that key. -/
theorem yields_storeAndConnect (s : Settings) (secret : Secret) (password : String) :
    Yields (fun connected => (⟨secret, password, connected.wallet⟩ : Entry).Made ∧
        Backup.import? s.domain connected.backup = some secret.hex)
      (storeAndConnect s (KeyPair.ofSecret secret) password : Action σ Connected) := by
  refine yields_bind _ fun _ => ?_
  refine Yields.bind (yields_onPool (Pool.yields_add s secret password)) fun added hadded => ?_
  split
  · exact yields_throw _
  · -- The wallet was added; of what follows only the backup is given out too.
    rename_i w
    refine yields_bind _ fun _ => ?_
    refine yields_bind _ fun request => ?_
    refine yields_bind _ fun _ => ?_
    refine yields_bind _ fun refusal? => ?_
    split
    · exact yields_bind _ fun _ => yields_throw _
    · refine Yields.bind (yields_backup s (KeyPair.ofSecret secret)) fun text htext => ?_
      exact yields_bind _ fun _ => yields_pure ⟨hadded w rfl, htext⟩

/-- A session gave out this backup of a wallet that was added under a password: when the wallet was
made or imported, or when it was exported as the active one. The store may be any, and the wallet
may have been added at any time. -/
inductive GaveOut (s : Settings) (password : String) (wallet : Wallet) (backup : String) : Prop
  | connected {σ : Type} [Store σ] (origin : Origin) (before : World σ) :
      ((origin.flow s password).run before).1 = .ok ⟨wallet, backup⟩ →
      GaveOut s password wallet backup
  | exported {σ : Type} [Store σ] (secret : Secret) (added : Pool.Context σ) (before : World σ) :
      ((Pool.add s (KeyPair.ofSecret secret) password).run added).1 = .ok (.added wallet) →
      ((Pool.active s).run before.context).1 = .ok (some wallet) →
      ((exportActive s password).run before).1 = .ok backup →
      GaveOut s password wallet backup

/-- The backup that is exported while a wallet is the active one holds its private key. -/
theorem import?_of_exportActive {s : Settings} {e : Entry} (hmade : e.Made) {before : World σ}
    (hactive : ((Pool.active s).run before.context).1 = .ok (some e.wallet)) {backup : String}
    (hexport : ((exportActive s e.password).run before).1 = .ok backup) :
    Backup.import? s.domain backup = some e.secret.hex := by
  obtain ⟨-, hunlocked⟩ := unlockActive_spec s e.password before
  cases hunlock : (unlockActive s e.password).run before with
  | mk result after =>
      cases result with
      | error failure =>
          rw [exportActive, run_bind_error hunlock] at hexport
          cases hexport
      | ok found =>
          -- What was unlocked is this wallet, so its private key is the one in the backup.
          obtain ⟨hfound, key, hkey, hpair⟩ := hunlocked found.1 found.2 (by rw [hunlock])
          have hwallet : e.wallet = found.1 :=
            Option.some.inj (Except.ok.inj (hactive.symm.trans hfound))
          rw [← hwallet, hmade.decrypt?] at hkey
          rw [← Option.some.inj hkey, KeyPair.ofHex_hex] at hpair
          rw [run_exportActive hunlock, ← Except.ok.inj hpair] at hexport
          rw [← Except.ok.inj hexport]
          exact Backup.import?_exportText _ _ _

/-- A backup that was given out holds the private key of its wallet. There are two ways: with
a wallet that was connected, and by exporting the active one. The wallet may have gone from
its pool since then; the backup does not depend on it. -/
theorem GaveOut.made {s : Settings} {password : String} {wallet : Wallet} {backup : String}
    (h : GaveOut s password wallet backup) : ∃ secret, (⟨secret, password, wallet⟩ : Entry).Made ∧
      Backup.import? s.domain backup = some secret.hex := by
  cases h with
  | connected origin before hrun =>
      rcases run_flow_cases s origin password before with
        ⟨-, e, after, hfails, -⟩ | ⟨pair, start, hpair, -, -, hflow⟩
      · rw [hfails] at hrun
        cases hrun
      · rw [hflow, Origin.eq_ofSecret hpair] at hrun
        exact ⟨pair.secret, yields_storeAndConnect s pair.secret password start _ hrun⟩
  | exported secret added before hadd hactive hexport =>
      have hmade := Pool.yields_add s secret password added _ hadd wallet rfl
      exact ⟨secret, hmade, import?_of_exportActive hmade hactive hexport⟩

/-! ### What is restored -/

/-- The secret number that is derived to sign the first proof of a pair suits. -/
def World.Suits (w : World σ) (pair : KeyPair) : Prop :=
  Nonce.Suits pair.secret.scalar
    (Sha256.digest (Bytes.ofText (String.ofList (w.firstProof pair).canonicalChars))).toNat

omit [Store σ] in
/-- The first proof of a pair is signed, if the secret number suits. That it has a canonical
text is no condition, because its fields are in range. -/
theorem World.Suits.exists_signPayload {w : World σ} {pair : KeyPair} (h : w.Suits pair) :
    ∃ signature,
      Signing.signPayload pair.secret (w.firstProof pair).toPayload = .ok signature := by
  obtain ⟨signature, hsign⟩ := Signing.exists_signText_of_suits h
  exact ⟨signature, Signing.signPayload_eq_ok_iff.2
    ⟨_, Proof.canonical_toPayload (Proof.inRange_make _ _ _), hsign⟩⟩

variable {s : Settings} {secret : Secret} {backup : String} {pool : List Wallet}
  {before : World (Faulty σ)}

omit [Store σ] in
/-- A backup of a private key gives its pair, whatever is drawn. An import draws nothing for
the key, since the backup has it. -/
theorem Origin.pair?_backup (h : Backup.import? s.domain backup = some secret.hex) (e : Entropy) :
    (Origin.backup backup).pair? s e = some (KeyPair.ofSecret secret) := by
  rw [Origin.pair?, h, Option.bind_some, KeyPair.ofHex_hex]
  rfl

variable [Store.Sound σ]

/-- Importing a backup of a private key stores and connects its pair, and ends in one of the
five ways in which that can end. The outcomes are told apart by what the store and the ledger
did, which the theorems below decide one by one. -/
theorem importWallet_outcome (h : Backup.import? s.domain backup = some secret.hex)
    (hpool : before.stored s = .ok pool) (password : String) :
    ∃ start result after, start.context = before.context ∧ start.ledger = before.ledger ∧
      start.stored s = .ok pool ∧
      (storeAndConnect s (KeyPair.ofSecret secret) password).run start = (result, after) ∧
      (importWallet s backup password).run before = (result, after) ∧
      ConnectOutcome s (KeyPair.ofSecret secret) password pool start result after := by
  have hpair := Origin.pair?_backup h before.context.entropy
  rcases run_flow_cases s (.backup backup) password before with
    ⟨hnone, -⟩ | ⟨pair, start, hsome, hcontext, hledger, hrun⟩
  · -- The backup is one of a private key, so there is a pair.
    cases hpair.symm.trans hnone
  · obtain rfl := Option.some.inj (hpair.symm.trans hsome)
    have hstart : start.stored s = .ok pool := by
      rw [World.stored, hcontext]
      exact hpool
    obtain ⟨result, after, hconnect, houtcome⟩ :=
      storeAndConnect_cases hstart (KeyPair.ofSecret secret) password
    exact ⟨start, result, after, hcontext, hledger, hstart, hconnect, hrun.trans hconnect, houtcome⟩

/-- With a store that answers and a secret number that suits, a backup of a private key that
the pool does not hold is stored, and the ledger decides about it. -/
theorem importWallet_decided (h : Backup.import? s.domain backup = some secret.hex)
    (hpool : before.stored s = .ok pool) (hget : before.context.store.gets.answers = true)
    (hput : before.context.store.puts.answers = true)
    (hsuits : before.Suits (KeyPair.ofSecret secret))
    (habsent : ¬Pool.Present (KeyPair.ofSecret secret) pool) (password : String) :
    ∃ start result after, (importWallet s backup password).run before = (result, after) ∧
      (storeAndConnect s (KeyPair.ofSecret secret) password).run start = (result, after) ∧
      ((before.ledger.refuseConnect = none ∧
        ∃ connected, result = .ok connected ∧ after.stored s = .ok (pool ++ [connected.wallet])) ∨
      ∃ text, before.ledger.refuseConnect = some text ∧ result = .error (.refused text) ∧
        after.stored s = .ok (rolledBack before.context.store pool
          (Pool.built (KeyPair.ofSecret secret) password before.context))) := by
  obtain ⟨start, result, after, hcontext, hledger, hstart, hconnect, hrun, houtcome⟩ :=
    importWallet_outcome h hpool password
  rw [← hcontext] at hget hput
  have hadd := (Pool.add_of_answers hstart (KeyPair.ofSecret secret) password hget).2 habsent hput
  obtain ⟨signature, hsign⟩ := hsuits.exists_signPayload
  have hfirst : start.firstProof (KeyPair.ofSecret secret)
      = before.firstProof (KeyPair.ofSecret secret) := by
    rw [World.firstProof, World.firstProof, hcontext]
  refine ⟨start, result, after, hrun, hconnect, ?_⟩
  -- The store answers and the proof is signed, so the outcomes that are left are the ledger's.
  cases houtcome with
  | unstored hrefused => cases hrefused.symm.trans hadd
  | duplicate hduplicate => cases hduplicate.symm.trans hadd
  | unsigned _ _ hunsigned =>
      rw [hfirst] at hunsigned
      cases hunsigned.symm.trans hsign
  | rejected _ _ _ hrefuse hstored =>
      rw [hcontext] at hstored
      exact .inr ⟨_, hledger ▸ hrefuse, rfl, hstored⟩
  | connected _ _ _ _ haccept hstored _ =>
      exact .inl ⟨hledger ▸ haccept, _, rfl, hstored⟩

/-- A backup of a private key that the pool does not hold is restored by a store that answers
and a ledger that accepts. -/
theorem importWallet_absent (h : Backup.import? s.domain backup = some secret.hex)
    (hpool : before.stored s = .ok pool) (hget : before.context.store.gets.answers = true)
    (hput : before.context.store.puts.answers = true) (haccept : before.ledger.refuseConnect = none)
    (hsuits : before.Suits (KeyPair.ofSecret secret))
    (habsent : ¬Pool.Present (KeyPair.ofSecret secret) pool) (password : String) :
    ∃ connected after, (importWallet s backup password).run before = (.ok connected, after) ∧
      after.stored s = .ok (pool ++ [connected.wallet]) ∧
      (⟨secret, password, connected.wallet⟩ : Entry).Made ∧
      Backup.import? s.domain connected.backup = some secret.hex := by
  obtain ⟨start, result, after, hrun, hconnect,
      ⟨-, connected, rfl, hstored⟩ | ⟨text, hrefuse, -⟩⟩ :=
    importWallet_decided h hpool hget hput hsuits habsent password
  · refine ⟨connected, after, hrun, hstored, ?_⟩
    exact yields_storeAndConnect s secret password start connected (by rw [hconnect])
  · -- The ledger accepts, so it was not a refusal.
    cases hrefuse.symm.trans haccept

/-- A backup of a private key that the pool holds is refused before the ledger hears of it. -/
theorem importWallet_present (h : Backup.import? s.domain backup = some secret.hex)
    (hpool : before.stored s = .ok pool) (hget : before.context.store.gets.answers = true)
    (hpresent : Pool.Present (KeyPair.ofSecret secret) pool) (password : String) :
    ∃ after, (importWallet s backup password).run before = (.error .duplicate, after) ∧
      after.stored s = .ok pool ∧ after.ledger = before.ledger := by
  obtain ⟨start, result, after, hcontext, hledger, hstart, -, hrun, houtcome⟩ :=
    importWallet_outcome h hpool password
  rw [← hcontext] at hget
  have hadd := (Pool.add_of_answers hstart (KeyPair.ofSecret secret) password hget).1 hpresent
  -- Only the outcome of a duplicate agrees with what adding answers.
  cases houtcome with
  | unstored hrefused => cases hrefused.symm.trans hadd
  | duplicate _ hstored hsame => exact ⟨after, hrun, hstored, hsame.trans hledger⟩
  | unsigned hadded => cases hadded.symm.trans hadd
  | rejected hadded => cases hadded.symm.trans hadd
  | connected _ hadded => cases hadded.symm.trans hadd

/-! ### From one session to another -/

/-- Is the wallet in a pool, under whatever password? -/
def Held (wallet : Wallet) (pool : List Wallet) : Prop :=
  ∃ v ∈ pool, v.publicHex = wallet.publicHex ∧ v.address = wallet.address

/-- The pair of an entry is present in a pool exactly if its wallet is held there, by its
public key and its address. -/
theorem Entry.Made.present_iff {e : Entry} (h : e.Made) (pool : List Wallet) :
    Pool.Present (KeyPair.ofSecret e.secret) pool ↔ Held e.wallet pool := by
  rw [Pool.Present, Held, h.publicHex, h.address]

/-- What a session comes to that restored a wallet with this private key behind the pool that it
had, under a password of its own. -/
structure Restored (s : Settings) (wallet : Wallet) (key password : String) (pool : List Wallet)
    (connected : Connected) (after : World (Faulty σ)) : Prop where
  /-- It is the wallet that the backup was given out for. -/
  address : connected.wallet.address = wallet.address
  publicHex : connected.wallet.publicHex = wallet.publicHex
  /-- It stands at the end of the pool. -/
  stored : after.stored s = .ok (pool ++ [connected.wallet])
  /-- Its private key is read back under the new password. -/
  decrypts : connected.wallet.decrypt? password = some key
  /-- The new backup holds that private key again. -/
  imports : Backup.import? s.domain connected.backup = some key

/-- Backups are portable. A backup that one session gave out is imported in every session of the
same domain under any password: a wallet that is not in the pool is restored, with its private key,
and one that is in the pool is a duplicate, of which the ledger does not hear. The calls to the
store must be answered, the ledger must accept, and the secret number for the proof must suit. -/
theorem backup_portable (s₁ s₂ : Settings) (hdomain : s₂.domain = s₁.domain) {oldPassword : String}
    {wallet : Wallet} {backup : String} (hgiven : GaveOut s₁ oldPassword wallet backup) :
    ∃ secret : Secret, wallet.decrypt? oldPassword = some secret.hex ∧
      ∀ (σ : Type) [Store σ] [Store.Sound σ] (password : String) (pool : List Wallet)
        (before : World (Faulty σ)), before.stored s₂ = .ok pool →
        before.context.store.gets.answers = true →
        (¬Held wallet pool → before.context.store.puts.answers = true →
          before.ledger.refuseConnect = none → before.Suits (KeyPair.ofSecret secret) →
          ∃ connected after, (importWallet s₂ backup password).run before = (.ok connected, after) ∧
            Restored s₂ wallet secret.hex password pool connected after) ∧
        (Held wallet pool →
          ∃ after, (importWallet s₂ backup password).run before = (.error .duplicate, after) ∧
            after.stored s₂ = .ok pool ∧ after.ledger = before.ledger) := by
  -- A backup that was given out holds the private key of its wallet, and the domains agree.
  obtain ⟨secret, hmade, himport⟩ := hgiven.made
  rw [← hdomain] at himport
  refine ⟨secret, hmade.decrypt?, fun σ _ _ password pool before hpool hget => ⟨?_, ?_⟩⟩
  · intro habsent hput haccept hsuits
    obtain ⟨connected, after, hrun, hstored, hnew, hagain⟩ := importWallet_absent himport hpool
      hget hput haccept hsuits (mt (hmade.present_iff pool).1 habsent) password
    exact ⟨connected, after, hrun, hnew.address.trans hmade.address.symm,
      hnew.publicHex.trans hmade.publicHex.symm, hstored, hnew.decrypt?, hagain⟩
  · intro hheld
    exact importWallet_present himport hpool hget ((hmade.present_iff pool).2 hheld) password

/-- The settings of a session, and those of another one that keeps its pool elsewhere. -/
def oldSettings : Settings := .ofSecret "secret"
def newSettings : Settings := ⟨"elsewhere", oldSettings.domain⟩

/-- A world without a pool. -/
def newWorld : World (Faulty Memory) := (Step.plain .list none).start Memory.empty

/-- The wallet of the least private key. -/
def moved : Wallet := Pool.built (KeyPair.ofSecret least) "password" newWorld.context

/-- A world with the wallet as the only one. -/
def oldWorld : World (Faulty Memory) :=
  (Step.plain .list none).start ⟨[(oldSettings.poolKey, Wallet.poolText [moved])]⟩

/-- The secret number for the first proof of the least key suits. The digest of the proof,
the number and the halves are computed. -/
theorem newWorld_suits : newWorld.Suits (KeyPair.ofSecret least) := by
  have hdigest : (Sha256.digest (Bytes.ofText (String.ofList
      (newWorld.firstProof (KeyPair.ofSecret least)).canonicalChars))).toNat
        = 0x53ad0dc4c80e586b670b0b623ed0c88c897a0215f26ff6069dc1a756c8119e4a := by
    decide +kernel
  rw [World.Suits, hdigest]
  refine ⟨0xd0e55450884913c92908e44361e559035cd36492e88bffd8ae44959a35d5653d,
    0xae0457ff685644bab114be422d5516602e2c72e64b71a61296fe25094419f805,
    0xed0e4356b7cb48026556e173a05a03784f4ed9d78ebb004e15e2c45c371b81ed, ?_, ?_, ?_, ?_⟩
  all_goals decide +kernel

/-- The wallet is exported from one session and imported into the other, under another
password. -/
theorem backup_portable_moved : ∃ backup,
    ((exportActive oldSettings "password").run oldWorld).1 = .ok backup ∧
    ∃ connected after, (importWallet newSettings backup "another").run newWorld
        = (.ok connected, after) ∧
      Restored newSettings moved least.hex "another" [] connected after := by
  have holdest : oldWorld.stored oldSettings = .ok [moved] :=
    Pool.stored_singleton oldSettings
      (List.forall_mem_singleton.2 newWorld.context.now.leapLast)
  have hactive : ((Pool.active oldSettings).run oldWorld.context).1 = .ok (some moved) := by
    rw [Pool.active, run_bind_ok (Pool.list_ok holdest rfl)]
    rfl
  have hempty : ∀ s : Settings, newWorld.stored s = .ok [] := fun s => (holds_nil rfl).stored
  have habsent : ¬Pool.Present (KeyPair.ofSecret least) [] := by simp [Pool.Present]
  have hadd : ((Pool.add oldSettings (KeyPair.ofSecret least) "password").run
      newWorld.context).1 = .ok (.added moved) :=
    (Pool.add_of_answers (hempty oldSettings) (KeyPair.ofSecret least) "password" rfl).2 habsent rfl
  have hmade := Pool.yields_add oldSettings least "password" newWorld.context _ hadd moved rfl
  have hexport := run_exportActive (run_unlockActive (w := oldWorld) hmade holdest rfl)
  refine ⟨_, congrArg Prod.fst hexport, ?_⟩
  obtain ⟨secret, hkey, hrestores⟩ := backup_portable oldSettings newSettings rfl
    (.exported least newWorld.context oldWorld hadd hactive (congrArg Prod.fst hexport))
  -- There is one private key that the wallet holds.
  have hhex : least.hex = secret.hex := Option.some.inj (hmade.decrypt?.symm.trans hkey)
  have hsecret : least = secret := by
    have hread := Secret.ofHex_hex least
    rw [hhex, Secret.ofHex_hex] at hread
    exact (Except.ok.inj hread).symm
  rw [← hsecret] at hrestores
  exact (hrestores Memory "another" [] newWorld (hempty newSettings) rfl).1
    (by simp [Held]) rfl rfl newWorld_suits

end Session
end Keyring
