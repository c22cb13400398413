import Keyring.Proofs.Pool.Lockstep
import Keyring.Proofs.Session.Flow

/-!
# `Keyring.Proofs.Session.TrustDomains`: what a password and the system's secret decide

A new wallet is sealed under the password, and its backup is made under the system's secret. Two
runs from the same world that differ in one of them are compared step by step (`Lockstep`).

* `lockstep_storeAndConnect`: the comparison of two runs, for any relation of stores that adding and
  taking back keep.
* `lockstep_flow`: two passwords.
* `lockstep_createWallet`: two domains of backups.
* `trust_domains`: so a password decides nothing but what is sealed, and the domain of the backups
  nothing but the backup.
-/

set_option autoImplicit false

namespace Keyring.Session

variable {σ α β : Type}

/-! ### Worlds with related stores -/

/-- Two worlds have related stores, and all else is the same. -/
structure World.Alike (stores : σ → σ → Prop) (w w' : World σ) : Prop where
  context : w.context.Alike stores w'.context
  ledger : w.ledger = w'.ledger
  stages : w.stages = w'.stages

/-- Worlds with the same store are the same, because they agree in everything else. -/
theorem World.Alike.eq {w w' : World σ} (h : w.Alike Eq w') : w = w' := by
  obtain ⟨context, ledger, stages⟩ := w
  obtain ⟨context', ledger', stages'⟩ := w'
  obtain ⟨hcontext, rfl, rfl⟩ := h
  have hsame : context = context' := hcontext.eq
  rw [hsame]

/-! ### The parts of a flow -/

section Parts
variable {stores : σ → σ → Prop} {values : α → β → Prop}

/-- The same stage is reported in both worlds. The stages so far are equal, so they are equal
still. -/
theorem lockstep_report (stage : Stage) :
    Lockstep (World.Alike stores) Eq (report stage : Action σ Unit) (report stage) := by
  intro w w' halike
  refine ⟨.ok rfl, halike.context, halike.ledger, ?_⟩
  show w.stages ++ [stage] = w'.stages ++ [stage]
  rw [halike.stages]

/-- The ledger that is sent the same message answers the same. The two ledgers are equal,
with all that they received. -/
theorem lockstep_send (message : Message) :
    Lockstep (World.Alike stores) Eq (send message : Action σ (Option String)) (send message) := by
  intro w w' halike
  rw [run_send, run_send]
  refine ⟨.ok (by rw [halike.ledger]), halike.context, ?_, halike.stages⟩
  rw [World.afterSend, World.afterSend, halike.ledger]

/-- Actions on the pool that go in lockstep do so in the session. -/
theorem lockstep_onPool {act : Pool.Action σ α} {act' : Pool.Action σ β}
    (h : Lockstep (Pool.Context.Alike stores) values act act') :
    Lockstep (World.Alike stores) values (onPool act) (onPool act') := by
  intro w w' halike
  obtain ⟨hagree, hcontext⟩ := h w.context w'.context halike.context
  rw [run_onPool, run_onPool]
  exact ⟨hagree.mapError SessionError.pool, hcontext, halike.ledger, halike.stages⟩

/-- Whatever an action on the pool comes to, the flow goes on. Success and failure are told
apart in the value, and by the hypothesis the two runs come to the same of them. -/
theorem lockstep_attempt {act : Pool.Action σ α} {act' : Pool.Action σ β}
    (h : Lockstep (Pool.Context.Alike stores) values act act') :
    Lockstep (World.Alike stores) (Agree values) (attempt act) (attempt act') := by
  intro w w' halike
  obtain ⟨hagree, hcontext⟩ := h w.context w'.context halike.context
  exact ⟨.ok hagree, hcontext, halike.ledger, halike.stages⟩

/-- The proof of a pair does not depend on the store, so both worlds make the same one. -/
theorem lockstep_proofRequest (pair : KeyPair) :
    Lockstep (World.Alike stores) Eq (proofRequest pair : Action σ (Signed Proof))
      (proofRequest pair) := by
  intro w w' halike
  have hproof : w.proof pair = w'.proof pair := by
    rw [World.proof, World.proof, halike.context.entropy, halike.context.now]
  rw [run_proofRequest, run_proofRequest, hproof]
  refine ⟨agree_refl (fun _ => rfl) _, ⟨halike.context.store, ?_, halike.context.now⟩,
    halike.ledger, halike.stages⟩
  show (w.context.entropy.draw Proof.nonceLength).2 = (w'.context.entropy.draw Proof.nonceLength).2
  rw [halike.context.entropy]

end Parts

/-! ### Storing and connecting -/

/-- What two runs get for the wallets that they connect. -/
structure Connected.Alike (wallets : Wallet → Wallet → Prop) (backups : String → String → Prop)
    (c c' : Connected) : Prop where
  wallet : wallets c.wallet c'.wallet
  backup : backups c.backup c'.backup

section Connect
variable [Store σ] {stores : σ → σ → Prop} {wallets : Wallet → Wallet → Prop}
  {backups : String → String → Prop} {s s' : Settings} {pair : KeyPair}

/-- Two wallets with one address are taken back in lockstep, if all wallets of an address
are. -/
theorem lockstep_rollBack
    (hremove : ∀ address, Lockstep (Pool.Context.Alike stores) Eq
      (Pool.removeByAddress s address : Pool.Action σ Bool) (Pool.removeByAddress s' address))
    {v w : Wallet} (haddress : v.address = w.address) :
    Lockstep (World.Alike stores) Eq (rollBack s v : Action σ Unit) (rollBack s' w) := by
  rw [rollBack, rollBack, haddress]
  refine (lockstep_report _).bind fun _ _ _ => ?_
  exact (lockstep_attempt (hremove w.address)).bind fun _ _ _ => lockstep_pure rfl

/-- Two wallets that were stored are connected in lockstep. The ledger is sent one and the
same message by both. -/
theorem lockstep_connectStored
    (hremove : ∀ address, Lockstep (Pool.Context.Alike stores) Eq
      (Pool.removeByAddress s address : Pool.Action σ Bool) (Pool.removeByAddress s' address))
    (hbackup : ∀ e, backups (Backup.exportText s.domain e pair.secret.hex).1
      (Backup.exportText s'.domain e pair.secret.hex).1)
    {v w : Wallet} (hwallets : wallets v w) (haddress : v.address = w.address) :
    Lockstep (World.Alike stores) (Connected.Alike wallets backups)
      (connectStored s pair v : Action σ Connected) (connectStored s' pair w) := by
  have hback := lockstep_rollBack hremove haddress
  refine (lockstep_report _).bind fun _ _ _ => ?_
  -- Both sign one proof with one key, so they fail together and take the wallet back together.
  refine Lockstep.bind ((lockstep_proofRequest pair).tryCatch fun e =>
    hback.bind fun _ _ _ => lockstep_throw e) fun request request' hrequest => ?_
  rw [hrequest]
  refine (lockstep_report _).bind fun _ _ _ => ?_
  refine (lockstep_send _).bind fun refusal? refusal?' hrefusal => ?_
  rw [hrefusal]
  -- The ledger has one answer for both.
  cases refusal?' with
  | some text => exact hback.bind fun _ _ _ => lockstep_throw _
  | none =>
      have hexport : Lockstep (World.Alike stores) backups
          (backup s pair : Action σ String) (backup s' pair) :=
        lockstep_onPool (Pool.lockstep_draw fun e => ⟨hbackup e, rfl⟩)
      refine hexport.bind fun b b' hb => ?_
      exact (lockstep_report _).bind fun _ _ _ => lockstep_pure ⟨hwallets, hb⟩

/-- A pair is stored and connected in lockstep under two passwords or two domains, if it is
added and taken back in lockstep. The relations between wallets and between backups are
parameters, because passwords and domains differ in what they change. -/
theorem lockstep_storeAndConnect {password password' : String}
    (hadd : Lockstep (Pool.Context.Alike stores) (Pool.Added.Alike wallets)
      (Pool.add s pair password : Pool.Action σ Pool.Added) (Pool.add s' pair password'))
    (hremove : ∀ address, Lockstep (Pool.Context.Alike stores) Eq
      (Pool.removeByAddress s address : Pool.Action σ Bool) (Pool.removeByAddress s' address))
    (hbackup : ∀ e, backups (Backup.exportText s.domain e pair.secret.hex).1
      (Backup.exportText s'.domain e pair.secret.hex).1)
    (haddress : ∀ v w, wallets v w → v.address = w.address) :
    Lockstep (World.Alike stores) (Connected.Alike wallets backups)
      (storeAndConnect s pair password : Action σ Connected)
      (storeAndConnect s' pair password') := by
  rw [storeAndConnect_eq, storeAndConnect_eq]
  refine (lockstep_report _).bind fun _ _ _ => ?_
  refine (lockstep_onPool hadd).bind fun added added' hadded => ?_
  -- Both are duplicates or both are added.
  cases hadded with
  | duplicate => exact lockstep_throw _
  | added hwallets =>
      exact lockstep_connectStored hremove hbackup hwallets (haddress _ _ hwallets)

end Connect

/-! ### Two runs of a flow -/

section Passwords
variable [Store σ] [Store.Sound σ]

/-- A wallet is made or imported under two passwords in lockstep. The origin does not look at
the password. So the pairs are the same, and with them the keys that are sealed and the
proofs that are signed. -/
theorem lockstep_flow (s : Settings) (origin : Origin) (password password' : String) :
    Lockstep (World.Alike (Pool.StoresAlike s)) (Connected.Alike Wallet.Alike Eq)
      (origin.flow s password : Action (Faulty σ) Connected) (origin.flow s password') := by
  have hconnect : ∀ pair, Lockstep (World.Alike (Pool.StoresAlike s))
      (Connected.Alike Wallet.Alike Eq)
      (storeAndConnect s pair password : Action (Faulty σ) Connected)
      (storeAndConnect s pair password') := fun pair =>
    lockstep_storeAndConnect (Pool.lockstep_add pair password password')
      Pool.lockstep_removeByAddress (fun _ => rfl) fun _ _ halike => halike.address
  cases origin with
  | fresh =>
      refine (lockstep_report _).bind fun _ _ _ => ?_
      -- The fresh pair is drawn from the same bytes.
      have hdraw : Lockstep (World.Alike (Pool.StoresAlike s)) Eq
          (draw KeyPair.fresh : Action (Faulty σ) KeyPair) (draw KeyPair.fresh) :=
        lockstep_onPool (Pool.lockstep_draw fun _ => ⟨rfl, rfl⟩)
      refine hdraw.bind fun pair pair' hpair => ?_
      rw [hpair]
      exact hconnect pair'
  | backup text =>
      refine (lockstep_report _).bind fun _ _ _ => ?_
      -- The backup is read under one domain, so it gives one key or none to both.
      cases Backup.import? s.domain text with
      | none => exact lockstep_throw _
      | some key =>
          dsimp only
          cases KeyPair.ofHex key with
          | error e => exact lockstep_throw _
          | ok pair => exact hconnect pair

end Passwords

/-- A wallet is made in lockstep under two domains: the same happens, but for the backup. No
operation on the pool looks at the domain. The two stores are therefore equal afterwards and
not only alike. -/
theorem lockstep_createWallet [Store σ] (s : Settings) (d : Backup.Domain) (password : String) :
    Lockstep (World.Alike Eq) (Connected.Alike Eq fun _ _ => True)
      (createWallet s password : Action σ Connected)
      (createWallet { s with domain := d } password) := by
  -- No operation on the pool looks at the domain.
  have hpool : ∀ {β : Type} (act : Pool.Action σ β) {values : β → β → Prop},
      (∀ x, values x x) → Lockstep (Pool.Context.Alike Eq) values act act := fun act _ hvalues =>
    lockstep_self (fun _ _ halike => halike.eq) hvalues act fun _ => ⟨rfl, rfl, rfl⟩
  refine (lockstep_report _).bind fun _ _ _ => ?_
  refine (lockstep_onPool (hpool (Pool.draw KeyPair.fresh) fun _ => rfl)).bind
    fun pair pair' hpair => ?_
  rw [hpair]
  refine lockstep_storeAndConnect (hpool (Pool.add s pair' password) fun added => ?_)
    (fun address => hpool (Pool.removeByAddress s address) fun _ => rfl) (fun _ => trivial)
    fun _ _ hsame => congrArg Wallet.address hsame
  cases added with
  | added w => exact .added rfl
  | duplicate => exact .duplicate

/-! ### Trust domains -/

/-- Two runs told and asked the same and came to the same, but for what is sealed in wallets. -/
structure SameButSealed [Store σ] [Store.Sound σ] (s : Settings)
    (first second : Except SessionError Connected × World (Faulty σ)) : Prop where
  ledger : first.2.ledger = second.2.ledger
  stages : first.2.stages = second.2.stages
  /-- They fail with the same error, or give the same backup and such a wallet. -/
  result : Agree (fun c c' => c.wallet.Alike c'.wallet ∧ c.backup = c'.backup) first.1 second.1
  /-- They leave pools of such wallets, or neither leaves a pool. -/
  stored : Agree (List.Forall₂ Wallet.Alike) (first.2.stored s) (second.2.stored s)
  elsewhere : ∀ key, key ≠ s.poolKey → Store.Sound.lookup key first.2.context.store.store
    = Store.Sound.lookup key second.2.context.store.store

/-- Two runs left the same world and came to the same, but for the backup. -/
structure SameButBackup (first second : Except SessionError Connected × World σ) : Prop where
  world : first.2 = second.2
  result : Agree (fun c c' => c.wallet = c'.wallet) first.1 second.1

/-- A password and the system's secret are trust domains of their own. Whatever a store holds and
refuses, whatever is drawn and whatever the ledger answers, two runs that make or import a wallet
under two passwords differ only in what is sealed; and two runs that make a wallet under two
secrets and paddings differ only in the backup. -/
theorem trust_domains [Store σ] (s : Settings) (password : String) :
    (∀ [Store.Sound σ] (origin : Origin) (password' : String) (before : World (Faulty σ)),
      SameButSealed s ((origin.flow s password).run before)
        ((origin.flow s password').run before)) ∧
    ∀ (d : Backup.Domain) (before : World σ),
      SameButBackup ((createWallet s password).run before)
        ((createWallet { s with domain := d } password).run before) := by
  -- Both runs start from one world, which is like itself.
  refine ⟨fun origin password' before => ?_, fun d before => ?_⟩
  · obtain ⟨hagree, hworld⟩ := lockstep_flow s origin password password' before before
      ⟨⟨Pool.storesAlike_refl s _, rfl, rfl⟩, rfl, rfl⟩
    exact ⟨hworld.ledger, hworld.stages, hagree.mono fun _ _ h => ⟨h.wallet, h.backup⟩,
      hworld.context.store.stored, hworld.context.store.elsewhere⟩
  · obtain ⟨hagree, hworld⟩ :=
      lockstep_createWallet s d password before before ⟨⟨rfl, rfl, rfl⟩, rfl, rfl⟩
    exact ⟨hworld.eq, hagree.mono fun _ _ h => h.wallet⟩

end Keyring.Session
