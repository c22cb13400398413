import Keyring.Proofs.Key.Address
import Keyring.Proofs.Session.Identity

/-!
# `Keyring.Proofs.Session.RollBack`: what a refused wallet takes with it

A wallet is in a pool already if both its public key and its address stand in
one entry. A wallet that the ledger refuses is taken back by its address alone.
The two differ on a pool that holds the address under another text of the
public key, say in capital digits.

* `refused_keeps_elsewhere`: after a refusal the pool is what it was without
  the wallets of the new address, and these were no duplicates of the new one.
* `refused_keeps_elsewhere_capitals`: a wallet that was there before is lost.
-/

set_option autoImplicit false

namespace Keyring.Session

open Pool (built Present)

/-! ### The wallets of other addresses -/

/-- The wallets that do not have this address, in their order. -/
def elsewhere (address : String) (pool : List Wallet) : List Wallet :=
  pool.filter fun v => !(v.address == address)

variable {address : String} {pool : List Wallet}

/-- A wallet is elsewhere if it is in the pool under another address. -/
theorem mem_elsewhere {v : Wallet} :
    v ∈ elsewhere address pool ↔ v ∈ pool ∧ v.address ≠ address := by
  simp [elsewhere]

/-- The whole pool is elsewhere exactly if the address is not in use. -/
theorem elsewhere_eq_self_iff :
    elsewhere address pool = pool ↔ ∀ v ∈ pool, v.address ≠ address := by
  simp [elsewhere]

/-- A wallet of the address is not elsewhere. So taking back a wallet also forgets every
other entry of its address. -/
theorem elsewhere_cons_of_eq {v : Wallet} (h : v.address = address) :
    elsewhere address (v :: pool) = elsewhere address pool :=
  List.filter_cons_of_neg (by simp [h])

/-- What is left when the two calls that it takes to take a wallet back are answered: the
wallets of other addresses. -/
theorem rolledBack_of_answers {σ : Type} {f : Faulty σ} {new : Wallet}
    (hget : f.gets.next.answers = true) (hput : f.puts.next.answers = true) :
    rolledBack f pool new = elsewhere new.address pool :=
  if_pos ⟨hget, hput⟩

/-! ### Refusals -/

variable {σ : Type} {s : Settings} {origin : Origin} {password : String}

/-- A wallet from a backup has the address of the private key in the backup. -/
theorem Origin.address_of_new? {backup : String} {secret : Secret} {c : Pool.Context σ}
    {new : Wallet} (h : Backup.import? s.domain backup = some secret.hex)
    (hnew : (Origin.backup backup).new? s password c = some new) :
    new.address = (KeyPair.ofSecret secret).address := by
  rw [Origin.new?_eq_some (Origin.pair?_backup h _)] at hnew
  rw [← Option.some.inj hnew, built]

variable [Store σ] [Store.Sound σ] {before after : World (Faulty σ)}

/-- A wallet that the ledger refuses is taken back by its address. Take a pool that is read, and a
store that answers. After the refusal the pool holds, and lists, the wallets of other addresses in
their order. The new wallet is not among them. It is the whole pool from before if and only if
the new address was not in use; and where it was in use, it was under another public key. -/
theorem refused_keeps_elsewhere (hpool : before.stored s = .ok pool)
    (hget : before.context.store.gets.next.answers = true)
    (hput : before.context.store.puts.next.answers = true) {text : String}
    (hrun : (origin.flow s password).run before = (.error (.refused text), after)) :
    ∃ new, origin.new? s password before.context = some new ∧
      after.stored s = .ok (elsewhere new.address pool) ∧
      (after.context.store.gets.answers = true →
        ((Pool.list s).run after.context).1 = .ok (elsewhere new.address pool)) ∧
      new ∉ elsewhere new.address pool ∧
      (elsewhere new.address pool = pool ↔ ∀ v ∈ pool, v.address ≠ new.address) ∧
      ∀ v ∈ pool, v.address = new.address → v.publicHex ≠ new.publicHex := by
  rcases run_flow_cases s origin password before with
    ⟨-, e, ended, hflow, he, -, -⟩ | ⟨pair, start, hpair, hcontext, -, hflow⟩
  -- A flow without a pair ends before the ledger is asked.
  · obtain ⟨hresult, -⟩ := Prod.mk.inj (hrun.symm.trans hflow)
    obtain rfl := Except.error.inj hresult
    obtain hbackup | ⟨keyError, hkey⟩ := he
    · cases hbackup
    · cases hkey
  · have hstore : start.context.store = before.context.store := by
      rw [hcontext, Origin.context_store]
    have hstart : start.stored s = .ok pool := by
      rw [World.stored, hstore]
      exact hpool
    obtain ⟨result, ended, hconnect, houtcome⟩ := storeAndConnect_cases hstart pair password
    obtain ⟨rfl, rfl⟩ := Prod.mk.inj (hrun.symm.trans (hflow.trans hconnect))
    cases houtcome with
    -- That the pair was absent says that no entry has both texts, not that none has its address.
    | rejected _ habsent _ _ hstored _ =>
        rw [hstore, rolledBack_of_answers hget hput, hcontext] at hstored
        refine ⟨_, Origin.new?_eq_some hpair password, hstored, fun hanswers => ?_,
          fun hnew => (mem_elsewhere.1 hnew).2 rfl, elsewhere_eq_self_iff,
          fun v hv haddress hpublic => habsent ⟨v, hv, hpublic, haddress⟩⟩
        rw [Pool.list_ok hstored hanswers]

/-! ### The same key in capital digits -/

/-- A ledger that refuses, and a store with a pool. -/
def refusingWorld (pool : List Wallet) : World (Faulty Memory) :=
  (Step.plain .list (some "no")).start ⟨[(oldSettings.poolKey, Wallet.poolText pool)]⟩

/-- A backup of the least private key. -/
def leastBackup : String := (Backup.exportText oldSettings.domain (.ofBytes []) least.hex).1

/-- The wallet of the least private key with its public key in capital digits. -/
def capitals : Wallet := { moved with publicHex := Address.generatorCapitals }

/-- The wallet of another private key. -/
def neighbour : Wallet := built (KeyPair.ofSecret second) "password" newWorld.context

/-- The world holds the pool that it was made with. Its text is that of the pool, and reading
it back needs instants without odd leap seconds. -/
theorem stored_refusingWorld {pool : List Wallet} (hleap : ∀ w ∈ pool, w.createdAt.LeapLast) :
    (refusingWorld pool).stored oldSettings = .ok pool :=
  Pool.stored_singleton oldSettings hleap

/-- The wallet has the time of the clock. -/
theorem leapLast_capitals : ∀ w ∈ [capitals], w.createdAt.LeapLast :=
  List.forall_mem_singleton.2 newWorld.context.now.leapLast

/-- Both wallets have the time of the clock. -/
theorem leapLast_capitals_neighbour : ∀ w ∈ [capitals, neighbour], w.createdAt.LeapLast :=
  List.forall_mem_cons.2
    ⟨newWorld.context.now.leapLast, List.forall_mem_singleton.2 newWorld.context.now.leapLast⟩

/-- The backup holds the least private key. It was made by the export of the same domain. -/
theorem import?_leastBackup : Backup.import? oldSettings.domain leastBackup = some least.hex :=
  Backup.import?_exportText _ _ _

/-- The least private key is refused where it is not in the pool, and the wallets of its
address are gone then. -/
theorem run_refusingWorld {pool : List Wallet} (hleap : ∀ w ∈ pool, w.createdAt.LeapLast)
    (habsent : ¬Present (KeyPair.ofSecret least) pool) :
    ∃ after, (importWallet oldSettings leastBackup "password").run (refusingWorld pool)
        = (.error (.refused "no"), after) ∧
      after.stored oldSettings = .ok (elsewhere (KeyPair.ofSecret least).address pool) := by
  have hsuits : (refusingWorld pool).Suits (KeyPair.ofSecret least) := newWorld_suits
  obtain ⟨-, result, after, hrun, -, ⟨haccept, -⟩ | ⟨text, hrefuse, rfl, hstored⟩⟩ :=
    importWallet_decided import?_leastBackup (stored_refusingWorld hleap) rfl rfl hsuits habsent
      "password"
  · cases haccept
  · obtain rfl := Option.some.inj hrefuse
    exact ⟨after, hrun, hstored⟩

/-- The entry in capital digits has the address of the least key. Only the spelling of the
public key was changed in it. -/
theorem address_capitals : capitals.address = (KeyPair.ofSecret least).address := rfl

/-- The entry in capital digits has the least key sealed in it. So the entry could have been
unlocked as well as the one that replaced it. -/
theorem key_capitals : capitals.key
    = (SealedKey.encrypt newWorld.context.entropy least.hex "password").1 := rfl

/-- The entry in capital digits is no duplicate, because texts are compared as they are. -/
theorem publicHex_capitals : capitals.publicHex ≠ (KeyPair.ofSecret least).publicHex := by
  decide +kernel

/-- The entry in capital digits goes, and its neighbour stays. The first entry had been there
before the import, so the import's failure has cost a wallet. -/
theorem refused_keeps_elsewhere_neighbour :
    ∃ after, (importWallet oldSettings leastBackup "password").run
        (refusingWorld [capitals, neighbour]) = (.error (.refused "no"), after) ∧
      after.stored oldSettings = .ok [neighbour] := by
  -- The spelling in capital digits does not count as present, so the key is added a second time.
  have habsent : ¬Present (KeyPair.ofSecret least) [capitals, neighbour] := by
    rintro ⟨v, hv, hpublic, -⟩
    rcases List.mem_pair.1 hv with rfl | rfl
    · exact publicHex_capitals hpublic
    · exact absurd (congrArg Secret.scalar (KeyPair.eq_of_publicHex_eq hpublic)) (by decide)
  have haway : neighbour.address ≠ (KeyPair.ofSecret least).address := by decide +kernel
  obtain ⟨after, hrun, -⟩ := run_refusingWorld leapLast_capitals_neighbour habsent
  have hflow : ((Origin.backup leastBackup).flow oldSettings "password").run
      (refusingWorld [capitals, neighbour]) = (.error (.refused "no"), after) := hrun
  have hget : (refusingWorld [capitals, neighbour]).context.store.gets.next.answers = true := rfl
  have hput : (refusingWorld [capitals, neighbour]).context.store.puts.next.answers = true := rfl
  obtain ⟨new, hnew, hstored, -⟩ :=
    refused_keeps_elsewhere (stored_refusingWorld leapLast_capitals_neighbour) hget hput hflow
  rw [Origin.address_of_new? import?_leastBackup hnew, elsewhere_cons_of_eq address_capitals,
    elsewhere_eq_self_iff.2 (List.forall_mem_singleton.2 haway)] at hstored
  exact ⟨after, hrun, hstored⟩

/-- The entry in capital digits is lost, although it was there before: other software may have
written it, it has the address of its public key, and its password gives the private key. -/
theorem refused_keeps_elsewhere_capitals :
    (refusingWorld [capitals]).stored oldSettings = .ok [capitals] ∧
    Address.ofHex capitals.publicHex = .ok capitals.address ∧
    capitals.decrypt? "password" = some least.hex ∧
    ∃ after, (importWallet oldSettings leastBackup "password").run (refusingWorld [capitals])
        = (.error (.refused "no"), after) ∧
      after.stored oldSettings = .ok [] := by
  have hdecrypts : capitals.decrypt? "password" = some least.hex := by
    rw [Wallet.decrypt?, key_capitals, SealedKey.decrypt?_encrypt]
  refine ⟨stored_refusingWorld leapLast_capitals, by decide +kernel, hdecrypts, ?_⟩
  have habsent : ¬Present (KeyPair.ofSecret least) [capitals] := by
    rintro ⟨v, hv, hpublic, -⟩
    rw [List.mem_singleton.1 hv] at hpublic
    exact publicHex_capitals hpublic
  obtain ⟨after, hrun, hstored⟩ := run_refusingWorld leapLast_capitals habsent
  -- The entry has the address of the wallet that is taken back.
  rw [elsewhere_cons_of_eq address_capitals] at hstored
  exact ⟨after, hrun, hstored⟩

end Keyring.Session
