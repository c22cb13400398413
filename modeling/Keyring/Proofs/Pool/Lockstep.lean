import Keyring.Proofs.Lockstep
import Keyring.Proofs.Pool.Operations
import Mathlib.Data.List.Forall2

/-!
# `Keyring.Proofs.Pool.Lockstep`: two pools whose wallets are sealed differently

Two stores hold the same, but for what is sealed in the wallets of the pool. No operation tells
them apart: what it gives from one and from the other is the same, but for what is sealed, and so
is what it leaves.

* `lockstep_call`, `lockstep_draw`: the steps of an operation, for any relation of stores.
* `StoresAlike`: the two stores.
* `lockstep_add`: adding a pair under two passwords.
* `lockstep_removeByAddress`: removing the wallets of an address.
-/

set_option autoImplicit false

namespace Keyring

/-- Two wallets are the same, but for the ciphertext and the tag. -/
structure Wallet.Alike (v w : Wallet) : Prop where
  address : v.address = w.address
  publicHex : v.publicHex = w.publicHex
  iv : v.key.iv = w.key.iv
  createdAt : v.createdAt = w.createdAt

/-- A wallet is like itself. The four things that are compared are equal. -/
theorem Wallet.alike_refl (w : Wallet) : w.Alike w := ⟨rfl, rfl, rfl, rfl⟩

/-- Two such pools stay so when they are read back, since the same times are carried alike. -/
theorem Wallet.alike_map_carried {pool pool' : List Wallet}
    (h : List.Forall₂ Wallet.Alike pool pool') :
    List.Forall₂ Wallet.Alike (pool.map carried) (pool'.map carried) := by
  refine List.rel_map (fun v w hvw => ?_) h
  refine ⟨hvw.address, hvw.publicHex, hvw.iv, ?_⟩
  show (v.createdAt.carried : Instant) = w.createdAt.carried
  rw [hvw.createdAt]

namespace Pool

variable {σ α β : Type}

/-! ### Related stores -/

/-- Two contexts have related stores, and the same source and time. -/
structure Context.Alike (stores : σ → σ → Prop) (c c' : Context σ) : Prop where
  store : stores c.store c'.store
  entropy : c.entropy = c'.entropy
  now : c.now = c'.now

/-- Contexts with the same store are the same, because they agree in everything else. -/
theorem Context.Alike.eq {c c' : Context σ} (h : c.Alike Eq c') : c = c' := by
  obtain ⟨store, entropy, now⟩ := c
  obtain ⟨rfl, rfl, rfl⟩ := h
  rfl

section Steps
variable {stores : σ → σ → Prop} {values : α → β → Prop}

/-- Calls that are answered alike by related stores go in lockstep. The source and the clock
are not touched. The relation between the stores is a parameter: two copies of one store, or
two stores with differently sealed pools. -/
theorem lockstep_call {f : σ → Except StoreError α × σ} {g : σ → Except StoreError β × σ}
    (h : ∀ a b, stores a b → Agree values (f a).1 (g b).1 ∧ stores (f a).2 (g b).2) :
    Lockstep (Context.Alike stores) values (call f) (call g) := by
  intro c c' halike
  obtain ⟨hagree, hstores⟩ := h c.store c'.store halike.store
  rw [run_call, run_call]
  refine ⟨?_, hstores, halike.entropy, halike.now⟩
  generalize (f c.store).1 = answer at hagree
  generalize (g c'.store).1 = answer' at hagree
  cases hagree with
  | error e => exact .error (PoolError.store e)
  | ok hxy => exact .ok hxy

/-- Draws of the same length go in lockstep, since the sources are the same. Encrypting draws
a vector whatever the password is, so it is such a draw. -/
theorem lockstep_draw {f : Entropy → α × Entropy} {g : Entropy → β × Entropy}
    (h : ∀ e, values (f e).1 (g e).1 ∧ (f e).2 = (g e).2) :
    Lockstep (Context.Alike stores) values (draw f : Action σ α) (draw g) := by
  refine lockstep_modifyGet fun c c' halike => ?_
  show values (f c.entropy).1 (g c'.entropy).1 ∧ _
  rw [← halike.entropy]
  exact ⟨(h c.entropy).1, halike.store, (h c.entropy).2, halike.now⟩

/-- Related contexts are read in lockstep. What they yield is related because they are. -/
theorem lockstep_get : Lockstep (Context.Alike stores) (Context.Alike stores)
    (get : Action σ (Context σ)) get :=
  fun _ _ halike => ⟨.ok halike, halike⟩

/-- What two runs get for the wallets that they add. -/
inductive Added.Alike (wallets : Wallet → Wallet → Prop) : Added → Added → Prop
  | added {v w : Wallet} (h : wallets v w) : Added.Alike wallets (.added v) (.added w)
  | duplicate : Added.Alike wallets .duplicate .duplicate

end Steps

/-! ### Two passwords -/

/-- What two stores hold for the pool is the same, or they are two pools of such wallets. -/
inductive TextsAlike : Option String → Option String → Prop
  | same (text? : Option String) : TextsAlike text? text?
  | pools {pool pool' : List Wallet} (h : List.Forall₂ Wallet.Alike pool pool') :
      TextsAlike (some (Wallet.poolText pool)) (some (Wallet.poolText pool'))

variable [Store σ] [Store.Sound σ] {s : Settings}

/-- Two stores hold the same and refuse the same calls, but for what is sealed in the pool. -/
structure StoresAlike (s : Settings) (f f' : Faulty σ) : Prop where
  pool : TextsAlike (Store.Sound.lookup s.poolKey f.store) (Store.Sound.lookup s.poolKey f'.store)
  elsewhere : ∀ key, key ≠ s.poolKey →
    Store.Sound.lookup key f.store = Store.Sound.lookup key f'.store
  gets : f.gets = f'.gets
  puts : f.puts = f'.puts
  deletes : f.deletes = f'.deletes

/-- A store is like itself. So a theorem about two stores that are alike also holds of one
store run twice. -/
theorem storesAlike_refl (s : Settings) (f : Faulty σ) : StoresAlike s f f :=
  ⟨.same _, fun _ _ => rfl, rfl, rfl, rfl⟩

/-- The pools of two such stores are read alike, or neither is a pool. -/
theorem StoresAlike.stored {f f' : Faulty σ} (h : StoresAlike s f f') :
    Agree (List.Forall₂ Wallet.Alike) (stored s f.store) (stored s f'.store) := by
  have hpool := h.pool
  rw [Pool.stored, Pool.stored]
  generalize Store.Sound.lookup s.poolKey f.store = text? at hpool
  generalize Store.Sound.lookup s.poolKey f'.store = text?' at hpool
  cases hpool with
  | same => exact agree_refl (fun pool => List.forall₂_same.2 fun w _ => w.alike_refl) _
  | pools hpools =>
      dsimp only
      rw [Wallet.parsePool_poolText, Wallet.parsePool_poolText]
      exact .ok (Wallet.alike_map_carried hpools)

/-- The texts of the pools are read in lockstep. They are the same, or those of two pools
that differ only in what is sealed. -/
theorem lockstep_getPool :
    Lockstep (Context.Alike (StoresAlike s)) TextsAlike
      (call (Store.get s.poolKey) : Action (Faulty σ) (Option String))
      (call (Store.get s.poolKey)) := by
  refine lockstep_call fun f f' h => ?_
  rw [Faulty.get_eq, Faulty.get_eq, h.gets]
  refine ⟨?_, h.pool, h.elsewhere, rfl, h.puts, h.deletes⟩
  split
  · exact .ok h.pool
  · exact .error _

/-- The pools are listed in lockstep, with one error if neither is one. -/
theorem lockstep_list :
    Lockstep (Context.Alike (StoresAlike s)) (List.Forall₂ Wallet.Alike)
      (list s : Action (Faulty σ) (List Wallet)) (list s) := by
  refine lockstep_getPool.bind fun text? text?' htexts => ?_
  cases htexts with
  | same =>
      -- Both runs see one text, or none.
      cases text? with
      | none => exact lockstep_pure .nil
      | some text =>
          dsimp only
          split
          · exact lockstep_pure (List.forall₂_same.2 fun w _ => w.alike_refl)
          · exact lockstep_throw _
  | pools hpools =>
      dsimp only
      -- Both see a pool that was written, so each reads back its own.
      rw [Wallet.parsePool_poolText, Wallet.parsePool_poolText]
      exact lockstep_pure (Wallet.alike_map_carried hpools)

/-- Two pools of such wallets are stored in lockstep, or both calls are refused. -/
theorem lockstep_save {pool pool' : List Wallet} (hpools : List.Forall₂ Wallet.Alike pool pool') :
    Lockstep (Context.Alike (StoresAlike s)) Eq (save s pool : Action (Faulty σ) Unit)
      (save s pool') := by
  refine lockstep_call fun f f' h => ?_
  rw [Faulty.put_eq, Faulty.put_eq, h.puts]
  split
  · refine ⟨.ok rfl, ?_, fun key hkey => ?_, h.gets, rfl, h.deletes⟩
    · simp only [Store.Sound.lookup_put, if_true]
      exact .pools hpools
    · simp only [Store.Sound.lookup_put, if_neg hkey]
      exact h.elsewhere key hkey
  · exact ⟨.error _, h.pool, h.elsewhere, h.gets, rfl, h.deletes⟩

/-- A pair is in both pools or in neither, since the public keys and addresses are the same. -/
theorem any_isOf_eq {pool pool' : List Wallet} (hpools : List.Forall₂ Wallet.Alike pool pool')
    (publicHex address : String) :
    (pool.any fun w => w.isOf publicHex address)
      = pool'.any fun w => w.isOf publicHex address := by
  induction hpools with
  | nil => rfl
  | cons hw _ ih =>
      rw [List.any_cons, List.any_cons, ih, Wallet.isOf, Wallet.isOf, hw.publicHex, hw.address]

/-- A pair is sealed under two passwords in lockstep: the vector is the same. -/
theorem lockstep_encrypt (text password password' : String) :
    Lockstep (Context.Alike (StoresAlike s)) (fun key key' => key.iv = key'.iv)
      (draw (fun e => SealedKey.encrypt e text password) : Action (Faulty σ) SealedKey)
      (draw fun e => SealedKey.encrypt e text password') := by
  refine lockstep_draw fun e => ⟨?_, ?_⟩
  · rw [iv_encrypt, iv_encrypt]
  · rw [entropy_encrypt, entropy_encrypt]

/-- A pair is added under two passwords in lockstep. The two new wallets differ in what is
sealed and in nothing else. Whether the pair is a duplicate is decided by public key and
address, which both pools share. -/
theorem lockstep_add (pair : KeyPair) (password password' : String) :
    Lockstep (Context.Alike (StoresAlike s)) (Added.Alike Wallet.Alike)
      (add s pair password : Action (Faulty σ) Added) (add s pair password') := by
  refine lockstep_list.bind fun pool pool' hpools => ?_
  rw [any_isOf_eq hpools]
  split
  · exact lockstep_pure .duplicate
  · refine (lockstep_encrypt _ password password').bind fun key key' hiv => ?_
    refine lockstep_get.bind fun c c' halike => ?_
    have hnew : Wallet.Alike ⟨pair.address, pair.publicHex, key, c.now⟩
        ⟨pair.address, pair.publicHex, key', c'.now⟩ :=
      ⟨rfl, rfl, hiv, congrArg ClockTime.toInstant halike.now⟩
    refine (lockstep_save (List.rel_append hpools (.cons hnew .nil))).bind fun _ _ _ => ?_
    exact lockstep_pure (.added hnew)

/-- The wallets of an address are removed from both pools in lockstep, because the addresses
are the same. Rolling back a refused wallet is such a removal. -/
theorem lockstep_removeByAddress (address : String) :
    Lockstep (Context.Alike (StoresAlike s)) Eq
      (removeByAddress s address : Action (Faulty σ) Bool) (removeByAddress s address) := by
  refine lockstep_list.bind fun pool pool' hpools => ?_
  have hkept : List.Forall₂ Wallet.Alike (pool.filter fun w => !(w.address == address))
      (pool'.filter fun w => !(w.address == address)) := by
    refine List.rel_filter (fun v w hvw => ?_) hpools
    simp only [hvw.address]
  dsimp only
  rw [hkept.length_eq, hpools.length_eq]
  split
  · exact lockstep_pure rfl
  · exact (lockstep_save hkept).bind fun _ _ _ => lockstep_pure rfl

end Pool
end Keyring
