import Keyring.Proofs.Pool.Operations

/-!
# `Keyring.Proofs.Pool.Persistence`: a pool that was stored is listed again

A pool is kept as a text, so what is listed is what the text says. It says all there is to say of
a wallet but one thing: where a leap second stands. The form of a time has a notation for a leap
second at the end of a minute, second 60, and none for one elsewhere, which shows as the second
after its own. Such a time can be built from its parts, and then it comes back as the later one.

* `run_save_list`: what is listed after a pool was saved, and what the store holds then.
* `list_of_save`: a saved pool is listed with its times carried, which is the saved pool exactly if
  it has no odd leap second; and every text that is listed at all, also one from elsewhere, is
  listed alike after it was written anew.
* `list_of_save_foreign`: a text with its fields in another order, one field too many and a time at
  an offset.
* `listed_later`: an odd leap second comes back a second later.
-/

set_option autoImplicit false

namespace Keyring.Pool

variable {σ : Type} [Store σ] [Store.Sound σ] {s : Settings} {c : Context (Faulty σ)}

/-- A pool is saved and listed: the text in the store is that of the pool, and what is listed
is the pool with its times carried. Both halves of the round trip are instances of it: a pool
of any wallets, and one that was listed. -/
theorem run_save_list (s : Settings) (pool : List Wallet) (hput : c.store.puts.answers = true)
    (hget : c.store.gets.answers = true) :
    ∃ c', (do save s pool; list s : Action (Faulty σ) (List Wallet)).run c
        = (.ok (pool.map Wallet.carried), c') ∧
      Store.Sound.lookup s.poolKey c'.store.store = some (Wallet.poolText pool) := by
  have hsave : (save s pool).run c = (.ok (),
      c.afterPut (Store.put s.poolKey (Wallet.poolText pool) c.store.store).2) :=
    put_answered s.poolKey (Wallet.poolText pool) hput
  have hlookup : Store.Sound.lookup s.poolKey
      (Store.put s.poolKey (Wallet.poolText pool) c.store.store).2
        = some (Wallet.poolText pool) := by
    rw [Store.Sound.lookup_put, if_pos rfl]
  refine ⟨(c.afterPut (Store.put s.poolKey (Wallet.poolText pool) c.store.store).2).afterGet, ?_,
    hlookup⟩
  rw [run_bind_ok hsave]
  exact list_ok (stored_put_carried s pool c.store.store) hget

/-- A pool is listed as it was saved, but for odd leap seconds. Its wallets may hold any texts and
any points in time. What comes back is the pool with its times carried, and this is the saved pool
itself exactly if every leap second in it ends a minute. A pool that is listed from any text is
such a pool, so it is listed from the text that is written for it as well. The calls that this takes
must be answered. -/
theorem list_of_save (s : Settings) :
    (∀ (pool : List Wallet) (c : Context (Faulty σ)),
      c.store.puts.answers = true → c.store.gets.answers = true →
      ∃ back c', (do save s pool; list s : Action (Faulty σ) (List Wallet)).run c = (.ok back, c') ∧
        Store.Sound.lookup s.poolKey c'.store.store = some (Wallet.poolText pool) ∧
        back = pool.map Wallet.carried ∧
        (back = pool ↔ ∀ w ∈ pool, w.createdAt.LeapLast)) ∧
    ∀ (text : String) (pool : List Wallet) (c : Context (Faulty σ)),
      Store.Sound.lookup s.poolKey c.store.store = some text →
      Wallet.parsePool text = .ok pool →
      c.store.gets.answers = true → c.store.puts.answers = true →
      c.store.gets.next.answers = true →
      (∀ w ∈ pool, w.createdAt.LeapLast) ∧
      ∃ c', (do save s (← list s); list s : Action (Faulty σ) (List Wallet)).run c
          = (.ok pool, c') ∧
        Store.Sound.lookup s.poolKey c'.store.store = some (Wallet.poolText pool) := by
  constructor
  · intro pool c hput hget
    obtain ⟨c', hrun, hlookup⟩ := run_save_list (c := c) s pool hput hget
    exact ⟨pool.map Wallet.carried, c', hrun, hlookup, rfl, Wallet.map_carried_eq_iff pool⟩
  · intro text pool c hlookup hparse hget hput hnext
    -- What was read from a text has no odd leap second, so carrying leaves it as it is.
    have hleap := Wallet.leapLast_of_parsePool hparse
    have hstored : stored s c.store.store = .ok pool := by
      rw [stored, hlookup]
      exact hparse
    obtain ⟨c', hrun, hafter⟩ := run_save_list (c := c.afterGet) s pool hput hnext
    rw [(Wallet.map_carried_eq_iff pool).2 hleap] at hrun
    refine ⟨hleap, c', ?_, hafter⟩
    rw [run_bind_ok (list_ok hstored hget)]
    exact hrun

/-- A pool as another program might write it. -/
def foreignText : String :=
  "[ \x7b\"createdAt\":\"2023-11-14T23:13:20.5+01:00\", \"note\":[1,\x7b\x7d], " ++
    "\"pubkey\":\"04\", \"encryptedPrivateKey\":\x7b\"authTag\":\"t\",\"iv\":\"i\"," ++
    "\"cipherText\":\"c\"\x7d, \"address\":\"\\u0041\"\x7d ]"

/-- The wallet of the text. -/
def foreignWallet : Wallet :=
  ⟨"A", "04", ⟨"c", "i", "t"⟩,
    ⟨19675, 80000, 500000000, by decide, by decide, by decide, by decide⟩⟩

/-- Settings with defaults. -/
def foreignSettings : Settings := .ofSecret "secret"

/-- A store with the text. -/
def foreignContext : Context (Faulty Memory) :=
  ⟨.sound ⟨[(foreignSettings.poolKey, foreignText)]⟩, .ofBytes [], .epoch⟩

/-- A text from elsewhere is listed alike after it was written anew. It is spaced and ordered
in another way, so the text itself does change. -/
theorem list_of_save_foreign :
    Wallet.parsePool foreignText = .ok [foreignWallet] ∧
    ∃ c', (do save foreignSettings (← list foreignSettings); list foreignSettings :
        Action (Faulty Memory) (List Wallet)).run foreignContext = (.ok [foreignWallet], c') ∧
      c'.store.store.lookup foreignSettings.poolKey = some (Wallet.poolText [foreignWallet]) := by
  have hread : (Wallet.parsePool foreignText).toOption = some [foreignWallet] := by
    decide +kernel
  -- The reader is run by the kernel on its result without the texts of its faults.
  have hparse : Wallet.parsePool foreignText = .ok [foreignWallet] := by
    cases h : Wallet.parsePool foreignText with
    | error fault =>
        rw [h] at hread
        exact absurd hread nofun
    | ok pool =>
        rw [h] at hread
        rw [Option.some.inj hread]
  have hlookup : foreignContext.store.store.lookup foreignSettings.poolKey = some foreignText :=
    (Entries.lookup_entry ..).trans (if_pos rfl)
  exact ⟨hparse, ((list_of_save foreignSettings).2 foreignText [foreignWallet] foreignContext
    hlookup hparse rfl rfl rfl).2⟩

/-! ### An odd leap second -/

/-- A wallet whose time is a leap second after second 20 of a minute. -/
def oddWallet : Wallet :=
  ⟨"A", "04", ⟨"c", "i", "t"⟩,
    ⟨19675, 80000, 1500000000, by decide, by decide, by decide, by decide⟩⟩

/-- The same wallet half a second into second 21. -/
def laterWallet : Wallet :=
  ⟨"A", "04", ⟨"c", "i", "t"⟩,
    ⟨19675, 80001, 500000000, by decide, by decide, by decide, by decide⟩⟩

/-- The wallet comes back as the later one: both have the same text, and it is read as the later
one. -/
theorem listed_later :
    ((do save foreignSettings [oddWallet]; list foreignSettings :
        Action (Faulty Memory) (List Wallet)).run foreignContext).1 = .ok [laterWallet] ∧
    [laterWallet] ≠ [oddWallet] := by
  have hcarried : [oddWallet].map Wallet.carried = [laterWallet] := by decide
  obtain ⟨c', hrun, -⟩ := run_save_list (c := foreignContext) foreignSettings [oddWallet] rfl rfl
  rw [hrun, hcarried]
  exact ⟨rfl, by decide⟩

end Keyring.Pool
