import Keyring.Proofs.Pool.Operations

/-!
# `Keyring.Proofs.Pool.Removal`: which wallets a backup removes

Removing by a backup has two steps: what is stored under the backup itself is deleted, then the
wallets that the backup belongs to leave the pool. Both steps work on the keys of one store, and
the backup is any text, so the first step may hit the pool.

* `remaining`: the wallets that a backup does not belong to.
* `removeByKey_ok`: what is removed from the wallets that the first step left.
* `removeByKey_remaining`: a backup that is not the key of the pool removes its own wallets and no
  others. The key of the pool removes them all, and reports that there was none.
* `removeByKey_poolKey`: a pool that is lost in this way.
-/

set_option autoImplicit false

namespace Keyring.Pool

variable {σ : Type} [Store σ] [Store.Sound σ] {s : Settings} {pool : List Wallet}
  {c c' : Context (Faulty σ)} {removed : Bool} {backup : String}

/-- The wallets that a backup does not belong to, in their order. -/
def remaining (s : Settings) (backup : String) (pool : List Wallet) : List Wallet :=
  match identity? s backup with
  | none => pool
  | some (publicHex, address) => pool.filter fun w => !w.isOf publicHex address

/-- A text that is no backup leaves every wallet. There is no private key that a wallet could
be compared with. -/
theorem remaining_of_none (h : identity? s backup = none) (pool : List Wallet) :
    remaining s backup pool = pool := by
  rw [remaining, h]

/-- Of no wallets none are left. It holds whether or not the text is a backup. -/
theorem remaining_nil (s : Settings) (backup : String) : remaining s backup [] = [] := by
  unfold remaining
  split <;> rfl

/-- Removing wallets that succeeds leaves those that are not picked, and tells whether any
was. -/
theorem RemoveOutcome.of_ok {kept : List Wallet}
    (h : RemoveOutcome s pool kept c (.ok removed) c') (hpool : stored s c.store.store = .ok pool) :
    stored s c'.store.store = .ok kept ∧ (removed = true ↔ kept ≠ pool) := by
  cases h with
  | unchanged _ hsame =>
      rw [hsame]
      exact ⟨hpool, by simp⟩
  | removed store _ hkept _ hstore => exact ⟨hstore, by simp [hkept]⟩

/-- Removing by a backup that succeeds removes the wallets of the backup from `left`, which
is what the store holds once the text under the backup itself is deleted. The first deletion
is at the key that the caller gives, so what is left depends on whether that is the pool's
own. -/
theorem removeByKey_ok {left : List Wallet} (hdelete : c.store.deletes.answers = true)
    (hleft : stored s (Store.delete backup c.store.store).2 = .ok left)
    (hrun : (removeByKey s backup).run c = (.ok removed, c')) :
    stored s c'.store.store = .ok (remaining s backup left) ∧
      (removed = true ↔ remaining s backup left ≠ left) := by
  rw [removeByKey, run_bind_ok (delete_answered backup hdelete)] at hrun
  cases hidentity : identity? s backup with
  | none =>
      rw [hidentity] at hrun
      obtain ⟨hresult, rfl⟩ := Prod.mk.inj hrun
      rw [← Except.ok.inj hresult, remaining_of_none hidentity]
      exact ⟨hleft, by simp⟩
  | some identity =>
      obtain ⟨publicHex, address⟩ := identity
      rw [hidentity] at hrun
      -- The text is a backup, so the wallets of its key are removed from what is left.
      obtain ⟨result, after, hremove, houtcome⟩ :=
        removeWhere_cases (c := c.afterDelete (Store.delete backup c.store.store).2) hleft
          fun w => w.isOf publicHex address
      obtain ⟨rfl, rfl⟩ := Prod.mk.inj (hremove.symm.trans hrun)
      rw [remaining, hidentity]
      exact houtcome.of_ok hleft

/-- Removing by a backup succeeds only if the store deletes what is stored under the backup,
which is its first step. -/
theorem answers_of_removeByKey (hrun : (removeByKey s backup).run c = (.ok removed, c')) :
    c.store.deletes.answers = true := by
  cases hdelete : c.store.deletes.answers with
  | true => rfl
  | false =>
      rw [removeByKey, run_bind_error (delete_refused backup hdelete)] at hrun
      cases congrArg Prod.fst hrun

/-- Removing by the key of the pool leaves the pool or none, also if it fails. Once the key
is deleted there is no wallet left to remove. -/
theorem stored_removeByKey_poolKey (hpool : stored s c.store.store = .ok pool) :
    stored s ((removeByKey s s.poolKey).run c).2.store.store = .ok pool ∨
      stored s ((removeByKey s s.poolKey).run c).2.store.store = .ok [] := by
  cases hdelete : c.store.deletes.answers with
  | false =>
      rw [removeByKey, run_bind_error (delete_refused s.poolKey hdelete)]
      exact .inl hpool
  | true =>
      -- The pool itself was the text under the backup, so none is left to remove from.
      have hleft := stored_delete_poolKey s c.store.store
      rw [removeByKey, run_bind_ok (delete_answered s.poolKey hdelete)]
      cases identity? s s.poolKey with
      | none => exact .inr hleft
      | some identity =>
          obtain ⟨result, c', hrun, houtcome⟩ :=
            removeWhere_cases (c := c.afterDelete (Store.delete s.poolKey c.store.store).2) hleft
              fun w => w.isOf identity.1 identity.2
          dsimp only
          rw [hrun]
          exact .inr ((houtcome.stored_or hleft).elim id And.right)

/-- Removing by a backup, when it succeeds on a store that holds a pool:

* A backup that is not the key of the pool removes its own wallets and no others, and tells whether
  there was one.
* The key of the pool removes them all, and tells that there was none.

A text that is no backup is no error: it succeeds and tells that there was none, if the store
deletes what is stored under it. -/
theorem removeByKey_remaining (hpool : stored s c.store.store = .ok pool) (backup : String) :
    (∀ removed c', (removeByKey s backup).run c = (.ok removed, c') →
      (backup ≠ s.poolKey →
        stored s c'.store.store = .ok (remaining s backup pool) ∧
        (removed = true ↔ remaining s backup pool ≠ pool)) ∧
      (backup = s.poolKey → stored s c'.store.store = .ok [] ∧ removed = false)) ∧
    (identity? s backup = none → c.store.deletes.answers = true →
      ∃ c', (removeByKey s backup).run c = (.ok false, c')) := by
  refine ⟨fun removed c' hrun => ⟨fun hbackup => ?_, ?_⟩, fun hidentity hdelete => ?_⟩
  · -- Deleting the text under the backup does not touch the pool.
    have hleft := (stored_delete_other hbackup c.store.store).trans hpool
    exact removeByKey_ok (answers_of_removeByKey hrun) hleft hrun
  · rintro rfl
    -- Deleting the text under the backup has deleted the pool.
    have hleft := stored_delete_poolKey s c.store.store
    obtain ⟨hstored, hremoved⟩ := removeByKey_ok (answers_of_removeByKey hrun) hleft hrun
    rw [remaining_nil] at hstored hremoved
    exact ⟨hstored, by simpa using hremoved⟩
  · refine ⟨c.afterDelete (Store.delete backup c.store.store).2, ?_⟩
    rw [removeByKey, run_bind_ok (delete_answered backup hdelete), hidentity]
    rfl

/-- Settings with defaults. -/
def sharedSettings : Settings := .ofSecret "secret"

/-- A wallet. -/
def sharedWallet : Wallet := ⟨"address", "04", ⟨"cipher", "iv", "tag"⟩, .epoch⟩

/-- A store with a pool of one wallet. -/
def sharedContext : Context (Faulty Memory) :=
  ⟨.sound ⟨[(sharedSettings.poolKey, Wallet.poolText [sharedWallet])]⟩, .ofBytes [], .epoch⟩

/-- The store of the example holds one wallet. The text of the pool is read back because its
instant has no odd leap second. -/
theorem stored_sharedContext :
    stored sharedSettings sharedContext.store.store = .ok [sharedWallet] :=
  stored_singleton sharedSettings (by decide)

/-- A text that is no backup removes no wallet. The answer says so, and the pool is the one
from before. -/
theorem removeByKey_remaining_other :
    ∃ c', (removeByKey sharedSettings "other").run sharedContext = (.ok false, c') ∧
      stored sharedSettings c'.store.store = .ok [sharedWallet] := by
  have hidentity : identity? sharedSettings "other" = none := by decide +kernel
  obtain ⟨hremains, hsucceeds⟩ := removeByKey_remaining stored_sharedContext "other"
  obtain ⟨c', hrun⟩ := hsucceeds hidentity rfl
  refine ⟨c', hrun, ?_⟩
  have hstored := ((hremains false c' hrun).1 (by decide)).1
  rwa [remaining_of_none hidentity] at hstored

/-- The key of the pool is no backup either. It removes the wallet all the same, and reports that
there was none. -/
theorem removeByKey_poolKey :
    stored sharedSettings sharedContext.store.store = .ok [sharedWallet] ∧
    identity? sharedSettings sharedSettings.poolKey = none ∧
    ∃ c', (removeByKey sharedSettings sharedSettings.poolKey).run sharedContext = (.ok false, c') ∧
      stored sharedSettings c'.store.store = .ok [] := by
  have hidentity : identity? sharedSettings sharedSettings.poolKey = none := by decide +kernel
  refine ⟨stored_sharedContext, hidentity,
    sharedContext.afterDelete (Store.delete sharedSettings.poolKey sharedContext.store.store).2,
    ?_, stored_delete_poolKey sharedSettings sharedContext.store.store⟩
  rw [removeByKey, run_bind_ok (delete_answered sharedSettings.poolKey rfl), hidentity]
  rfl

end Keyring.Pool
