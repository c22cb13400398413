import Keyring.Proofs.Session.Story

/-!
# `Keyring.Proofs.Session.AllOrNothing`: a new wallet is kept or leaves no trace

* `allOrNothing`: whatever calls to the store fail and whatever the ledger
  answers, the pool afterwards is the one from before, or that with the new
  wallet at its end; and the result says which.

A wallet is stored before its proof is signed, so a proof without a signature is
one more way in which a stored wallet is given up. A proof has a signature if one
of the 64 numbers that are tried for it is in range (`World.Suits`), which each of
them misses once in 2^32 times. `allOrNothing` keeps the two apart: `KeptOrGone`
says what holds in any case, and where the number suits there is no such error.
* `allOrNothing_refusing`: a run in which the wallet is refused and not taken back.
-/

set_option autoImplicit false

namespace Keyring.Session

open Pool (refused built Present)

variable {σ : Type} [Store σ] [Store.Sound σ] {s : Settings} {pool : List Wallet}

/-- What a store holds after a new wallet was stored and taken back: the pool from before if the
two calls that this takes were answered, and otherwise the new wallet too. -/
def World.Returned (s : Settings) (before after : World (Faulty σ)) (pool : List Wallet)
    (new : Wallet) : Prop :=
  after.stored s = .ok (if before.context.store.gets.next.answers ∧
    before.context.store.puts.next.answers then pool else pool ++ [new])

/-- A new wallet is kept, or it leaves no trace, and the result says which. -/
structure KeptOrGone (s : Settings) (origin : Origin) (password : String) (pool : List Wallet)
    (before : World (Faulty σ)) (result : Except SessionError Connected)
    (after : World (Faulty σ)) : Prop where
  /-- There are two pools that a store can hold afterwards. -/
  stored : after.stored s = .ok pool ∨
    ∃ new, origin.new? s password before.context = some new ∧ after.stored s = .ok (pool ++ [new])
  /-- A wallet that is connected is kept. -/
  kept : ∀ connected, result = .ok connected →
    origin.new? s password before.context = some connected.wallet ∧
      after.stored s = .ok (pool ++ [connected.wallet])
  /-- The error of a refusal carries the ledger's text. -/
  refused : ∀ text, result = .error (.refused text) →
    before.ledger.refuseConnect = some text ∧
      ∃ new, origin.new? s password before.context = some new ∧ before.Returned s after pool new
  /-- After any other failure the ledger was sent nothing. -/
  unsent : ∀ e, result = .error e → (∀ text, e ≠ .refused text) → after.ledger = before.ledger
  /-- After any other failure there is no trace of the wallet. A stored wallet whose proof has no
  signature is the exception (`unsigned`). -/
  gone : ∀ e, result = .error e → (∀ text, e ≠ .refused text) →
    (∀ signError, e ≠ .sign signError) → after.stored s = .ok pool
  /-- A wallet whose proof has no signature is taken back like one that is refused. -/
  unsigned : ∀ signError, result = .error (.sign signError) →
    ∃ pair nonce new, origin.pair? s before.context.entropy = some pair ∧
      Signing.signPayload pair.secret (Proof.make pair nonce before.context.now).toPayload
        = .error signError ∧
      origin.new? s password before.context = some new ∧ before.Returned s after pool new

/-- A failure that comes before the new wallet is stored leaves no trace: the pool is the one
from before and the ledger was sent nothing. -/
theorem KeptOrGone.of_unstored {origin : Origin} {password : String}
    {before after : World (Faulty σ)} {e : SessionError} (hstored : after.stored s = .ok pool)
    (hledger : after.ledger = before.ledger)
    (hrefused : ∀ text, e ≠ .refused text) (hsign : ∀ signError, e ≠ .sign signError) :
    KeptOrGone s origin password pool before (.error e) after where
  stored := .inl hstored
  kept _ h := absurd h nofun
  refused text h := absurd (Except.error.inj h) (hrefused text)
  unsent _ _ _ := hledger
  gone _ _ _ _ := hstored
  unsigned signError h := absurd (Except.error.inj h) (hsign signError)

/-- A wallet that was taken back is gone or kept, by whether the store answers the two calls
that this takes. -/
theorem World.Returned.or {before after : World (Faulty σ)} {new : Wallet}
    (h : before.Returned s after pool new) :
    after.stored s = .ok pool ∨ after.stored s = .ok (pool ++ [new]) := by
  unfold World.Returned at h
  split at h
  · exact .inl h
  · exact .inr h

omit [Store σ] [Store.Sound σ] in
/-- Taking back a wallet takes no other with it, if its address is its own. This is where the
hypothesis about addresses is used. -/
theorem rolledBack_eq {f : Faulty σ} {new : Wallet} (hapart : ∀ v ∈ pool, v.address ≠ new.address) :
    rolledBack f pool new = if f.gets.next.answers ∧ f.puts.next.answers then pool
      else pool ++ [new] := by
  rw [rolledBack, takenBack, List.filter_eq_self.2]
  intro v hv
  simpa using hapart v hv

/-- A wallet that the ledger refused is gone, or it is kept because the store refused. The
error is the ledger's text either way. -/
theorem KeptOrGone.of_refused {origin : Origin} {password : String}
    {before after : World (Faulty σ)} {new : Wallet} {text : String}
    (hnew : origin.new? s password before.context = some new)
    (hrefuse : before.ledger.refuseConnect = some text)
    (hback : before.Returned s after pool new) :
    KeptOrGone s origin password pool before (.error (.refused text)) after where
  stored := hback.or.imp_right fun h => ⟨new, hnew, h⟩
  kept _ h := absurd h nofun
  refused text' h := by
    obtain rfl := SessionError.refused.inj (Except.error.inj h)
    exact ⟨hrefuse, new, hnew, hback⟩
  unsent _ h hother := absurd (Except.error.inj h).symm (hother text)
  gone _ h hother _ := absurd (Except.error.inj h).symm (hother text)
  unsigned _ h := absurd h nofun

/-- A wallet whose proof has no signature is treated like one that the ledger refused, but
the ledger was sent nothing. -/
theorem KeptOrGone.of_unsigned {origin : Origin} {password : String}
    {before after : World (Faulty σ)} {pair : KeyPair} {nonce : Bytes} {new : Wallet}
    {e : SignError} (hpair : origin.pair? s before.context.entropy = some pair)
    (hsign : Signing.signPayload pair.secret (Proof.make pair nonce before.context.now).toPayload
      = .error e)
    (hnew : origin.new? s password before.context = some new)
    (hledger : after.ledger = before.ledger) (hback : before.Returned s after pool new) :
    KeptOrGone s origin password pool before (.error (.sign e)) after where
  stored := hback.or.imp_right fun h => ⟨new, hnew, h⟩
  kept _ h := absurd h nofun
  refused _ h := absurd h nofun
  unsent _ _ _ := hledger
  gone _ h _ hother := absurd (Except.error.inj h).symm (hother e)
  unsigned signError h := by
    obtain rfl := SessionError.sign.inj (Except.error.inj h)
    exact ⟨pair, nonce, new, hpair, hsign, hnew, hback⟩

/-- A wallet that is connected is kept, at the end of the pool and as it was built. -/
theorem KeptOrGone.of_connected {origin : Origin} {password : String}
    {before after : World (Faulty σ)} {connected : Connected}
    (hnew : origin.new? s password before.context = some connected.wallet)
    (hstored : after.stored s = .ok (pool ++ [connected.wallet])) :
    KeptOrGone s origin password pool before (.ok connected) after where
  stored := .inr ⟨connected.wallet, hnew, hstored⟩
  kept other h := by
    rw [← Except.ok.inj h]
    exact ⟨hnew, hstored⟩
  refused _ h := absurd h nofun
  unsent _ h := absurd h nofun
  gone _ h := absurd h nofun
  unsigned _ h := absurd h nofun

/-- Every way in which a flow can end fits the description. The description has no case for a
wallet that takes others with it when it is taken back, so no wallet of the pool may have the
new address under another public key. -/
theorem keptOrGone_flow (s : Settings) (origin : Origin) (password : String)
    (before : World (Faulty σ)) (pool : List Wallet) (hpool : before.stored s = .ok pool)
    (haddress : ∀ pair, origin.pair? s before.context.entropy = some pair →
      ∀ v ∈ pool, v.address = pair.address → v.publicHex = pair.publicHex) :
    KeptOrGone s origin password pool before ((origin.flow s password).run before).1
      ((origin.flow s password).run before).2 := by
  rcases run_flow_cases s origin password before with
    ⟨-, e, after, hrun, he, hcontext, hledger⟩ | ⟨pair, start, hpair, hcontext, hledger, hrun⟩
  · rw [hrun]
    have hstored : after.stored s = .ok pool := by
      rw [World.stored, hcontext]
      exact hpool
    rcases he with rfl | ⟨keyError, rfl⟩
    · exact .of_unstored hstored hledger (by simp) (by simp)
    · exact .of_unstored hstored hledger (by simp) (by simp)
  · have hstore : start.context.store = before.context.store := by
      rw [hcontext, Origin.context_store]
    have hstart : start.stored s = .ok pool := by
      rw [World.stored, hstore]
      exact hpool
    have hnew : origin.new? s password before.context
        = some (built pair password start.context) := by
      rw [hcontext]
      exact Origin.new?_eq_some hpair password
    obtain ⟨result, after, hconnect, houtcome⟩ := storeAndConnect_cases hstart pair password
    rw [hrun, hconnect]
    -- The store is the same after the key was made, so the calls that follow are the same too.
    have hreturned : ¬Present pair pool →
        after.stored s = .ok (rolledBack start.context.store pool
          (built pair password start.context)) →
        before.Returned s after pool (built pair password start.context) := by
      intro habsent hrolled
      rw [rolledBack_eq fun v hv heq => habsent ⟨v, hv, haddress pair hpair v hv heq, heq⟩,
        hstore] at hrolled
      exact hrolled
    cases houtcome with
    | unstored _ hstored hsame =>
        exact .of_unstored hstored (hsame.trans hledger) (by simp) (by simp)
    | duplicate _ hstored hsame =>
        exact .of_unstored hstored (hsame.trans hledger) (by simp) (by simp)
    | unsigned _ habsent hsign hstored hsame =>
        rw [World.firstProof, hcontext, Origin.context_now] at hsign
        exact .of_unsigned hpair hsign hnew (hsame.trans hledger) (hreturned habsent hstored)
    | rejected _ habsent _ hrefuse hstored _ =>
        rw [hledger] at hrefuse
        exact .of_refused hnew hrefuse (hreturned habsent hstored)
    | connected _ _ _ _ _ hstored _ => exact .of_connected hnew hstored

/-- Making or importing a wallet keeps it or leaves no trace of it. No wallet of the pool may
have the new address under another public key. An error for want of a signature, which stores
the wallet and takes it back like a refusal, cannot occur if the secret number for the first
proof suits. -/
theorem allOrNothing (s : Settings) (origin : Origin) (password : String)
    (before : World (Faulty σ)) (pool : List Wallet) (hpool : before.stored s = .ok pool)
    (haddress : ∀ pair, origin.pair? s before.context.entropy = some pair →
      ∀ v ∈ pool, v.address = pair.address → v.publicHex = pair.publicHex) :
    KeptOrGone s origin password pool before ((origin.flow s password).run before).1
      ((origin.flow s password).run before).2 ∧
    ∀ pair, origin.pair? s before.context.entropy = some pair →
      (origin.world before).Suits pair →
      ∀ e, ((origin.flow s password).run before).1 ≠ .error (.sign e) :=
  ⟨keptOrGone_flow s origin password before pool hpool haddress,
    fun _ hpair hsuits => ne_sign_of_suits hpair hsuits password⟩

/-- A wallet with the public key of the next fresh pair, but without an address. -/
def unaddressed (e : Entropy) : Wallet := ⟨"", (KeyPair.fresh e).1.publicHex, ⟨"", "", ""⟩, .epoch⟩

/-- The world with a store that holds one wallet and refuses to be written a second time, and with
a ledger that refuses the new one. -/
def refusing : World (Faulty Memory) :=
  ⟨⟨⟨⟨[("wallet_pool", Wallet.poolText [unaddressed (.ofBytes [])])]⟩, .always, .upTo 1, .always⟩,
    .ofBytes [], .epoch⟩, ⟨some "no", none, []⟩, []⟩

/-- The wallet is stored, refused and not taken back. The wallet from before has its public
key, so the hypothesis about addresses holds. -/
theorem allOrNothing_refusing :
    KeptOrGone (Settings.ofSecret "secret") .fresh "password" [unaddressed (.ofBytes [])] refusing
      ((createWallet (Settings.ofSecret "secret") "password").run refusing).1
      ((createWallet (Settings.ofSecret "secret") "password").run refusing).2 ∧
    ∀ pair, Origin.fresh.pair? (Settings.ofSecret "secret") refusing.context.entropy = some pair →
      (Origin.fresh.world refusing).Suits pair →
      ∀ e, ((createWallet (Settings.ofSecret "secret") "password").run refusing).1
        ≠ .error (.sign e) := by
  refine allOrNothing (Settings.ofSecret "secret") .fresh "password" refusing
    [unaddressed (.ofBytes [])] ?_ ?_
  · -- The store holds the text of the pool.
    exact Wallet.parsePool_poolText_of_leapLast
      (List.forall_mem_singleton.2 ClockTime.epoch.leapLast)
  · intro pair hpair v hv _
    -- The wallet from before has the public key of the new pair.
    rw [List.mem_singleton.1 hv, ← Option.some.inj hpair]
    rfl

end Keyring.Session
