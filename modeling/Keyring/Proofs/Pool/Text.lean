import Keyring.Pool.Wallet
import Keyring.Proofs.Json.Given
import Keyring.Proofs.Json.Record
import Keyring.Proofs.Time.Rfc3339

/-!
# `Keyring.Proofs.Pool.Text`: what is read back from the text of a pool

The theorems:

* `SealedKey.reads_chars`, `Wallet.reads_chars`: a sealed key and a wallet are
  read back from what was printed for them, but for an odd leap second.
* `Wallet.parsePool_poolText`: so is a pool, whatever texts its wallets hold.
* `Wallet.map_carried_eq_iff`: the pools that come back as they were are those
  without odd leap seconds.
* `Wallet.leapLast_of_parsePool`: every pool that comes from a text is one.

An odd leap second is one that does not end a minute. It has no written form of
its own, so it comes back as the second after it (`Instant.carried`).
-/

set_option autoImplicit false

namespace Keyring

open Json (Reads)

/-- A sealed key is read back, since its three fields are texts. The names of the fields are
different, so the reader finds each where the printer put it. -/
theorem SealedKey.reads_chars (key : SealedKey) (levels : Nat) :
    Reads (SealedKey.read (levels + 1)) key.chars key :=
  Json.reads_record
    (.field (Json.reads_string key.cipherText levels).value (by simp)
      (.field (Json.reads_string key.iv levels).value (by simp)
        (.field (Json.reads_string key.authTag levels).value (by simp) .done)))
    rfl

namespace Wallet

/-- The wallet that is read where this one was written: its time is carried, and all else is
as it was. -/
def carried (w : Wallet) : Wallet := { w with createdAt := w.createdAt.carried }

/-- A wallet stays as it is exactly if no odd leap second is its time. Its other fields are
never changed. -/
theorem carried_eq_iff (w : Wallet) : w.carried = w ↔ w.createdAt.LeapLast := by
  rw [← Instant.carried_eq_iff]
  refine ⟨fun h => congrArg Wallet.createdAt h, fun h => ?_⟩
  rw [carried, h]

/-- A pool stays as it is exactly if no wallet has an odd leap second as its time, since each
wallet is carried by itself. It turns the round trip into a condition on the pool alone. -/
theorem map_carried_eq_iff (pool : List Wallet) :
    pool.map carried = pool ↔ ∀ w ∈ pool, w.createdAt.LeapLast := by
  induction pool with
  | nil => simp
  | cons w rest ih =>
      rw [List.map_cons, List.cons.injEq, carried_eq_iff, ih, List.forall_mem_cons]

/-! ### Reading back -/

/-- A point in time is read as the time that it is carried to, because that is what its text
shows. -/
theorem reads_instant (t : Instant) (levels : Nat) :
    Reads (readInstant levels) (Json.quoted (Rfc3339.render t)) t.carried := by
  refine Json.reads_textAs ?_ _ levels
  show ((Rfc3339.parse (Rfc3339.render t)).map ClockTime.toInstant).mapError _ = _
  rw [Rfc3339.parse_render]
  rfl

/-- A wallet is read back but for its time, which is carried. The levels are those that its
own object and the object of its key open. All else of a wallet is texts, which are read back
as they are. -/
theorem reads_chars (w : Wallet) (levels : Nat) :
    Reads (Wallet.read (levels + 2)) w.chars w.carried :=
  Json.reads_record
    (.field (Json.reads_string w.address (levels + 1)).value (by simp)
      (.field (Json.reads_string w.publicHex (levels + 1)).value (by simp)
        (.field (SealedKey.reads_chars w.key levels).value (by simp)
          (.field (reads_instant w.createdAt (levels + 1)).value (by simp) .done))))
    rfl

/-- A pool is read back from its text, each wallet with the time that its own is carried to.
This holds for all wallets, whatever texts they have in their fields. -/
theorem parsePool_poolText (pool : List Wallet) :
    parsePool (poolText pool) = .ok (pool.map carried) := by
  have hbegins : ∀ w : Wallet, Json.BeginsValue w.chars := fun w =>
    ⟨'\x7b', _, rfl, by decide, by decide, by decide⟩
  have hlist := Json.reads_list pool (fun w _ => hbegins w) fun w _ => (reads_chars w 124).value
  exact Json.readAll_of_reads hlist.value

/-- A pool without odd leap seconds is read back as it was. Carrying changes none of its
instants. -/
theorem parsePool_poolText_of_leapLast {pool : List Wallet}
    (h : ∀ w ∈ pool, w.createdAt.LeapLast) : parsePool (poolText pool) = .ok pool := by
  rw [parsePool_poolText, (map_carried_eq_iff pool).2 h]

/-! ### What texts give -/

/-- A point in time that was read is no odd leap second, because no text gives one. -/
theorem leapLast_of_gives_instant {levels : Nat} {t : Instant}
    (h : Json.Gives (readInstant levels) t) : t.LeapLast := by
  obtain ⟨text, haccept⟩ := Json.accepted_of_gives h
  cases hparse : Rfc3339.parse text with
  | error e =>
      rw [hparse] at haccept
      cases haccept
  | ok t =>
      rw [hparse] at haccept
      cases haccept
      exact t.leapLast

/-- The time of a wallet that was read is that of its field, which has no fallback. So it was
given by a text. -/
theorem leapLast_of_gives {levels : Nat} {w : Wallet} (h : Json.Gives (read levels) w) :
    w.createdAt.LeapLast := by
  obtain ⟨inner, ⟨address, publicHex, key, createdAt, _⟩, hgiven, rfl⟩ :=
    Json.Layout.given_of_gives h
  obtain ⟨-, -, -, hcreated, -⟩ := hgiven
  rcases hcreated with hfallback | hgives
  · cases hfallback
  · have hinstant : Json.Gives (readInstant inner) createdAt := hgives
    exact leapLast_of_gives_instant hinstant

/-- No pool that was read from a text has an odd leap second, whatever the text. So a pool that
was listed can be written and listed again without a change. -/
theorem leapLast_of_parsePool {text : String} {pool : List Wallet}
    (h : parsePool text = .ok pool) : ∀ w ∈ pool, w.createdAt.LeapLast := by
  intro w hw
  obtain ⟨inner, hgives⟩ := Json.gives_of_mem (Json.gives_of_readAll h) w hw
  exact leapLast_of_gives hgives

end Wallet
end Keyring
