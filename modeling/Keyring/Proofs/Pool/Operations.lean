import Keyring.Pool.Operations
import Keyring.Proofs.Pool.Text
import Keyring.Proofs.Run
import Keyring.Proofs.Store.Sound

/-!
# `Keyring.Proofs.Pool.Operations`: what operations do to a stored pool

`Pool.stored` is the pool that a store holds. Each operation over a faulty store
has one lemma that says everything it can come to, with the calls that were
answered:

* `run_list`, `run_active`, `run_add_added`: what can be said over any store.
* `get_answered`, `put_answered`, `delete_answered`: a call that is answered.
* `list_ok`, `list_refused`, `save_ok`, `save_refused`: the two calls that
  every operation is made of.
* `keeps_list`, `keeps_active`, `keeps_find`, `keeps_unlock`: the operations that
  only read.
* `add_cases`, `removeWhere_cases`, `removeByKey_cases`, `clear_cases`: the
  operations that write.

An operation rereads the pool that was written before it as text, so all of
them rest on `Wallet.parsePool_poolText`. It gives back the pool that was
written, because no odd leap second gets into one: wallets that were read have
their times from a text and new ones from the clock (`leapLast_of_stored`,
`leapLast_append_built`).
-/

set_option autoImplicit false

namespace Keyring.Pool

/-- The wallets that a store holds; none if it holds no pool. -/
def stored {σ : Type} [Store σ] [Store.Sound σ] (s : Settings) (store : σ) :
    Except Json.Fault (List Wallet) :=
  match Store.Sound.lookup s.poolKey store with
  | none => .ok []
  | some text => Wallet.parsePool text

/-- A store with nothing but the text of a pool holds that pool. -/
theorem stored_singleton (s : Settings) {pool : List Wallet}
    (hleap : ∀ w ∈ pool, w.createdAt.LeapLast) :
    stored s (⟨[(s.poolKey, Wallet.poolText pool)]⟩ : Memory) = .ok pool := by
  have hlookup : Store.Sound.lookup s.poolKey (⟨[(s.poolKey, Wallet.poolText pool)]⟩ : Memory)
      = some (Wallet.poolText pool) := (Entries.lookup_entry ..).trans (if_pos rfl)
  rw [stored, hlookup]
  exact Wallet.parsePool_poolText_of_leapLast hleap

section Changed
variable {σ : Type} [Store σ] [Store.Sound σ]

/-- What a store holds after a pool was put into it: that pool with its times carried, since the
store keeps a text and the text is what is read again. -/
theorem stored_put_carried (s : Settings) (pool : List Wallet) (store : σ) :
    stored s (Store.put s.poolKey (Wallet.poolText pool) store).2
      = .ok (pool.map Wallet.carried) := by
  rw [stored, Store.Sound.lookup_put, if_pos rfl]
  exact Wallet.parsePool_poolText pool

/-- A pool without odd leap seconds is held as it is, since carrying its times changes none. -/
theorem stored_put (s : Settings) {pool : List Wallet}
    (hleap : ∀ w ∈ pool, w.createdAt.LeapLast) (store : σ) :
    stored s (Store.put s.poolKey (Wallet.poolText pool) store).2 = .ok pool := by
  rw [stored_put_carried, (Wallet.map_carried_eq_iff pool).2 hleap]

/-- A pool that a store holds has no odd leap seconds: it is empty or was read from a text. Every
operation that writes starts from such a pool, so the hypothesis of `stored_put` is met there. -/
theorem leapLast_of_stored {s : Settings} {store : σ} {pool : List Wallet}
    (h : stored s store = .ok pool) : ∀ w ∈ pool, w.createdAt.LeapLast := by
  rw [stored] at h
  split at h
  · cases h
    exact fun w hw => absurd hw List.not_mem_nil
  · exact Wallet.leapLast_of_parsePool h

/-- Without its key the pool is gone, and a store without it is read as one without wallets. -/
theorem stored_delete_poolKey (s : Settings) (store : σ) :
    stored s (Store.delete s.poolKey store).2 = .ok [] := by
  rw [stored, Store.Sound.lookup_delete, if_pos rfl]

/-- Without another key it is what it was. The pool stands under its own key alone. -/
theorem stored_delete_other {s : Settings} {key : String} (hkey : key ≠ s.poolKey) (store : σ) :
    stored s (Store.delete key store).2 = stored s store := by
  rw [stored, Store.Sound.lookup_delete, if_neg hkey.symm]
  rfl

end Changed

/-- The error of a call that was refused. -/
def refused : PoolError := .store (.io .diskFull)

namespace Context

variable {σ : Type}

/-- The context after the store was asked for a text. -/
def afterGet (c : Context (Faulty σ)) : Context (Faulty σ) :=
  { c with store := { c.store with gets := c.store.gets.next } }

/-- The context after the store was given a text, with what it holds then. -/
def afterPut (c : Context (Faulty σ)) (store : σ) : Context (Faulty σ) :=
  { c with store := { c.store with store, puts := c.store.puts.next } }

/-- The context after the store was told to delete a key, with what it holds then. -/
def afterDelete (c : Context (Faulty σ)) (store : σ) : Context (Faulty σ) :=
  { c with store := { c.store with store, deletes := c.store.deletes.next } }

end Context

/-! ### Calls -/

/-- A call runs to what the store answers, with its error told as one of the pool. -/
theorem run_call {σ α : Type} (f : σ → Except StoreError α × σ) (c : Context σ) :
    (call f).run c
      = (match (f c.store).1 with | .ok x => .ok x | .error e => .error (.store e),
          { c with store := (f c.store).2 }) := by
  rw [call, run_bind, run_modifyGet]
  simp only
  cases (f c.store).1 <;> rfl

/-- A draw gives what the source gives, and leaves the source after it. -/
theorem run_draw {σ α : Type} (f : Entropy → α × Entropy) (c : Context σ) :
    (draw f).run c = (.ok (f c.entropy).1, { c with entropy := (f c.entropy).2 }) :=
  rfl

/-! ### Any store -/

/-- A text is sealed with the bytes that are drawn, whatever the password is. -/
theorem iv_encrypt (e : Entropy) (text password : String) :
    (SealedKey.encrypt e text password).1.iv = Hex.encode (e.draw Gcm.ivLength).1 :=
  rfl

/-- Sealing a text uses up its vector and nothing else of the source. -/
theorem entropy_encrypt (e : Entropy) (text password : String) :
    (SealedKey.encrypt e text password).2 = (e.draw Gcm.ivLength).2 :=
  rfl

section Any
variable {σ : Type} [Store σ]

/-- What a store answers when it is asked for the pool. -/
def listed (s : Settings) (store : σ) : Except PoolError (List Wallet) :=
  match (Store.get s.poolKey store).1 with
  | .error e => .error (.store e)
  | .ok none => .ok []
  | .ok (some text) => (Wallet.parsePool text).mapError .corrupt

/-- To list the pool is to ask the store once. It holds for every store, so it does not say
what the answer is. The equations for stores that answer and for stores that refuse follow
from it. -/
theorem run_list (s : Settings) (c : Context σ) :
    (list s).run c
      = (listed s c.store, { c with store := (Store.get s.poolKey c.store).2 }) := by
  rw [list, run_bind, run_call, listed]
  cases (Store.get s.poolKey c.store).1 with
  | error e => rfl
  | ok text? =>
      cases text? with
      | none => rfl
      | some text =>
          dsimp only
          cases Wallet.parsePool text <;> rfl

/-- So it is to look for the active wallet, which is the first one that is listed. The first
wallet is the oldest one, since new ones are put at the end. -/
theorem run_active (s : Settings) (c : Context σ) :
    (active s).run c
      = ((listed s c.store).map List.head?,
          { c with store := (Store.get s.poolKey c.store).2 }) := by
  show (list s >>= fun pool => pure pool.head?).run c = _
  rw [run_bind, run_list]
  cases listed s c.store <;> rfl

/-- A pair that was added used up the vector that encrypts its private key, and took no time.
The proof that is signed afterwards therefore has the next bytes as its nonce and the same
time. -/
theorem run_add_added {s : Settings} {pair : KeyPair} {password : String} {new : Wallet}
    {c c' : Context σ} (h : (add s pair password).run c = (.ok (.added new), c')) :
    c'.entropy = (c.entropy.draw Gcm.ivLength).2 ∧ c'.now = c.now := by
  rw [add] at h
  obtain ⟨pool, mid, hlist, hrest⟩ := exists_of_run_bind_ok h
  rw [run_list] at hlist
  obtain ⟨-, rfl⟩ := Prod.mk.inj hlist
  -- A pair that is there is not added.
  split at hrest
  · cases congrArg Prod.fst hrest
  · obtain ⟨key, sealed, hdraw, hsave⟩ := exists_of_run_bind_ok hrest
    -- The only draw is that of the vector; the clock is read and the store is written after it.
    rw [run_draw, entropy_encrypt] at hdraw
    obtain ⟨-, rfl⟩ := Prod.mk.inj hdraw
    rw [run_bind_ok (run_get _)] at hsave
    obtain ⟨_, stored, hput, hpure⟩ := exists_of_run_bind_ok hsave
    rw [save.eq_def, run_call] at hput
    obtain ⟨-, rfl⟩ := Prod.mk.inj hput
    obtain ⟨-, rfl⟩ := Prod.mk.inj hpure
    exact ⟨rfl, rfl⟩

end Any

/-! ### Calls to a faulty store -/

variable {σ : Type} [Store σ] [Store.Sound σ] {s : Settings} {pool : List Wallet}
  {c : Context (Faulty σ)}

/-- A text is read, if the store answers its next reading. The plan for readings goes on by
one, and nothing else of the context changes. The three lemmas on calls are the only ones
that look into a faulty store. -/
theorem get_answered (key : String) (hget : c.store.gets.answers = true) :
    (call (Store.get key)).run c = (.ok (Store.Sound.lookup key c.store.store), c.afterGet) := by
  rw [run_call, Faulty.get_eq, if_pos hget]
  rfl

/-- A text is stored, if the store answers its next writing. The plan for writings goes on by
one. -/
theorem put_answered (key text : String) (hput : c.store.puts.answers = true) :
    (call (Store.put key text)).run c
      = (.ok (), c.afterPut (Store.put key text c.store.store).2) := by
  rw [run_call, Faulty.put_eq, if_pos hput]
  rfl

/-- A key is deleted, if the store answers its next deletion. The plan for deletions goes on
by one. -/
theorem delete_answered (key : String) (hdelete : c.store.deletes.answers = true) :
    (call (Store.delete key)).run c
      = (.ok (), c.afterDelete (Store.delete key c.store.store).2) := by
  rw [run_call, Faulty.delete_eq, if_pos hdelete]
  rfl

/-- The pool is read. A store without a pool is read as one without wallets. The pool is read
back from its text, which is why it has to be what the text says. -/
theorem list_ok (hpool : stored s c.store.store = .ok pool) (hget : c.store.gets.answers = true) :
    (list s).run c = (.ok pool, c.afterGet) := by
  unfold stored at hpool
  -- A store without a pool is read as one without wallets.
  rw [list, run_bind_ok (get_answered s.poolKey hget)]
  cases hlookup : Store.Sound.lookup s.poolKey c.store.store with
  | none =>
      rw [hlookup] at hpool
      rw [← Except.ok.inj hpool]
      rfl
  | some text =>
      rw [hlookup] at hpool
      have hread : Wallet.parsePool text = .ok pool := hpool
      dsimp only
      rw [hread]
      rfl

/-- The pool is not read, because the store refuses. The refusal comes before the text is
looked at, so it does not matter what is stored. -/
theorem list_refused (hget : c.store.gets.answers = false) :
    (list s).run c = (.error refused, c.afterGet) := by
  have hcall : (call (Store.get s.poolKey)).run c = (.error refused, c.afterGet) := by
    rw [run_call, Faulty.get_eq, if_neg (by rw [hget]; decide)]
    rfl
  rw [list, run_bind_error hcall]

/-- A pool without odd leap seconds is stored, and it is what the store then holds. The
condition on leap seconds is met by every pool that was read and by every wallet that is
added. -/
theorem save_ok (s : Settings) (hleap : ∀ w ∈ pool, w.createdAt.LeapLast)
    (hput : c.store.puts.answers = true) :
    ∃ store, stored s store = .ok pool ∧ (save s pool).run c = (.ok (), c.afterPut store) :=
  ⟨_, stored_put s hleap c.store.store, put_answered s.poolKey (Wallet.poolText pool) hput⟩

/-- A pool is not stored, because the store refuses. The store is as it was. The pool that
was to be stored is lost to the store, and the caller is told. -/
theorem save_refused (s : Settings) (pool : List Wallet) (hput : c.store.puts.answers = false) :
    (save s pool).run c = (.error refused, c.afterPut c.store.store) := by
  rw [save, run_call, Faulty.put_eq, if_neg (by rw [hput]; decide)]
  rfl

/-- The pool is deleted, and none is left. It does not matter whether the text that was
deleted was a pool. -/
theorem clear_ok (s : Settings) (hdelete : c.store.deletes.answers = true) :
    ∃ store, stored s store = .ok [] ∧ (clear s).run c = (.ok (), c.afterDelete store) :=
  ⟨_, stored_delete_poolKey s c.store.store, delete_answered s.poolKey hdelete⟩

/-- A key is not deleted, because the store refuses. The store is as it was. -/
theorem delete_refused (key : String) (hdelete : c.store.deletes.answers = false) :
    (call (Store.delete key)).run c = (.error refused, c.afterDelete c.store.store) := by
  rw [run_call, Faulty.delete_eq, if_neg (by rw [hdelete]; decide)]
  rfl

/-- Clearing the pool succeeds and leaves none, or leaves the pool as it is. The store either
deletes the entry of the pool or refuses to, and there is no third way. -/
theorem clear_cases (hpool : stored s c.store.store = .ok pool) :
    ∃ result c', (clear s).run c = (result, c') ∧
      (stored s c'.store.store = .ok pool ∨
        (result = .ok () ∧ stored s c'.store.store = .ok [])) := by
  cases hdelete : c.store.deletes.answers with
  | false => exact ⟨_, _, delete_refused s.poolKey hdelete, .inl hpool⟩
  | true =>
      obtain ⟨store, hstore, hrun⟩ := clear_ok s hdelete
      exact ⟨_, _, hrun, .inr ⟨rfl, hstore⟩⟩

/-- Another key is deleted; the pool stays. The entry of a removed wallet's backup is such a
key. -/
theorem delete_ok {key : String} (hkey : key ≠ s.poolKey)
    (hpool : stored s c.store.store = .ok pool) (hdelete : c.store.deletes.answers = true) :
    ∃ store, stored s store = .ok pool ∧
      (call (Store.delete key)).run c = (.ok (), c.afterDelete store) :=
  ⟨_, (stored_delete_other hkey c.store.store).trans hpool, delete_answered key hdelete⟩

/-! ### Reading -/

section Reading
variable {store : σ}

/-- Does the store below still hold what it held? -/
def Unwritten (store : σ) (c : Context (Faulty σ)) : Prop := c.store.store = store

/-- Reading a key writes nothing, whether or not it is answered. Only the plan for readings
has moved on. -/
theorem keeps_get (key : String) :
    Keeps (Unwritten store) (call (Store.get key) : Action (Faulty σ) (Option String)) := by
  intro c h
  rw [run_call, Faulty.get_eq]
  exact h

/-- Listing the pool writes nothing, also if the text is no pool. A text that is no pool is
an error, and the text stays where it is. -/
theorem keeps_list (s : Settings) : Keeps (Unwritten store) (list s) := by
  refine Keeps.bind (keeps_get s.poolKey) fun text? => ?_
  cases text? with
  | none => exact keeps_pure []
  | some text =>
      simp only
      split
      · exact keeps_pure _
      · exact keeps_throw _

/-- Looking for the active wallet writes nothing. It reads the pool and takes the first
wallet. -/
theorem keeps_active (s : Settings) : Keeps (Unwritten store) (active s) :=
  Keeps.bind (keeps_list s) fun _ => keeps_pure _

/-- Looking up a backup writes nothing. A text that is no backup is answered without asking
the store. -/
theorem keeps_find (s : Settings) (backup : String) : Keeps (Unwritten store) (find s backup) := by
  unfold find
  split
  · exact keeps_pure none
  · exact Keeps.bind (keeps_list s) fun _ => keeps_pure _

/-- Unlocking a wallet writes nothing, whether or not the password opens it. An unknown
address, a wrong password and a text that is no private key each end it without a call. -/
theorem keeps_unlock (s : Settings) (address password : String) :
    Keeps (Unwritten store) (unlock s address password) := by
  refine Keeps.bind (keeps_list s) fun pool => ?_
  split
  · exact keeps_pure none
  · split
    · exact keeps_pure none
    · split
      · exact keeps_pure _
      · exact keeps_throw _

end Reading

/-! ### Adding -/

/-- The wallet that is built to add a pair. -/
def built {σ : Type} (pair : KeyPair) (password : String) (c : Context σ) : Wallet :=
  ⟨pair.address, pair.publicHex, (SealedKey.encrypt c.entropy pair.secret.hex password).1, c.now⟩

/-- A pool that a store holds has no odd leap seconds after a wallet was added to it: the new
wallet has its time from the clock. So saving it and reading it back gives the same pool, and
the condition of `save_ok` is never in the way. -/
theorem leapLast_append_built {store : σ} (hpool : stored s store = .ok pool) (pair : KeyPair)
    (password : String) (c : Context (Faulty σ)) :
    ∀ w ∈ pool ++ [built pair password c], w.createdAt.LeapLast := by
  intro w hw
  rcases List.mem_append.1 hw with hold | hnew
  · exact leapLast_of_stored hpool w hold
  · obtain rfl := List.mem_singleton.1 hnew
    exact c.now.leapLast

/-- The context after a vector was drawn for a new wallet. -/
def Context.afterSeal {σ : Type} (c : Context σ) : Context σ :=
  { c with entropy := (c.entropy.draw Gcm.ivLength).2 }

/-- Is a pair in the pool? -/
def Present (pair : KeyPair) (pool : List Wallet) : Prop :=
  ∃ w ∈ pool, w.publicHex = pair.publicHex ∧ w.address = pair.address

/-- What adding a pair to a pool can come to. -/
inductive AddOutcome (s : Settings) (pair : KeyPair) (password : String) (pool : List Wallet)
    (c : Context (Faulty σ)) : Except PoolError Added → Context (Faulty σ) → Prop
  | unread : c.store.gets.answers = false →
      AddOutcome s pair password pool c (.error refused) c.afterGet
  | duplicate : c.store.gets.answers = true → Present pair pool →
      AddOutcome s pair password pool c (.ok .duplicate) c.afterGet
  | unwritten : c.store.gets.answers = true → ¬Present pair pool →
      c.store.puts.answers = false →
      AddOutcome s pair password pool c (.error refused)
        (c.afterGet.afterSeal.afterPut c.store.store)
  | added (store : σ) : c.store.gets.answers = true → ¬Present pair pool →
      c.store.puts.answers = true → stored s store = .ok (pool ++ [built pair password c]) →
      AddOutcome s pair password pool c (.ok (.added (built pair password c)))
        (c.afterGet.afterSeal.afterPut store)

/-- The search for a wallet of a pair finds one exactly if the pair is present. -/
theorem any_isOf_iff (pair : KeyPair) (pool : List Wallet) :
    (pool.any fun w => w.isOf pair.publicHex pair.address) = true ↔ Present pair pool := by
  rw [List.any_eq_true]
  simp only [Wallet.isOf, Bool.and_eq_true, beq_iff_eq]
  rfl

/-- Adding a pair comes to one of the four: the pool is not read, the pair is a duplicate,
the new pool is not stored, or it is. All later proofs about adding go by these cases. -/
theorem add_cases (hpool : stored s c.store.store = .ok pool) (pair : KeyPair)
    (password : String) :
    ∃ result c', (add s pair password).run c = (result, c') ∧
      AddOutcome s pair password pool c result c' := by
  cases hget : c.store.gets.answers with
  | false => exact ⟨_, _, run_bind_error (list_refused hget) _, .unread hget⟩
  | true =>
      by_cases hpresent : Present pair pool
      · refine ⟨_, _, ?_, .duplicate hget hpresent⟩
        rw [add, run_bind_ok (list_ok hpool hget), if_pos ((any_isOf_iff pair pool).2 hpresent)]
        rfl
      · have hany : ¬(pool.any fun w => w.isOf pair.publicHex pair.address) = true :=
          mt (any_isOf_iff pair pool).1 hpresent
        -- The vector is drawn and the time read before the pool is stored.
        have hsteps : (add s pair password).run c
            = (do save s (pool ++ [built pair password c])
                  return Added.added (built pair password c) : Action (Faulty σ) Added).run
                c.afterGet.afterSeal := by
          rw [add, run_bind_ok (list_ok hpool hget), if_neg hany]
          rfl
        rw [hsteps]
        cases hput : c.store.puts.answers with
        | false =>
            exact ⟨_, _, run_bind_error (save_refused (c := c.afterGet.afterSeal) s _ hput) _,
              .unwritten hget hpresent hput⟩
        | true =>
            obtain ⟨store, hstore, hsave⟩ :=
              save_ok (c := c.afterGet.afterSeal) s (leapLast_append_built hpool pair password c)
                hput
            exact ⟨_, _, run_bind_ok hsave _, .added store hget hpresent hput hstore⟩

/-- In a store that answers, a pair that is in the pool is a duplicate and any other is
added. -/
theorem add_of_answers (hpool : stored s c.store.store = .ok pool) (pair : KeyPair)
    (password : String) (hget : c.store.gets.answers = true) :
    (Present pair pool → ((add s pair password).run c).1 = .ok .duplicate) ∧
    (¬Present pair pool → c.store.puts.answers = true →
      ((add s pair password).run c).1 = .ok (.added (built pair password c))) := by
  obtain ⟨result, c', hrun, houtcome⟩ := add_cases hpool pair password
  rw [hrun]
  cases houtcome with
  | unread hrefused => exact absurd hget (by rw [hrefused]; decide)
  | duplicate _ hpresent => exact ⟨fun _ => rfl, fun habsent => absurd hpresent habsent⟩
  | unwritten _ habsent hrefused =>
      refine ⟨fun hpresent => absurd hpresent habsent, fun _ hput => ?_⟩
      exact absurd hput (by rw [hrefused]; decide)
  | added _ _ habsent => exact ⟨fun hpresent => absurd hpresent habsent, fun _ _ => rfl⟩

/-! ### Removing -/

/-- What removing wallets from a pool can come to; `kept` are those that are not picked. -/
inductive RemoveOutcome (s : Settings) (pool kept : List Wallet) (c : Context (Faulty σ)) :
    Except PoolError Bool → Context (Faulty σ) → Prop
  | unread : c.store.gets.answers = false →
      RemoveOutcome s pool kept c (.error refused) c.afterGet
  | unchanged : c.store.gets.answers = true → kept = pool →
      RemoveOutcome s pool kept c (.ok false) c.afterGet
  | unwritten : c.store.gets.answers = true → kept ≠ pool → c.store.puts.answers = false →
      RemoveOutcome s pool kept c (.error refused) (c.afterGet.afterPut c.store.store)
  | removed (store : σ) : c.store.gets.answers = true → kept ≠ pool →
      c.store.puts.answers = true → stored s store = .ok kept →
      RemoveOutcome s pool kept c (.ok true) (c.afterGet.afterPut store)

/-- Removing wallets comes to one of the four: the pool is not read, no wallet is picked,
what is left is not stored, or it is. The operation compares lengths to tell whether a wallet
was picked. -/
theorem removeWhere_cases (hpool : stored s c.store.store = .ok pool) (drop : Wallet → Bool) :
    ∃ result c', (removeWhere s drop).run c = (result, c') ∧
      RemoveOutcome s pool (pool.filter fun w => !drop w) c result c' := by
  -- The operation compares lengths: a wallet was removed exactly if fewer are left.
  have hlength : (pool.filter fun w => !drop w).length = pool.length ↔
      (pool.filter fun w => !drop w) = pool := by
    rw [List.length_filter_eq_length_iff, List.filter_eq_self]
  cases hget : c.store.gets.answers with
  | false => exact ⟨_, _, run_bind_error (list_refused hget) _, .unread hget⟩
  | true =>
      by_cases hsame : (pool.filter fun w => !drop w) = pool
      · refine ⟨_, _, ?_, .unchanged hget hsame⟩
        rw [removeWhere, run_bind_ok (list_ok hpool hget)]
        simp only
        rw [if_pos (hlength.2 hsame)]
        rfl
      · have hsteps : (removeWhere s drop).run c
            = (do save s (pool.filter fun w => !drop w)
                  return true : Action (Faulty σ) Bool).run c.afterGet := by
          rw [removeWhere, run_bind_ok (list_ok hpool hget)]
          simp only
          rw [if_neg (mt hlength.1 hsame)]
        rw [hsteps]
        cases hput : c.store.puts.answers with
        | false =>
            exact ⟨_, _, run_bind_error (save_refused (c := c.afterGet) s _ hput) _,
              .unwritten hget hsame hput⟩
        | true =>
            have hleap : ∀ w ∈ pool.filter fun w => !drop w, w.createdAt.LeapLast :=
              fun w hw => leapLast_of_stored hpool w (List.mem_filter.1 hw).1
            obtain ⟨store, hstore, hsave⟩ := save_ok (c := c.afterGet) s hleap hput
            exact ⟨_, _, run_bind_ok hsave _, .removed store hget hsame hput hstore⟩

/-- Removing wallets leaves the pool as it is, or succeeds. Of the four ways in which it can
end, only one has written. -/
theorem RemoveOutcome.stored_or {kept : List Wallet} {result : Except PoolError Bool}
    {c' : Context (Faulty σ)} (h : RemoveOutcome s pool kept c result c')
    (hpool : stored s c.store.store = .ok pool) :
    stored s c'.store.store = .ok pool ∨
      (result = .ok true ∧ stored s c'.store.store = .ok kept) := by
  cases h with
  | unread => exact .inl hpool
  | unchanged => exact .inl hpool
  | unwritten => exact .inl hpool
  | removed store _ _ _ hstore => exact .inr ⟨rfl, hstore⟩

/-- Removing by a backup leaves the pool as it is, or succeeds and removes the wallets that the
backup belongs to. The backup may not be the pool's own key. -/
theorem removeByKey_cases (hpool : stored s c.store.store = .ok pool) {backup : String}
    (hbackup : backup ≠ s.poolKey) :
    ∃ result c', (removeByKey s backup).run c = (result, c') ∧
      (stored s c'.store.store = .ok pool ∨
        ∃ publicHex address, identity? s backup = some (publicHex, address) ∧ result = .ok true ∧
          stored s c'.store.store = .ok (pool.filter fun w => !w.isOf publicHex address)) := by
  cases hdelete : c.store.deletes.answers with
  | false =>
      exact ⟨_, _, run_bind_error (delete_refused backup hdelete) _, .inl hpool⟩
  | true =>
      obtain ⟨store, hstore, hrun⟩ := delete_ok hbackup hpool hdelete
      -- The text under the backup itself is gone by now; the pool is still there.
      rw [removeByKey, run_bind_ok hrun]
      cases hidentity : identity? s backup with
      | none => exact ⟨_, _, rfl, .inl hstore⟩
      | some identity =>
          obtain ⟨publicHex, address⟩ := identity
          obtain ⟨result, c', hremove, houtcome⟩ :=
            removeWhere_cases (c := c.afterDelete store) hstore fun w => w.isOf publicHex address
          refine ⟨result, c', hremove, ?_⟩
          rcases houtcome.stored_or hstore with hsame | ⟨hresult, hkept⟩
          · exact .inl hsame
          · exact .inr ⟨publicHex, address, rfl, hresult, hkept⟩

end Keyring.Pool
