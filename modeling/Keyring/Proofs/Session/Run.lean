import Keyring.Proofs.Key.Pair
import Keyring.Proofs.Session.Flow

/-!
# `Keyring.Proofs.Session.Run`: pools over whole runs

A run is a list of operations in any order, each in its own circumstances: the
bytes that are drawn, the time, the calls that the store refuses, and what the
ledger answers. Every wallet that comes into the pool is an `Entry` of the run's
history, with the private key and the password that it was added with.

* `Op.outcome`: one operation adds an entry at the end, removes entries, or
  leaves the pool as it is.
* `holds_run`: so the pool is made of entries of the history, in their order
  and no private key twice, after every run from a store without a pool.
* `pool_invariant`: what follows for the stored text, the active wallet and
  duplicates; and no wallet is lost unless a step removes it.
-/

set_option autoImplicit false

namespace Keyring.Session

open Pool (built Present)

/-! ### Operations -/

/-- What a caller asks of a session or of its pool. -/
inductive Op where
  | add (keyText password : String)
  | clear
  | removeByAddress (address : String)
  | removeByKey (backup : String)
  | list
  | active
  | find (backup : String)
  | unlock (address password : String)
  | create (password : String)
  | restore (backup password : String)
  | reauthenticate (password : String)
  | submit (password : String) (payload : Payload)
  | exportActive (password : String)
  | disconnect

namespace Op

/-- What the caller gets if the operation succeeds. -/
def Answer : Op → Type
  | add .. => Pool.Added
  | clear | disconnect => Unit
  | removeByAddress _ | removeByKey _ => Bool
  | list => List Wallet
  | active | find _ => Option Wallet
  | unlock .. => Option KeyPair
  | create _ | restore .. => Connected
  | reauthenticate _ => Wallet
  | submit .. => Signed Json
  | exportActive _ => String

section Model
variable {σ : Type} [Store σ]

/-- Carries an operation out. -/
def act (s : Settings) : (op : Op) → Action σ op.Answer
  | add keyText password =>
    match KeyPair.ofHex keyText with
    | .ok pair => onPool (Pool.add s pair password)
    | .error e => throw (.key e)
  | clear => onPool (Pool.clear s)
  | removeByAddress address => onPool (Pool.removeByAddress s address)
  | removeByKey backup => onPool (Pool.removeByKey s backup)
  | list => onPool (Pool.list s)
  | active => onPool (Pool.active s)
  | find backup => onPool (Pool.find s backup)
  | unlock address password => onPool (Pool.unlock s address password)
  | create password => Origin.fresh.flow s password
  | restore backup password => (Origin.backup backup).flow s password
  | reauthenticate password => Session.reauthenticate s password
  | submit password payload => Session.submit s password payload
  | exportActive password => Session.exportActive s password
  | disconnect => Session.disconnect s

/-- Does an operation succeed? -/
def Succeeds (s : Settings) (w : World σ) (op : Op) : Prop :=
  ∃ answer, ((op.act s).run w).1 = .ok answer

/-- Does an operation that succeeds remove this wallet? -/
def Removes (s : Settings) (w : World σ) (op : Op) (wallet : Wallet) : Prop :=
  op.Succeeds s w ∧
    match op with
    | clear | disconnect => True
    | removeByAddress address => wallet.address = address
    | removeByKey backup => Pool.identity? s backup = some (wallet.publicHex, wallet.address)
    | _ => False

end Model
end Op

/-! ### Runs -/

/-- A wallet that was added, with the private key and the password that it was added with. -/
structure Entry where
  secret : Secret
  password : String
  wallet : Wallet
  deriving DecidableEq, Repr

section Model
variable {σ : Type} [Store σ]

/-- The entry that adding a pair makes, if the pair is added. -/
def Entry.added? (s : Settings) (pair : KeyPair) (password : String) (c : Pool.Context σ) :
    Option Entry :=
  match ((Pool.add s pair password).run c).1 with
  | .ok (.added wallet) => some ⟨pair.secret, password, wallet⟩
  | _ => none

/-- The entry of an origin. -/
def Origin.added? (s : Settings) (password : String) (c : Pool.Context σ) (origin : Origin) :
    Option Entry :=
  (origin.pair? s c.entropy).bind fun pair => Entry.added? s pair password (origin.context c)

/-- The entry that an operation adds. -/
def Op.added? (s : Settings) (c : Pool.Context σ) : Op → Option Entry
  | add keyText password =>
    (KeyPair.ofHex keyText).toOption.bind fun pair => Entry.added? s pair password c
  | create password => Origin.fresh.added? s password c
  | restore backup password => (Origin.backup backup).added? s password c
  | _ => none

end Model

/-- An operation and its circumstances: the source of bytes, the time, the calls that the store
answers, and the texts with which the ledger refuses. -/
structure Step where
  op : Op
  entropy : Entropy
  now : ClockTime
  gets : Plan
  puts : Plan
  deletes : Plan
  refuseConnect : Option String
  refuseSubmit : Option String

namespace Step
variable {σ : Type}

/-- The world in which a step starts with a store. -/
def start (step : Step) (store : σ) : World (Faulty σ) :=
  ⟨⟨⟨store, step.gets, step.puts, step.deletes⟩, step.entropy, step.now⟩,
    ⟨step.refuseConnect, step.refuseSubmit, []⟩, []⟩

variable [Store σ]

/-- The store after a step. -/
def next (s : Settings) (store : σ) (step : Step) : σ :=
  ((step.op.act s).run (step.start store)).2.context.store.store

end Step

section Model
variable {σ : Type} [Store σ]

/-- The store after a run. -/
def run (s : Settings) (steps : List Step) (store : σ) : σ := steps.foldl (Step.next s) store

/-- The entries that came into the pool in a run, in the order in which they were added. -/
def history (s : Settings) : List Step → σ → List Entry
  | [], _ => []
  | step :: rest, store =>
    (step.op.added? s (step.start store).context).toList ++ history s rest (step.next s store)

/-- Does no step of a run remove this wallet? -/
def Unremoved (s : Settings) (wallet : Wallet) : List Step → σ → Prop
  | [], _ => True
  | step :: rest, store =>
    ¬step.op.Removes s (step.start store) wallet ∧ Unremoved s wallet rest (step.next s store)

/-- Did a step of a run add this entry and succeed, and did no later step remove its wallet? -/
def Survives (s : Settings) (e : Entry) : List Step → σ → Prop
  | [], _ => False
  | step :: rest, store =>
    (step.op.added? s (step.start store).context = some e ∧
      step.op.Succeeds s (step.start store) ∧ Unremoved s e.wallet rest (step.next s store)) ∨
    Survives s e rest (step.next s store)

/-- Has no other private key of a run the address of this entry? -/
def Alone (s : Settings) (e : Entry) (steps : List Step) (store : σ) : Prop :=
  ∀ f ∈ history s steps store, f.wallet.address = e.wallet.address → f.secret = e.secret

end Model

/-- A run goes on from where its first part ended. The steps have their own clocks, sources
and failures, so nothing but the store is handed on. -/
theorem run_append {σ : Type} [Store σ] (s : Settings) (steps rest : List Step) (store : σ) :
    run s (steps ++ rest) store = run s rest (run s steps store) :=
  List.foldl_append

/-- The history of a run goes on with that of what comes after it. -/
theorem history_append {σ : Type} [Store σ] (s : Settings) (steps rest : List Step) (store : σ) :
    history s (steps ++ rest) store
      = history s steps store ++ history s rest (run s steps store) := by
  induction steps generalizing store with
  | nil => rfl
  | cons step steps ih =>
      rw [List.cons_append, history, history, ih, List.append_assoc]
      rfl

/-! ### Outcomes -/

section Outcomes
variable {σ : Type} [Store σ] {s : Settings} {w : World (Faulty σ)} {op : Op}
  {entries left : List Entry}

/-- What an operation leaves of the entries. -/
inductive Op.Outcome (s : Settings) (w : World (Faulty σ)) (op : Op) (entries : List Entry) :
    List Entry → Prop
  | same : op.added? s w.context = none → Outcome s w op entries entries
  | removed (drop : Wallet → Bool) : op.added? s w.context = none →
      (∀ wallet, drop wallet = true → op.Removes s w wallet) →
      Outcome s w op entries (entries.filter fun e => !drop e.wallet)
  | added (e : Entry) : op.added? s w.context = some e → Outcome s w op entries (entries ++ [e])
  | takenBack (e : Entry) : op.added? s w.context = some e → ¬op.Succeeds s w →
      Outcome s w op entries (entries.filter fun f => !(f.wallet.address == e.wallet.address))

/-- What an operation leaves is made of the entries and the one that it adds, in order. -/
theorem Op.Outcome.sublist (h : op.Outcome s w entries left) :
    left.Sublist (entries ++ (op.added? s w.context).toList) := by
  cases h with
  | same hnone =>
      rw [hnone, Option.toList_none, List.append_nil]
  | removed drop hnone _ =>
      rw [hnone, Option.toList_none, List.append_nil]
      exact List.filter_sublist
  | added e hsome =>
      rw [hsome]
      exact List.Sublist.refl _
  | takenBack e _ _ => exact List.filter_sublist.trans (List.sublist_append_left _ _)

/-- The entry of an operation that succeeds is there afterwards. It is taken back only by an
operation that fails. -/
theorem Op.Outcome.mem_added (hleft : op.Outcome s w entries left)
    {e : Entry} (hadded : op.added? s w.context = some e) (hsucceeds : op.Succeeds s w) :
    e ∈ left := by
  cases hleft with
  | same hnone => exact absurd (hnone.symm.trans hadded) nofun
  | removed _ hnone _ => exact absurd (hnone.symm.trans hadded) nofun
  | added f hf =>
      obtain rfl := Option.some.inj (hf.symm.trans hadded)
      exact List.mem_append_right _ (List.mem_singleton_self f)
  | takenBack _ _ hfails => exact absurd hsucceeds hfails

end Outcomes

/-! ### What a store holds -/

/-- A wallet that was built from its private key under its password. -/
structure Entry.Made (e : Entry) : Prop where
  address : e.wallet.address = (KeyPair.ofSecret e.secret).address
  publicHex : e.wallet.publicHex = (KeyPair.ofSecret e.secret).publicHex
  key : ∃ entropy, e.wallet.key = (SealedKey.encrypt entropy e.secret.hex e.password).1

/-- A store holds the wallets of these entries, each with a private key of its own. -/
structure Holds {σ : Type} [Store σ] [Store.Sound σ] (s : Settings) (store : σ)
    (entries : List Entry) : Prop where
  stored : Pool.stored s store = .ok (entries.map Entry.wallet)
  made : ∀ e ∈ entries, e.Made
  nodup : (entries.map Entry.secret).Nodup

variable {σ : Type} [Store σ] [Store.Sound σ] {s : Settings} {w : World (Faulty σ)}
  {entries : List Entry}

/-- A pair is in the pool if and only if an entry has its private key, because a public key
belongs to one private key. -/
theorem Holds.present_iff {store : σ} (h : Holds s store entries) (secret : Secret) :
    Present (KeyPair.ofSecret secret) (entries.map Entry.wallet) ↔
      ∃ e ∈ entries, e.secret = secret := by
  constructor
  · rintro ⟨wallet, hmem, hpublic, -⟩
    obtain ⟨e, he, rfl⟩ := List.mem_map.1 hmem
    rw [(h.made e he).publicHex] at hpublic
    exact ⟨e, he, KeyPair.eq_of_publicHex_eq hpublic⟩
  · rintro ⟨e, he, rfl⟩
    exact ⟨e.wallet, List.mem_map_of_mem he, (h.made e he).publicHex, (h.made e he).address⟩

/-- The pool after an operation is what one of its outcomes leaves. -/
def Op.HasOutcome (s : Settings) (w : World (Faulty σ)) (op : Op) (entries : List Entry) : Prop :=
  ∃ left, op.Outcome s w entries left ∧
    ((op.act s).run w).2.stored s = .ok (left.map Entry.wallet)

/-! ### One operation -/

/-- The pair of an origin is the pair of its private key. A fresh pair and one that is read
from a backup are both built from a private key. -/
theorem Origin.eq_ofSecret {origin : Origin} {pair : KeyPair} {e : Entropy}
    (h : origin.pair? s e = some pair) : pair = KeyPair.ofSecret pair.secret := by
  cases origin with
  | fresh =>
      rw [← Option.some.inj h]
      rfl
  | backup text =>
      obtain ⟨key, -, hkey⟩ := Option.bind_eq_some_iff.1 h
      cases hpair : KeyPair.ofHex key with
      | error e =>
          rw [hpair] at hkey
          exact absurd hkey nofun
      | ok found =>
          rw [hpair] at hkey
          rw [← Option.some.inj hkey]
          exact KeyPair.eq_ofSecret_of_ofHex hpair

/-- A pair that is added makes an entry with a new private key: any other would be a
duplicate. -/
theorem Entry.added?_spec {c : Pool.Context (Faulty σ)} (h : Holds s c.store.store entries)
    {pair : KeyPair} (hpair : pair = KeyPair.ofSecret pair.secret) {password : String} {e : Entry}
    (hadded : Entry.added? s pair password c = some e) :
    e = ⟨pair.secret, password, built pair password c⟩ ∧ e.Made ∧
      e.secret ∉ entries.map Entry.secret := by
  obtain ⟨result, c', hrun, houtcome⟩ := Pool.add_cases h.stored pair password
  rw [Entry.added?, hrun] at hadded
  cases houtcome with
  | unread => exact absurd hadded nofun
  | duplicate => exact absurd hadded nofun
  | unwritten => exact absurd hadded nofun
  | added store _ habsent _ _ =>
      obtain rfl := Option.some.inj hadded
      refine ⟨rfl, ⟨?_, ?_, c.entropy, rfl⟩, ?_⟩
      · exact congrArg KeyPair.address hpair
      · exact congrArg KeyPair.publicHex hpair
      · -- An entry with this private key would have made the pair present.
        intro hmem
        obtain ⟨other, hother, hsecret⟩ := List.mem_map.1 hmem
        rw [hpair] at habsent
        exact habsent ((h.present_iff pair.secret).2 ⟨other, hother, hsecret⟩)

/-- The entry of an operation is new, whichever operation adds it. Only creating and
importing add one, and both build a wallet whose key the pool did not have. -/
theorem Op.added?_spec (h : Holds s w.context.store.store entries) {op : Op} {e : Entry}
    (hadded : op.added? s w.context = some e) : e.Made ∧ e.secret ∉ entries.map Entry.secret := by
  have horigin : ∀ {origin : Origin} {password : String},
      origin.added? s password w.context = some e →
      e.Made ∧ e.secret ∉ entries.map Entry.secret := by
    intro origin password hsome
    obtain ⟨pair, hpair, hentry⟩ := Option.bind_eq_some_iff.1 hsome
    rw [← origin.context_store w.context] at h
    exact (Entry.added?_spec h (Origin.eq_ofSecret hpair) hentry).2
  cases op with
  | add keyText password =>
      obtain ⟨pair, hpair, hentry⟩ := Option.bind_eq_some_iff.1 hadded
      -- The key is given as a text, so the pair is the one that was read from it.
      cases hread : KeyPair.ofHex keyText with
      | error e =>
          rw [hread] at hpair
          exact absurd hpair nofun
      | ok found =>
          rw [hread] at hpair
          obtain rfl := Option.some.inj hpair
          exact (Entry.added?_spec h (KeyPair.eq_ofSecret_of_ofHex hread) hentry).2
  | create password => exact horigin hadded
  | restore backup password => exact horigin hadded
  | _ => exact absurd hadded nofun

/-- The wallets of the entries that are kept are the wallets that are kept. -/
theorem map_wallet_filter (entries : List Entry) (keep : Wallet → Bool) :
    (entries.filter fun e => keep e.wallet).map Entry.wallet
      = (entries.map Entry.wallet).filter keep := by
  rw [List.filter_map]
  rfl

/-- A wallet that was taken back is there still, if the store refused, or gone with the
others of its address. -/
theorem stored_takenBack {f : Faulty σ} {e : Entry}
    (h : w.stored s = .ok (takenBack f (entries.map Entry.wallet) e.wallet)) :
    w.stored s = .ok ((entries ++ [e]).map Entry.wallet) ∨
      w.stored s = .ok ((entries.filter fun f => !(f.wallet.address == e.wallet.address)).map
        Entry.wallet) := by
  unfold takenBack at h
  split at h
  · rw [map_wallet_filter entries fun v => !(v.address == e.wallet.address)]
    exact .inr h
  · rw [List.map_append]
    exact .inl h

/-- Making or importing a wallet adds its entry and keeps it, or fails and takes it back. -/
theorem Origin.flow_cases (h : Holds s w.context.store.store entries) (origin : Origin)
    (password : String) :
    ∃ result after, (origin.flow s password).run w = (result, after) ∧
      ((origin.added? s password w.context = none ∧
          after.stored s = .ok (entries.map Entry.wallet)) ∨
        ∃ e, origin.added? s password w.context = some e ∧
          (after.stored s = .ok ((entries ++ [e]).map Entry.wallet) ∨
            (∃ error, result = .error error) ∧ after.stored s
              = .ok ((entries.filter fun f => !(f.wallet.address == e.wallet.address)).map
                Entry.wallet))) := by
  rcases run_flow_cases s origin password w with
    ⟨hpair, e, after, hrun, -, hcontext, -⟩ | ⟨pair, start, hpair, hcontext, -, hrun⟩
  · refine ⟨_, after, hrun, .inl ⟨?_, ?_⟩⟩
    · rw [added?, hpair, Option.bind_none]
    · rw [World.stored, hcontext]
      exact h.stored
  · have hstart : start.stored s = .ok (entries.map Entry.wallet) := by
      rw [World.stored, hcontext, Origin.context_store]
      exact h.stored
    obtain ⟨result, after, hconnect, houtcome⟩ := storeAndConnect_cases hstart pair password
    -- The flow adds its pair in the context that is left after the key was made.
    have hadded : origin.added? s password w.context
        = Entry.added? s pair password start.context := by
      rw [added?, hpair, Option.bind_some, hcontext]
    rw [hadded, Entry.added?]
    refine ⟨result, after, hrun.trans hconnect, ?_⟩
    cases houtcome with
    | unstored hadd hstored _ =>
        rw [hadd]
        exact .inl ⟨rfl, hstored⟩
    | duplicate hadd hstored _ =>
        rw [hadd]
        exact .inl ⟨rfl, hstored⟩
    | unsigned hadd _ _ hstored _ =>
        rw [hadd]
        exact .inr ⟨_, rfl, (stored_takenBack (e := ⟨_, _, _⟩) hstored).imp_right fun hgone =>
          ⟨⟨_, rfl⟩, hgone⟩⟩
    | rejected hadd _ _ _ hstored _ =>
        rw [hadd]
        exact .inr ⟨_, rfl, (stored_takenBack (e := ⟨_, _, _⟩) hstored).imp_right fun hgone =>
          ⟨⟨_, rfl⟩, hgone⟩⟩
    | connected _ hadd _ _ _ hstored _ =>
        rw [hadd]
        refine .inr ⟨_, rfl, .inl ?_⟩
        rw [List.map_append]
        exact hstored

/-- An operation that only reads leaves the entries as they are. The entries are the same
because the text of the pool is. -/
theorem Op.outcome_of_keeps (h : Holds s w.context.store.store entries) {op : Op}
    (hadded : op.added? s w.context = none)
    (hkeeps : Keeps (Unwritten w.context.store.store) (op.act s)) : op.HasOutcome s w entries := by
  refine ⟨entries, .same hadded, ?_⟩
  rw [World.stored, show _ = _ from hkeeps w rfl]
  exact h.stored

/-- An operation on the pool that removes the wallets that `drop` picks, or fails to. What it
removes is what the operation is said to remove. -/
theorem Op.outcome_of_removes {op : Op} (hadded : op.added? s w.context = none)
    {act : Pool.Action (Faulty σ) op.Answer} (hact : op.act s = onPool act)
    {result : Except PoolError op.Answer} {c : Pool.Context (Faulty σ)}
    (hrun : act.run w.context = (result, c)) (drop : Wallet → Bool)
    (hremoves : ∀ wallet, drop wallet = true → op.Succeeds s w → op.Removes s w wallet)
    (hstored : Pool.stored s c.store.store = .ok (entries.map Entry.wallet) ∨
      (∃ answer, result = .ok answer) ∧ Pool.stored s c.store.store
        = .ok ((entries.map Entry.wallet).filter fun v => !drop v)) :
    op.HasOutcome s w entries := by
  have hafter : (op.act s).run w = (result.mapError .pool, w.withContext c) := by
    rw [hact, run_onPool, hrun]
  rw [HasOutcome, hafter]
  -- The pool is the one from before, or the operation succeeded and the picked ones are gone.
  rcases hstored with hsame | ⟨⟨answer, rfl⟩, hkept⟩
  · exact ⟨entries, .same hadded, hsame⟩
  · have hsucceeds : op.Succeeds s w := ⟨answer, by rw [hafter]; rfl⟩
    refine ⟨_, .removed drop hadded fun wallet hdrop => hremoves wallet hdrop hsucceeds, ?_⟩
    rw [map_wallet_filter entries fun v => !drop v]
    exact hkept

/-- Making or importing a wallet as an operation. The cases of a flow are those of the
operation, whatever the operation gives to its caller. -/
theorem Op.outcome_of_flow (h : Holds s w.context.store.store entries) {op : Op}
    (origin : Origin) {password : String}
    (hadded : op.added? s w.context = origin.added? s password w.context)
    (hafter : ((op.act s).run w).2 = ((origin.flow s password).run w).2)
    (hsucceeds : op.Succeeds s w →
      ∃ connected, ((origin.flow s password).run w).1 = .ok connected) :
    op.HasOutcome s w entries := by
  obtain ⟨result, after, hflow, houtcome⟩ := origin.flow_cases h password
  rw [hflow] at hafter hsucceeds
  rw [HasOutcome, hafter]
  -- Nothing was added; or the entry was added and stays; or it was added and taken back.
  rcases houtcome with ⟨hnone, hstored⟩ | ⟨e, hsome, hstored | ⟨herror, hstored⟩⟩
  · exact ⟨entries, .same (hadded.trans hnone), hstored⟩
  · exact ⟨entries ++ [e], .added e (hadded.trans hsome), hstored⟩
  · refine ⟨_, .takenBack e (hadded.trans hsome) fun hop => ?_, hstored⟩
    obtain ⟨error, rfl⟩ := herror
    obtain ⟨connected, hok⟩ := hsucceeds hop
    exact absurd hok nofun

/-- Adding a pair as an operation. A text that is no private key adds nothing. -/
theorem Op.outcome_add (h : Holds s w.context.store.store entries) (keyText password : String) :
    (Op.add keyText password).HasOutcome s w entries := by
  cases hread : KeyPair.ofHex keyText with
  | error e =>
      refine outcome_of_keeps h ?_ ?_
      · rw [added?, hread]
        rfl
      · rw [act, hread]
        exact keeps_throw (SessionError.key e)
  | ok pair =>
      -- With a key that is read, the operation is the one on the pool.
      have hact : (Op.add keyText password).act s
          = (onPool (Pool.add s pair password) : Action (Faulty σ) Pool.Added) := by
        rw [act, hread]
        rfl
      have hadded : (Op.add keyText password).added? s w.context
          = Entry.added? s pair password w.context := by
        rw [added?, hread]
        rfl
      obtain ⟨result, c', hrun, houtcome⟩ := Pool.add_cases h.stored pair password
      rw [Entry.added?, hrun] at hadded
      have hafter : ((Op.add keyText password).act s).run w
          = (result.mapError .pool, w.withContext c') := by
        rw [hact]
        exact (run_onPool (Pool.add s pair password) w).trans (by rw [hrun])
      rw [HasOutcome, hafter]
      cases houtcome with
      | unread => exact ⟨entries, .same hadded, h.stored⟩
      | duplicate => exact ⟨entries, .same hadded, h.stored⟩
      | unwritten => exact ⟨entries, .same hadded, h.stored⟩
      | added store _ _ _ hstore =>
          refine ⟨entries ++ [_], .added _ hadded, ?_⟩
          rw [List.map_append]
          exact hstore

/-- Each operation leaves the entries as an outcome says. No backup that is removed may be
the pool's own key. It is the one place where the fourteen operations are gone through; the
lemmas on runs use the outcomes alone. -/
theorem Op.outcome (h : Holds s w.context.store.store entries) (op : Op)
    (hop : op ≠ .removeByKey s.poolKey) : op.HasOutcome s w entries := by
  -- Both ways to clear the pool come to the same.
  have hclear : ∃ result c', (Pool.clear s).run w.context = (result, c') ∧
      (Pool.stored s c'.store.store = .ok (entries.map Entry.wallet) ∨
        (∃ answer, result = .ok answer) ∧ Pool.stored s c'.store.store
          = .ok ((entries.map Entry.wallet).filter fun _ => !true)) := by
    obtain ⟨result, c', hrun, hstored⟩ := Pool.clear_cases h.stored
    refine ⟨result, c', hrun, ?_⟩
    rw [show (fun _ : Wallet => !true) = fun _ => false from rfl, List.filter_false]
    exact hstored.imp_right fun hnone => ⟨⟨(), hnone.1⟩, hnone.2⟩
  cases op with
  | add keyText password => exact outcome_add h keyText password
  | clear =>
      obtain ⟨result, c', hrun, hstored⟩ := hclear
      exact outcome_of_removes rfl rfl hrun (fun _ => true)
        (fun _ _ hsucceeds => ⟨hsucceeds, trivial⟩) hstored
  | removeByAddress address =>
      obtain ⟨result, c', hrun, houtcome⟩ :=
        Pool.removeWhere_cases (c := w.context) h.stored fun v => v.address == address
      refine outcome_of_removes rfl rfl hrun (fun v => v.address == address)
        (fun _ hdrop hsucceeds => ⟨hsucceeds, beq_iff_eq.1 hdrop⟩) ?_
      exact (houtcome.stored_or h.stored).imp_right fun hkept => ⟨⟨true, hkept.1⟩, hkept.2⟩
  | removeByKey backup =>
      obtain ⟨result, c', hrun, hsame | ⟨publicHex, address, hidentity, hresult, hkept⟩⟩ :=
        Pool.removeByKey_cases h.stored fun heq => hop (congrArg removeByKey heq)
      · refine outcome_of_removes rfl rfl hrun (fun _ => false)
          (fun _ hdrop => absurd hdrop Bool.false_ne_true) (.inl hsame)
      · refine outcome_of_removes rfl rfl hrun (fun v => v.isOf publicHex address) ?_
          (.inr ⟨⟨true, hresult⟩, hkept⟩)
        intro wallet hdrop hsucceeds
        obtain ⟨hpublic, haddress⟩ := Bool.and_eq_true_iff.1 hdrop
        rw [← beq_iff_eq.1 hpublic, ← beq_iff_eq.1 haddress] at hidentity
        exact ⟨hsucceeds, hidentity⟩
  | create password => exact outcome_of_flow h .fresh rfl rfl id
  | restore backup password => exact outcome_of_flow h (.backup backup) rfl rfl id
  | list => exact outcome_of_keeps h rfl (keeps_onPool (Pool.keeps_list s))
  | active => exact outcome_of_keeps h rfl (keeps_onPool (Pool.keeps_active s))
  | find backup => exact outcome_of_keeps h rfl (keeps_onPool (Pool.keeps_find s backup))
  | unlock address password =>
      exact outcome_of_keeps h rfl (keeps_onPool (Pool.keeps_unlock s address password))
  | reauthenticate password => exact outcome_of_keeps h rfl (keeps_reauthenticate s password)
  | submit password payload => exact outcome_of_keeps h rfl (keeps_submit s password payload)
  | exportActive password => exact outcome_of_keeps h rfl (keeps_exportActive s password)
  | disconnect =>
      obtain ⟨result, c', hrun, hstored⟩ := hclear
      exact outcome_of_removes rfl rfl hrun (fun _ => true)
        (fun _ _ hsucceeds => ⟨hsucceeds, trivial⟩) hstored

/-! ### Runs of operations -/

/-- An operation keeps an entry that it does not remove, if the one that it adds has another
private key or another address. -/
theorem Op.Outcome.mem (h : Holds s w.context.store.store entries) {op : Op} {left : List Entry}
    (hleft : op.Outcome s w entries left) {e : Entry} (he : e ∈ entries)
    (hkept : ¬op.Removes s w e.wallet)
    (halone : ∀ f, op.added? s w.context = some f → f.wallet.address = e.wallet.address →
      f.secret = e.secret) : e ∈ left := by
  cases hleft with
  | same => exact he
  | removed drop _ hremoves =>
      refine List.mem_filter.2 ⟨he, ?_⟩
      cases hdrop : drop e.wallet with
      | false => rfl
      | true => exact absurd (hremoves e.wallet hdrop) hkept
  | added f _ => exact List.mem_append_left _ he
  | takenBack f hadded _ =>
      refine List.mem_filter.2 ⟨he, ?_⟩
      rw [Bool.not_eq_true', beq_eq_false_iff_ne]
      -- The key of the wallet that was taken back was new.
      intro heq
      have hsame := halone f hadded heq.symm
      exact (Op.added?_spec h hadded).2 (hsame ▸ List.mem_map_of_mem he)

/-- An operation keeps entries made from their private keys, and no private key twice. -/
theorem Holds.of_outcome (h : Holds s w.context.store.store entries) {op : Op}
    {left : List Entry} (hleft : op.Outcome s w entries left) {store : σ}
    (hstored : Pool.stored s store = .ok (left.map Entry.wallet)) : Holds s store left := by
  -- Both hold of the entries with the new one, and what is left is a part of them.
  have hall : (∀ e ∈ entries ++ (op.added? s w.context).toList, e.Made) ∧
      ((entries ++ (op.added? s w.context).toList).map Entry.secret).Nodup := by
    cases hadded : op.added? s w.context with
    | none =>
        rw [Option.toList_none, List.append_nil]
        exact ⟨h.made, h.nodup⟩
    | some e =>
        obtain ⟨hmade, hnew⟩ := Op.added?_spec h hadded
        rw [Option.toList_some, List.map_append]
        refine ⟨?_, List.nodup_append.2 ⟨h.nodup, List.nodup_singleton _, ?_⟩⟩
        · intro f hf
          rcases List.mem_append.1 hf with hold | hlast
          · exact h.made f hold
          · rw [List.mem_singleton.1 hlast]
            exact hmade
        · intro secret hsecret other hother heq
          rw [heq, List.mem_singleton.1 hother] at hsecret
          exact hnew hsecret
  exact ⟨hstored, fun e he => hall.1 e (hleft.sublist.subset he),
    hall.2.sublist (hleft.sublist.map Entry.secret)⟩

/-- One step of a run leaves entries, and the store holds them. It is the step of the
invariant: what the step can do is one of the outcomes, and each outcome leaves entries with
the property. -/
theorem holds_next {store : σ} (h : Holds s store entries) (step : Step)
    (hstep : step.op ≠ .removeByKey s.poolKey) :
    ∃ left, step.op.Outcome s (step.start store) entries left ∧
      Holds s (step.next s store) left := by
  obtain ⟨left, houtcome, hstored⟩ := Op.outcome (w := step.start store) h step.op hstep
  exact ⟨left, houtcome, h.of_outcome (w := step.start store) houtcome hstored⟩

/-- After a run the pool is made of the entries from before and those of its history, in order. An
entry from before that no step removes is kept, and so is one that a step added and no later step
removes, if no other private key of the history has its address: a wallet that is taken back takes
those of its address with it. Induction on the steps; the first step leaves the entries with which
the rest of the run begins. -/
theorem holds_run (steps : List Step) {store : σ} {entries : List Entry}
    (h : Holds s store entries) (hsteps : ∀ step ∈ steps, step.op ≠ .removeByKey s.poolKey) :
    ∃ left, left.Sublist (entries ++ history s steps store) ∧ Holds s (run s steps store) left ∧
      (∀ e ∈ entries, Unremoved s e.wallet steps store → Alone s e steps store → e ∈ left) ∧
      ∀ e, Survives s e steps store → Alone s e steps store → e ∈ left := by
  induction steps generalizing store entries with
  | nil =>
      refine ⟨entries, ?_, h, fun e he _ _ => he, fun e hsurvives _ => hsurvives.elim⟩
      rw [history, List.append_nil]
  | cons step rest ih =>
      obtain ⟨middle, houtcome, hmiddle⟩ := holds_next h step (hsteps step List.mem_cons_self)
      -- The rest of the run starts from what the first step leaves.
      obtain ⟨left, hleft, hholds, hkeeps, hadds⟩ := ih hmiddle fun other hother =>
        hsteps other (List.mem_cons_of_mem step hother)
      have hrest : ∀ {e}, Alone s e (step :: rest) store → Alone s e rest (step.next s store) :=
        fun halone f hf => halone f (List.mem_append_right _ hf)
      refine ⟨left, hleft.trans ?_, hholds, ?_, ?_⟩
      · rw [history, ← List.append_assoc]
        exact houtcome.sublist.append_right _
      · intro e he hkept halone
        have hmid : e ∈ middle := by
          refine houtcome.mem (w := step.start store) h he hkept.1 fun f hf => halone f ?_
          rw [history, hf]
          exact List.mem_append_left _ (List.mem_singleton_self f)
        exact hkeeps e hmid hkept.2 (hrest halone)
      · -- The entry is that of the first step, or it is added in the rest of the run.
        rintro e (⟨hadded, hsucceeds, hkept⟩ | hlater) halone
        · have hmid : e ∈ middle := houtcome.mem_added (w := step.start store) hadded hsucceeds
          exact hkeeps e hmid hkept (hrest halone)
        · exact hadds e hlater (hrest halone)

/-- A store without a pool holds no entries. The conditions on the entries are empty. -/
theorem holds_nil {store : σ} (h : Store.Sound.lookup s.poolKey store = none) :
    Holds s store [] where
  stored := by rw [Pool.stored, h]; rfl
  made _ he := absurd he List.not_mem_nil
  nodup := List.nodup_nil

/-! ### The pool invariant -/

/-- What is true of the pool that a store holds after a run, whose entries are these. -/
structure PoolInvariant (s : Settings) (steps : List Step) (start : σ) (entries : List Entry) :
    Prop where
  /-- The pool is absent, or its text spells the wallets of the entries. -/
  stored : Pool.stored s (run s steps start) = .ok (entries.map Entry.wallet)
  /-- Each entry is one that was added, as it was then, and they stand in that order. -/
  sublist : entries.Sublist (history s steps start)
  /-- An entry that was added and that no later step removed is there, if no other private key of
  the run has its address. -/
  kept : ∀ e, Survives s e steps start → Alone s e steps start → e ∈ entries
  /-- Each wallet has the public key of its entry's private key. -/
  publicHex : ∀ e ∈ entries, e.wallet.publicHex = (KeyPair.ofSecret e.secret).publicHex
  /-- Each wallet has the address of its public key. -/
  address : ∀ e ∈ entries, Address.ofHex e.wallet.publicHex = .ok e.wallet.address
  /-- No two wallets share public key and address. -/
  apart : (entries.map Entry.wallet).Pairwise fun v w =>
    (v.publicHex, v.address) ≠ (w.publicHex, w.address)
  /-- The active wallet is the oldest one that is left. -/
  active : ∀ c : Pool.Context (Faulty σ), c.store.store = run s steps start →
    c.store.gets.answers = true →
    ((Pool.active s).run c).1 = .ok (entries.head?.map Entry.wallet)
  /-- A pair is a duplicate if and only if an entry has its private key. -/
  duplicate : ∀ (c : Pool.Context (Faulty σ)) (keyText password : String) (pair : KeyPair),
    c.store.store = run s steps start → c.store.gets.answers = true →
    KeyPair.ofHex keyText = .ok pair →
    (((Pool.add s pair password).run c).1 = .ok .duplicate ↔
      ∃ e ∈ entries, e.secret = pair.secret)

/-- Each wallet of entries has the address of its public key, since both were made from the
entry's private key. -/
theorem Holds.address {store : σ} (h : Holds s store entries) :
    ∀ e ∈ entries, Address.ofHex e.wallet.publicHex = .ok e.wallet.address := by
  intro e he
  rw [(h.made e he).publicHex, (h.made e he).address]
  exact Address.ofHex_ofSecret e.secret

/-- No two wallets of entries share their public key: it would come from the same private key. -/
theorem Holds.apart {store : σ} (h : Holds s store entries) :
    (entries.map Entry.wallet).Pairwise fun v w =>
      (v.publicHex, v.address) ≠ (w.publicHex, w.address) := by
  refine List.pairwise_map.2 ((List.pairwise_map.1 h.nodup).imp_of_mem ?_)
  intro e f he hf hne heq
  rw [(h.made e he).publicHex, (h.made f hf).publicHex] at heq
  exact hne (KeyPair.eq_of_publicHex_eq (Prod.mk.inj heq).1)

/-- The active wallet is that of the first entry, if the store answers. -/
theorem Holds.active {c : Pool.Context (Faulty σ)} (h : Holds s c.store.store entries)
    (hget : c.store.gets.answers = true) :
    ((Pool.active s).run c).1 = .ok (entries.head?.map Entry.wallet) := by
  rw [Pool.active, run_bind_ok (Pool.list_ok h.stored hget), run_pure, List.head?_map]

/-- A pair is answered as a duplicate exactly if an entry has its private key, whatever
password it is added under. -/
theorem Holds.duplicate_iff {c : Pool.Context (Faulty σ)} (h : Holds s c.store.store entries)
    (hget : c.store.gets.answers = true) {keyText : String} {pair : KeyPair}
    (hread : KeyPair.ofHex keyText = .ok pair) (password : String) :
    ((Pool.add s pair password).run c).1 = .ok .duplicate ↔
      ∃ e ∈ entries, e.secret = pair.secret := by
  rw [← h.present_iff, ← KeyPair.eq_ofSecret_of_ofHex hread]
  obtain ⟨result, c', hrun, houtcome⟩ := Pool.add_cases h.stored pair password
  rw [hrun]
  cases houtcome with
  | unread hrefused => exact absurd hget (by rw [hrefused]; decide)
  | duplicate _ hpresent => exact ⟨fun _ => hpresent, fun _ => rfl⟩
  | unwritten _ habsent _ => exact ⟨fun h => absurd h nofun, fun h => absurd h habsent⟩
  | added _ _ habsent _ _ => exact ⟨fun h => absurd h nofun, fun h => absurd h habsent⟩

/-- The pool invariant holds after every run from a store without a pool. No step may remove
the pool itself as if it were a backup. The exclusion is needed: the program would delete the
pool there, and report that nothing was removed. -/
theorem pool_invariant (s : Settings) (store : σ)
    (hempty : Store.Sound.lookup s.poolKey store = none) (steps : List Step)
    (hsteps : ∀ step ∈ steps, step.op ≠ .removeByKey s.poolKey) :
    ∃ entries, PoolInvariant s steps store entries := by
  -- The run leaves entries that the store holds; every field is a consequence of that.
  obtain ⟨entries, hsublist, hholds, -, hadds⟩ := holds_run steps (holds_nil hempty) hsteps
  refine ⟨entries, {
    stored := hholds.stored
    sublist := hsublist
    kept := hadds
    publicHex := fun e he => (hholds.made e he).publicHex
    address := hholds.address
    apart := hholds.apart
    active := fun c hstore hget => ?_
    duplicate := fun c keyText password pair hstore hget hread => ?_ }⟩
  · rw [← hstore] at hholds
    exact hholds.active hget
  · rw [← hstore] at hholds
    exact hholds.duplicate_iff hget hread password

/-- An operation in a store that answers every call, at the start of 1970, with a ledger that
answers so. -/
def Step.plain (op : Op) (refuseConnect : Option String) : Step :=
  ⟨op, .ofBytes [], .epoch, .always, .always, .always, refuseConnect, none⟩

/-- Two wallets are made, the first of which is refused; then a backup is removed that is none. -/
def Step.retried : List Step :=
  [.plain (.create "password") (some "no"), .plain (.create "password") none,
    .plain (.removeByKey "backup") none]

/-- The invariant holds after the run of the example. Its last step removes a wallet by a
text that is not the name of the pool's entry. -/
theorem pool_invariant_retried :
    ∃ entries, PoolInvariant (Settings.ofSecret "secret") Step.retried Memory.empty entries := by
  refine pool_invariant (Settings.ofSecret "secret") Memory.empty rfl Step.retried ?_
  rw [Step.retried, List.forall_mem_cons, List.forall_mem_cons, List.forall_mem_singleton]
  refine ⟨nofun, nofun, fun heq => ?_⟩
  exact absurd (Op.removeByKey.inj heq) (by decide)

end Keyring.Session
