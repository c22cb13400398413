import Keyring.Proofs.Pool.Operations

/-!
# `Keyring.Proofs.Pool.Failure`: what an operation may touch

An operation makes up to three calls to the store, and each of them may be refused. `Touches`
bounds what a run can change, whatever was refused: one list of keys for the runs that fail, one
for the runs that succeed. A failing run changes a key at most by deleting it.

* `Touches.after`, `Touches.map`, `touches_delete_then`: an action touches what its steps touch.
* `touches_add`, `touches_removeWhere`, `touches_delete`, `touches_removeByKey`: what the
  operations touch.
* `list_corrupt`: a text that is no pool is reported, and never taken for an empty pool.
* `failure_keeps_pool`: an operation that fails leaves the pool as it was.

The store may hold anything under any key; nothing here asks that it holds a pool.
-/

set_option autoImplicit false

namespace Keyring.Pool

variable {σ α β : Type} [Store σ] [Store.Sound σ]

/-- The text that the store below has under a key. -/
def Context.holds (c : Context (Faulty σ)) (key : String) : Option String :=
  Store.Sound.lookup key c.store.store

/-- What a run from a context may leave. If it fails, every key is as it was, or it is one of
`failing` and was deleted; if it succeeds, every key but those of `succeeding` is as it was. -/
def Leaves (failing succeeding : List String) (c : Context (Faulty σ)) :
    Except PoolError α → Context (Faulty σ) → Prop
  | .error _, c' => ∀ key, c'.holds key = c.holds key ∨ (key ∈ failing ∧ c'.holds key = none)
  | .ok _, c' => ∀ key, key ∉ succeeding → c'.holds key = c.holds key

/-- No run changes more than the keys of one list if it fails, and of the other if it succeeds. -/
def Touches (failing succeeding : List String) (act : Action (Faulty σ) α) : Prop :=
  ∀ c, Leaves failing succeeding c (act.run c).1 (act.run c).2

variable {failing succeeding : List String} {act : Action (Faulty σ) α} {c : Context (Faulty σ)}

/-! ### Calls -/

/-- A pool that is stored changes its own key, unless the call is refused, and then it
changes nothing. -/
theorem touches_save (s : Settings) (pool : List Wallet) :
    Touches [] [s.poolKey] (save s pool : Action (Faulty σ) Unit) := by
  intro c
  cases hput : c.store.puts.answers with
  | false =>
      rw [save_refused s pool hput]
      exact fun key => .inl rfl
  | true =>
      rw [save, put_answered s.poolKey (Wallet.poolText pool) hput]
      intro key hkey
      exact (Store.Sound.lookup_put s.poolKey key _ _).trans
        (if_neg (List.ne_of_not_mem_cons hkey))

/-- Deleting a key touches that key, unless the call is refused, and then it touches nothing.
The first list is what may change when the action fails, and the second one what may change
when it succeeds. -/
theorem touches_delete (key : String) :
    Touches [] [key] (call (Store.delete key) : Action (Faulty σ) Unit) := by
  intro c
  cases hdelete : c.store.deletes.answers with
  | false =>
      rw [delete_refused key hdelete]
      exact fun other => .inl rfl
  | true =>
      rw [delete_answered key hdelete]
      intro other hother
      exact (Store.Sound.lookup_delete key other _).trans
        (if_neg (List.ne_of_not_mem_cons hother))

/-! ### Steps -/

/-- An action that only reads touches nothing: the store after it is the one before. -/
theorem touches_of_keeps (h : ∀ store : σ, Keeps (Unwritten store) act) : Touches [] [] act := by
  intro c
  have hsame : ∀ key, (act.run c).2.holds key = c.holds key := fun key =>
    congrArg (Store.Sound.lookup key) (h c.store.store c rfl)
  cases (act.run c).1 with
  | error e => exact fun key => .inl (hsame key)
  | ok x => exact fun key _ => hsame key

/-- An action that only gives a value touches nothing. Neither the store nor the source of
bytes is asked. -/
theorem touches_pure (x : α) : Touches [] succeeding (pure x : Action (Faulty σ) α) :=
  fun _ _ _ => rfl

/-- After a step that touches nothing, an action touches what its rest touches. If the step
fails, nothing was touched. Reading the pool, drawing bytes and asking the clock are such
first steps. -/
theorem Touches.after {rest : α → Action (Faulty σ) β} (hact : Touches [] [] act)
    (hrest : ∀ x, Touches failing succeeding (rest x)) :
    Touches failing succeeding (act >>= rest) := by
  intro c
  have hstep := hact c
  rw [run_bind]
  generalize act.run c = outcome at hstep
  obtain ⟨result, mid⟩ := outcome
  cases result with
  -- The rest does not run, and the step itself touches nothing.
  | error e => exact fun key => .inl ((hstep key).resolve_right fun h => List.not_mem_nil h.1)
  | ok x =>
      have hsame : ∀ key, mid.holds key = c.holds key := fun key => hstep key List.not_mem_nil
      have hthen := hrest x mid
      dsimp only
      generalize (rest x).run mid = outcome at hthen
      obtain ⟨result, c'⟩ := outcome
      cases result with
      | error e =>
          intro key
          rw [← hsame key]
          exact hthen key
      | ok y => exact fun key hkey => (hthen key hkey).trans (hsame key)

/-- An action that gives something else in the end touches nothing more. The calls are those
of the first part, whatever it gives and whether or not it fails. -/
theorem Touches.map (hact : Touches failing succeeding act) (f : α → β) :
    Touches failing succeeding (act >>= fun x => pure (f x)) := by
  intro c
  have hstep := hact c
  rw [run_bind]
  generalize act.run c = outcome at hstep
  obtain ⟨result, mid⟩ := outcome
  cases result with
  | error e => exact hstep
  | ok x => exact hstep

/-- A key that is deleted first is gone also if the rest fails. This is the one case in which
a failure leaves a change behind. Removing by a backup is built in this way. -/
theorem touches_delete_then (key : String) {rest : Action (Faulty σ) β}
    (hrest : Touches [] succeeding rest) :
    Touches [key] (key :: succeeding) (do call (Store.delete key); rest) := by
  intro c
  cases hdelete : c.store.deletes.answers with
  | false =>
      rw [run_bind_error (delete_refused key hdelete)]
      exact fun other => .inl rfl
  | true =>
      rw [run_bind_ok (delete_answered key hdelete)]
      have hthen := hrest (c.afterDelete (Store.delete key c.store.store).2)
      generalize rest.run (c.afterDelete (Store.delete key c.store.store).2) = outcome at hthen
      obtain ⟨result, c'⟩ := outcome
      -- What the rest finds is what was there before, without the key.
      have hdeleted : ∀ other, (c.afterDelete (Store.delete key c.store.store).2).holds other
          = if other = key then none else c.holds other :=
        fun other => Store.Sound.lookup_delete key other c.store.store
      cases result with
      | error e =>
          intro other
          have hother := (hthen other).resolve_right fun h => List.not_mem_nil h.1
          by_cases hkey : other = key
          · have hgone := (hdeleted other).trans (if_pos hkey)
            exact .inr ⟨List.mem_singleton.2 hkey, hother.trans hgone⟩
          · exact .inl (hother.trans ((hdeleted other).trans (if_neg hkey)))
      | ok x =>
          intro other hother
          rw [List.mem_cons, not_or] at hother
          exact (hthen other hother.2).trans ((hdeleted other).trans (if_neg hother.1))

/-! ### Operations -/

/-- Adding a pair changes the pool, and nothing if it fails: the pool is stored last, and no
step after that can fail. So a failure never leaves half a pool behind. -/
theorem touches_add (s : Settings) (pair : KeyPair) (password : String) :
    Touches [] [s.poolKey] (add s pair password : Action (Faulty σ) Added) := by
  refine Touches.after (touches_of_keeps fun store => keeps_list s) fun pool => ?_
  split
  · exact touches_pure _
  -- The vector and the time are read before the pool is stored.
  · refine Touches.after (touches_of_keeps fun store c h => h) fun key => ?_
    refine Touches.after (touches_of_keeps fun store c h => h) fun c => ?_
    exact (touches_save s _).map fun _ => Added.added _

/-- So does removing wallets, whichever are picked. If none was, nothing is stored. The
wallets that stay are stored in one call, so there is no state in between. -/
theorem touches_removeWhere (s : Settings) (drop : Wallet → Bool) :
    Touches [] [s.poolKey] (removeWhere s drop : Action (Faulty σ) Bool) := by
  refine Touches.after (touches_of_keeps fun store => keeps_list s) fun pool => ?_
  dsimp only
  split
  · exact touches_pure false
  · exact (touches_save s _).map fun _ => true

/-- Removing by a backup deletes what is stored under the backup, then changes the pool. A
text that is no backup ends it in between, as a success. If the second step fails the first
one has been done, and this is the one exception. -/
theorem touches_removeByKey (s : Settings) (backup : String) :
    Touches [backup] [backup, s.poolKey] (removeByKey s backup : Action (Faulty σ) Bool) := by
  refine touches_delete_then backup ?_
  split
  · exact touches_pure false
  · exact touches_removeWhere s _

/-! ### A text that is no pool -/

variable {s : Settings} {f : Json.Fault}

/-- A text that is no pool is reported, unless the store refuses to read it. The text of the
fault is passed on, so the caller learns what was wrong with the pool. -/
theorem list_corrupt (hcorrupt : stored s c.store.store = .error f) :
    (list s).run c
      = (.error (if c.store.gets.answers then .corrupt f else refused), c.afterGet) := by
  cases hget : c.store.gets.answers with
  | false => exact list_refused hget
  | true =>
      unfold stored at hcorrupt
      rw [list, run_bind_ok (get_answered s.poolKey hget)]
      -- No text would be an empty pool, so there is one, and it is the one that is read.
      cases hlookup : Store.Sound.lookup s.poolKey c.store.store with
      | none =>
          rw [hlookup] at hcorrupt
          cases hcorrupt
      | some text =>
          rw [hlookup] at hcorrupt
          have hread : Wallet.parsePool text = .error f := hcorrupt
          dsimp only
          rw [hread]
          rfl

/-- An operation that fails leaves the pool as it was, whatever the store holds and whichever
calls it refuses.

* Adding a pair, removing wallets of an address and clearing the pool change no key at all if they
  fail, and only the pool if they succeed.
* Removing by a backup may have deleted what was stored under the backup itself, and fails
  without any other change; if it succeeds, it changed at most that key and the pool.
* The pool itself is as it was when removing by a backup fails, unless the backup is its key.
* A text that is no pool makes adding and removing fail, and stays as it is.
* The other operations change nothing. -/
theorem failure_keeps_pool (s : Settings) :
    (∀ pair password, Touches [] [s.poolKey] (add s pair password : Action (Faulty σ) Added)) ∧
    (∀ address, Touches [] [s.poolKey] (removeByAddress s address : Action (Faulty σ) Bool)) ∧
    Touches [] [s.poolKey] (clear s : Action (Faulty σ) Unit) ∧
    (∀ backup, Touches [backup] [backup, s.poolKey]
      (removeByKey s backup : Action (Faulty σ) Bool)) ∧
    (∀ (backup : String) (c c' : Context (Faulty σ)) (e : PoolError), backup ≠ s.poolKey →
      (removeByKey s backup).run c = (.error e, c') → c'.holds s.poolKey = c.holds s.poolKey) ∧
    (∀ (c : Context (Faulty σ)) (f : Json.Fault), stored s c.store.store = .error f →
      (∀ pair password, ∃ e c', (add s pair password).run c = (.error e, c') ∧
        c'.store.store = c.store.store) ∧
      ∀ address, ∃ e c', (removeByAddress s address).run c = (.error e, c') ∧
        c'.store.store = c.store.store) ∧
    Touches [] [] (list s : Action (Faulty σ) (List Wallet)) ∧
    Touches [] [] (active s : Action (Faulty σ) (Option Wallet)) ∧
    (∀ backup, Touches [] [] (find s backup : Action (Faulty σ) (Option Wallet))) ∧
    ∀ address password,
      Touches [] [] (unlock s address password : Action (Faulty σ) (Option KeyPair)) := by
  refine ⟨touches_add s, fun address => touches_removeWhere s _, touches_delete s.poolKey,
    touches_removeByKey s, ?_, ?_, touches_of_keeps fun _ => keeps_list s,
    touches_of_keeps fun _ => keeps_active s, fun backup => touches_of_keeps fun _ =>
      keeps_find s backup, fun address password => touches_of_keeps fun _ =>
      keeps_unlock s address password⟩
  -- The one key that may be gone is the backup, and that is not the pool's.
  · intro backup c c' e hbackup hrun
    have hleaves := touches_removeByKey s backup c
    rw [hrun] at hleaves
    refine (hleaves s.poolKey).resolve_right fun hdeleted => ?_
    exact hbackup (List.mem_singleton.1 hdeleted.1).symm
  · intro c f hcorrupt
    exact ⟨fun pair password => ⟨_, _, run_bind_error (list_corrupt hcorrupt) _, rfl⟩,
      fun address => ⟨_, _, run_bind_error (list_corrupt hcorrupt) _, rfl⟩⟩

/-- Settings with defaults. -/
def brokenSettings : Settings := .ofSecret "secret"

/-- A store with a text that is no pool; it refuses to delete. -/
def brokenContext : Context (Faulty Memory) :=
  ⟨⟨⟨[(brokenSettings.poolKey, "[")]⟩, .always, .always, .upTo 0⟩, .ofBytes [], .epoch⟩

/-- A text that is no pool stays, whichever way wallets are added or removed. -/
theorem failure_keeps_pool_broken :
    (∃ e c', (add brokenSettings (KeyPair.ofSecret ⟨1, by decide, by decide⟩) "password").run
        brokenContext = (.error e, c') ∧ c'.store.store = brokenContext.store.store) ∧
    (∃ e c', (removeByAddress brokenSettings "address").run brokenContext = (.error e, c') ∧
      c'.store.store = brokenContext.store.store) ∧
    ∃ e c', (removeByKey brokenSettings "backup").run brokenContext = (.error e, c') ∧
      c'.holds brokenSettings.poolKey = some "[" := by
  have hunread : (stored brokenSettings brokenContext.store.store).toOption = none := by
    decide +kernel
  obtain ⟨f, hcorrupt⟩ : ∃ f, stored brokenSettings brokenContext.store.store = .error f := by
    cases h : stored brokenSettings brokenContext.store.store with
    | error f => exact ⟨f, rfl⟩
    | ok pool =>
        rw [h] at hunread
        cases hunread
  have hrun : (removeByKey brokenSettings "backup").run brokenContext
      = (.error refused, brokenContext.afterDelete brokenContext.store.store) := by
    rw [removeByKey, run_bind_error (delete_refused "backup" rfl)]
  obtain ⟨-, -, -, -, hbackup, htext, -⟩ := failure_keeps_pool (σ := Memory) brokenSettings
  obtain ⟨hadd, hremove⟩ := htext brokenContext f hcorrupt
  refine ⟨hadd _ _, hremove _, _, _, hrun, ?_⟩
  rw [hbackup "backup" _ _ _ (by decide) hrun]
  decide

end Keyring.Pool
