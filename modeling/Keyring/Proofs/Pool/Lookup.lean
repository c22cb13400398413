import Mathlib.Data.List.Nodup
import Keyring.Proofs.Backup
import Keyring.Proofs.Key.Reading
import Keyring.Proofs.Pool.Removal

/-!
# `Keyring.Proofs.Pool.Lookup`: the wallet that a backup belongs to

A backup is looked up by the first wallet that has its public key and address, and removed by
leaving out every wallet that has them. In a pool of distinct wallets these are the same one.

* `owner?_eq_some_iff`: which wallet is looked up.
* `remaining_eq_erase`, `remaining_eq_self_iff`: what is left is the pool without that wallet, and
  the whole pool if there is none.
* `find_answered`, `removeByKey_answered`, `add_answered`: what the operations come to on a store
  that answers them.
* `identity?_exportText`: a backup belongs to the pair of the key that it was made from.
* `find_iff_removed`: looking up and removing agree, and removing undoes adding.
-/

set_option autoImplicit false

namespace Keyring

/-! ### Stores that answer -/

/-- The next calls of one kind are answered, as many as `count`. -/
def Plan.AnswersNext : Nat → Plan → Prop
  | 0, _ => True
  | count + 1, p => p.answers = true ∧ AnswersNext count p.next

/-- A plan that answers some calls answers one less. It is the beginning of the plan that
counts. -/
theorem Plan.AnswersNext.pred {count : Nat} {p : Plan} (h : p.AnswersNext (count + 1)) :
    p.AnswersNext count := by
  induction count generalizing p with
  | zero => trivial
  | succ count ih => exact ⟨h.1, ih h.2⟩

/-- A plan without refusals answers any number of calls. After each call the plan is what it
was. -/
theorem Plan.answersNext_always (count : Nat) : always.AnswersNext count := by
  induction count with
  | zero => trivial
  | succ count ih => exact ⟨rfl, ih⟩

/-- The next `count` calls of each kind are answered. -/
structure Faulty.Answers {σ : Type} (count : Nat) (f : Faulty σ) : Prop where
  gets : f.gets.AnswersNext count
  puts : f.puts.AnswersNext count
  deletes : f.deletes.AnswersNext count

/-- A sound store answers as many calls as are made. All three kinds of calls have a plan
without refusals. -/
theorem Faulty.answers_sound {σ : Type} (store : σ) (count : Nat) : (sound store).Answers count :=
  ⟨Plan.answersNext_always count, Plan.answersNext_always count, Plan.answersNext_always count⟩

namespace Pool

/-! ### The owner of a backup -/

/-- No two wallets of the pool share public key and address. -/
def Distinct (pool : List Wallet) : Prop := (pool.map fun w => (w.publicHex, w.address)).Nodup

/-- The first wallet of a pool that a backup belongs to. -/
def owner? (s : Settings) (backup : String) (pool : List Wallet) : Option Wallet :=
  (identity? s backup).bind fun identity => pool.find? fun w => w.isOf identity.1 identity.2

section Owner
variable {s : Settings} {backup : String} {pool : List Wallet} {w : Wallet}

/-- A wallet is that of a public key and an address exactly if it has both. -/
theorem isOf_iff (w : Wallet) (publicHex address : String) :
    w.isOf publicHex address = true ↔ (w.publicHex, w.address) = (publicHex, address) := by
  simp [Wallet.isOf]

/-- A wallet of a pool of distinct wallets is fixed by its public key and address. -/
theorem Distinct.eq_of_mem {v : Wallet} (hdistinct : Distinct pool) (hv : v ∈ pool) (hw : w ∈ pool)
    (h : (v.publicHex, v.address) = (w.publicHex, w.address)) : v = w :=
  List.inj_on_of_nodup_map hdistinct hv hw h

/-- The owner of a backup is the wallet with its public key and address. There is one at
most, because the wallets are distinct. Uniqueness is what makes finding and removing speak
about the same wallet. -/
theorem owner?_eq_some_iff (hdistinct : Distinct pool) :
    owner? s backup pool = some w ↔
      w ∈ pool ∧ identity? s backup = some (w.publicHex, w.address) := by
  rw [owner?, Option.bind_eq_some_iff]
  constructor
  · rintro ⟨⟨publicHex, address⟩, hidentity, hfind⟩
    have hof := List.find?_some hfind
    rw [hidentity, ← (isOf_iff w publicHex address).1 hof]
    exact ⟨List.mem_of_find?_eq_some hfind, rfl⟩
  · rintro ⟨hmem, hidentity⟩
    refine ⟨_, hidentity, ?_⟩
    have hself : w.isOf w.publicHex w.address = true := (isOf_iff w _ _).2 rfl
    cases hfind : pool.find? fun v => v.isOf w.publicHex w.address with
    | none => exact absurd hself (List.find?_eq_none.1 hfind w hmem)
    | some v =>
        -- Another wallet may not come first, since it would have the same public key and address.
        have hof := List.find?_some hfind
        rw [hdistinct.eq_of_mem (List.mem_of_find?_eq_some hfind) hmem ((isOf_iff v _ _).1 hof)]

/-- The pool is left as it is exactly if no wallet of it is the owner. This needs no distinct
wallets. It is how the answer of a removal is tied to what a look-up would have found. -/
theorem remaining_eq_self_iff :
    remaining s backup pool = pool ↔ owner? s backup pool = none := by
  unfold remaining owner?
  cases identity? s backup with
  | none => simp
  | some identity => simp [List.filter_eq_self]

/-- What is left is the pool without the owner, since no other wallet has its public key and
address. The order of the others is kept, as it is by taking one element out. -/
theorem remaining_eq_erase (hdistinct : Distinct pool) (howner : owner? s backup pool = some w) :
    remaining s backup pool = pool.erase w := by
  obtain ⟨hmem, hidentity⟩ := (owner?_eq_some_iff hdistinct).1 howner
  have hnodup : pool.Nodup := hdistinct.of_map
  rw [remaining, hidentity, hnodup.erase_eq_filter]
  refine List.filter_congr fun v hv => ?_
  have hiff : v.isOf w.publicHex w.address = true ↔ v = w := by
    rw [isOf_iff]
    constructor
    · intro h
      exact hdistinct.eq_of_mem hv hmem h
    · intro h
      rw [h]
  rw [Bool.eq_iff_iff, Bool.not_eq_true', ← Bool.not_eq_true, hiff, bne_iff_ne]

/-- Nothing is left to remove after the wallets of a backup were removed. -/
theorem remaining_remaining :
    remaining s backup (remaining s backup pool) = remaining s backup pool := by
  unfold remaining
  cases identity? s backup with
  | none => rfl
  | some identity => simp [List.filter_filter]

/-- The wallet of a pair that is not in the pool comes last, and is what its backups remove.
The other wallets are not of that pair. -/
theorem remaining_append_built {σ : Type} {c : Context σ} {pair : KeyPair}
    (habsent : ¬Present pair pool) (password : String)
    (hidentity : identity? s backup = some (pair.publicHex, pair.address)) :
    remaining s backup (pool ++ [built pair password c]) = pool := by
  have hself : (built pair password c).isOf pair.publicHex pair.address = true :=
    (isOf_iff _ _ _).2 rfl
  -- A wallet of the pair would have made it present.
  have hothers : ∀ w ∈ pool, w.isOf pair.publicHex pair.address = false := by
    intro w hw
    rw [← Bool.not_eq_true]
    intro hof
    have hsame := Prod.mk.inj ((isOf_iff w _ _).1 hof)
    exact habsent ⟨w, hw, hsame.1, hsame.2⟩
  rw [remaining, hidentity]
  show (pool ++ [built pair password c]).filter (fun w => !w.isOf pair.publicHex pair.address)
    = pool
  rw [List.filter_append, List.filter_cons_of_neg (by simp [hself]), List.filter_nil,
    List.append_nil, List.filter_eq_self]
  intro w hw
  rw [hothers w hw]
  rfl

/-- A backup belongs to the pair of the private key that it was made from, however the digits
of the key were written. The digits of a key may come in capitals, and the key is read before
it is compared. -/
theorem identity?_exportText (s : Settings) (secret : Secret) (e : Entropy) {key : String}
    (hkey : Hex.lower key = secret.hex) :
    identity? s (Backup.exportText s.domain e key).1
      = some ((KeyPair.ofSecret secret).publicHex, (KeyPair.ofSecret secret).address) := by
  rw [identity?, Backup.import?_exportText, Option.bind_eq_bind, Option.bind_some,
    KeyPair.ofHex_of_lower hkey]
  rfl

end Owner

/-! ### Operations that are answered -/

section Answered
variable {σ : Type} [Store σ] [Store.Sound σ] {s : Settings} {pool : List Wallet}
  {c : Context (Faulty σ)} {count : Nat}

/-- Looking up gives the owner, if the store answers. A text that is no backup is not looked
for, so the store is not asked for it; in either case the owner is given. -/
theorem find_answered (hpool : stored s c.store.store = .ok pool)
    (hget : c.store.gets.answers = true) (backup : String) :
    ∃ c', (find s backup).run c = (.ok (owner? s backup pool), c') := by
  unfold find owner?
  cases identity? s backup with
  | none => exact ⟨c, rfl⟩
  | some identity => exact ⟨c.afterGet, run_bind_ok (list_ok hpool hget) _⟩

/-- Removing wallets leaves those that are not picked. It makes at most one call of each kind. -/
theorem removeWhere_answered (hpool : stored s c.store.store = .ok pool)
    (hgets : c.store.gets.AnswersNext (count + 1)) (hputs : c.store.puts.AnswersNext (count + 1))
    (hdeletes : c.store.deletes.AnswersNext count) (drop : Wallet → Bool) :
    ∃ removed c', (removeWhere s drop).run c = (.ok removed, c') ∧
      stored s c'.store.store = .ok (pool.filter fun w => !drop w) ∧
      (removed = true ↔ (pool.filter fun w => !drop w) ≠ pool) ∧ c'.store.Answers count := by
  obtain ⟨result, c', hrun, houtcome⟩ := removeWhere_cases hpool drop
  cases houtcome with
  -- The two ways to fail are refusals, which the plans exclude.
  | unread hrefused => exact absurd hgets.1 (by rw [hrefused]; decide)
  | unwritten _ _ hrefused => exact absurd hputs.1 (by rw [hrefused]; decide)
  | unchanged hget hsame =>
      obtain ⟨hstored, hremoved⟩ := (RemoveOutcome.unchanged hget hsame).of_ok hpool
      exact ⟨false, _, hrun, hstored, hremoved, hgets.2, hputs.pred, hdeletes⟩
  | removed store hget hkept hput hstore =>
      exact ⟨true, _, hrun, hstore, by simp [hkept], hgets.2, hputs.2, hdeletes⟩

/-- Removing by a backup leaves the wallets that it does not belong to. It makes at most one call of
each kind, so as many are left as before less one. -/
theorem removeByKey_answered (hpool : stored s c.store.store = .ok pool)
    (hanswers : c.store.Answers (count + 1)) {backup : String} (hbackup : backup ≠ s.poolKey) :
    ∃ removed c', (removeByKey s backup).run c = (.ok removed, c') ∧
      stored s c'.store.store = .ok (remaining s backup pool) ∧
      (removed = true ↔ remaining s backup pool ≠ pool) ∧ c'.store.Answers count := by
  obtain ⟨store, hstore, hdelete⟩ := delete_ok hbackup hpool hanswers.deletes.1
  rw [removeByKey, run_bind_ok hdelete]
  -- A text that is no backup takes one call, and a backup at most one of each kind.
  cases hidentity : identity? s backup with
  | none =>
      rw [remaining_of_none hidentity]
      exact ⟨false, _, rfl, hstore, by simp, hanswers.gets.pred, hanswers.puts.pred,
        hanswers.deletes.2⟩
  | some identity =>
      rw [remaining, hidentity]
      exact removeWhere_answered (c := c.afterDelete store) hstore hanswers.gets hanswers.puts
        hanswers.deletes.2 fun w => w.isOf identity.1 identity.2

/-- A pair that is not in the pool is added at its end, with at most one call of each kind.
The bound on the calls lets several operations be chained over a store that answers so many
calls. -/
theorem add_answered (hpool : stored s c.store.store = .ok pool)
    (hanswers : c.store.Answers (count + 1)) {pair : KeyPair} (habsent : ¬Present pair pool)
    (password : String) :
    ∃ c', (add s pair password).run c = (.ok (.added (built pair password c)), c') ∧
      stored s c'.store.store = .ok (pool ++ [built pair password c]) ∧
      c'.store.Answers count := by
  obtain ⟨result, c', hrun, houtcome⟩ := add_cases hpool pair password
  cases houtcome with
  | unread hrefused => exact absurd hanswers.gets.1 (by rw [hrefused]; decide)
  | duplicate _ hpresent => exact absurd hpresent habsent
  | unwritten _ _ hrefused => exact absurd hanswers.puts.1 (by rw [hrefused]; decide)
  | added store _ _ _ hstore =>
      exact ⟨_, hrun, hstore, hanswers.gets.2, hanswers.puts.2, hanswers.deletes.pred⟩

/-- Looking up and removing by a backup agree on a pool of distinct wallets, if the store answers
its next two calls of each kind: no more are made. The backup is any text but the key of the pool.

* A wallet is found exactly if one is removed. It is in the pool, and what is left is the pool
  without it. If none is found, the pool stays as it is. To remove by the same backup once more
  removes nothing.
* A backup of a private key finds the wallet of its pair, if the pool has one, however the digits of
  the key were written.
* A pair that is not in the pool is added; a backup of its private key removes it, and the pool is
  what it was. -/
theorem find_iff_removed (hpool : stored s c.store.store = .ok pool) (hdistinct : Distinct pool)
    (hanswers : c.store.Answers 2) :
    (∀ backup, backup ≠ s.poolKey → ∃ found removed c₁ c₂ c₃,
      (find s backup).run c = (.ok found, c₁) ∧
      (removeByKey s backup).run c = (.ok removed, c₂) ∧
      (removeByKey s backup).run c₂ = (.ok false, c₃) ∧
      (removed = true ↔ ∃ w, found = some w) ∧
      (∀ w, found = some w → w ∈ pool ∧ stored s c₂.store.store = .ok (pool.erase w)) ∧
      (found = none → stored s c₂.store.store = .ok pool)) ∧
    ∀ (secret : Secret) (key backup : String) (e : Entropy), Hex.lower key = secret.hex →
      backup = (Backup.exportText s.domain e key).1 →
      (∀ w ∈ pool, w.publicHex = (KeyPair.ofSecret secret).publicHex →
        w.address = (KeyPair.ofSecret secret).address →
        ∃ c', (find s backup).run c = (.ok (some w), c')) ∧
      (¬Present (KeyPair.ofSecret secret) pool → backup ≠ s.poolKey → ∀ password, ∃ w c₁ c₂,
        (add s (KeyPair.ofSecret secret) password).run c = (.ok (.added w), c₁) ∧
        (removeByKey s backup).run c₁ = (.ok true, c₂) ∧ stored s c₂.store.store = .ok pool) := by
  constructor
  · intro backup hbackup
    obtain ⟨c₁, hfind⟩ := find_answered hpool hanswers.gets.1 backup
    obtain ⟨removed, c₂, hrun, hstored, hremoved, hleft⟩ :=
      removeByKey_answered hpool hanswers hbackup
    obtain ⟨again, c₃, hagain, -, hnothing, -⟩ := removeByKey_answered hstored hleft hbackup
    -- The second removal starts from what the first one left, and that it leaves as it is.
    have hsecond : again = false := by
      rw [← Bool.not_eq_true, hnothing, not_not]
      exact remaining_remaining
    rw [hsecond] at hagain
    refine ⟨owner? s backup pool, removed, c₁, c₂, c₃, hfind, hrun, hagain, ?_, ?_, ?_⟩
    · rw [hremoved, Ne, remaining_eq_self_iff]
      exact Option.ne_none_iff_exists'
    · intro w howner
      rw [hstored, remaining_eq_erase hdistinct howner]
      exact ⟨((owner?_eq_some_iff hdistinct).1 howner).1, rfl⟩
    · intro hnone
      rw [hstored, remaining_eq_self_iff.2 hnone]
  · rintro secret key _ e hkey rfl
    have hidentity := identity?_exportText s secret e hkey
    constructor
    · intro w hw hpublic haddress
      rw [← hpublic, ← haddress] at hidentity
      have howner := (owner?_eq_some_iff hdistinct).2 ⟨hw, hidentity⟩
      obtain ⟨c', hfind⟩ := find_answered hpool hanswers.gets.1
        (Backup.exportText s.domain e key).1
      rw [howner] at hfind
      exact ⟨c', hfind⟩
    · intro habsent hbackup password
      obtain ⟨c₁, hadd, hadded, hleft⟩ := add_answered hpool hanswers habsent password
      obtain ⟨removed, c₂, hrun, hstored, hremoved, -⟩ :=
        removeByKey_answered hadded hleft hbackup
      rw [remaining_append_built habsent password hidentity] at hstored hremoved
      have htrue : removed = true := hremoved.2 (by simp)
      rw [htrue] at hrun
      exact ⟨_, c₁, c₂, hadd, hrun, hstored⟩

end Answered

/-! ### A pool of two -/

/-- Settings with defaults. -/
def twoSettings : Settings := .ofSecret "secret"

/-- A private key, and its text in capital digits. -/
def twoSecret : Secret := ⟨175, by decide, by decide⟩
def twoText : String := String.ofList (List.replicate 62 '0' ++ ['A', 'F'])

/-- A backup that was made from that text. -/
def twoBackup : String := (Backup.exportText twoSettings.domain (.ofBytes []) twoText).1

/-- Some wallet, and the wallet of the private key. -/
def firstOfTwo : Wallet := ⟨"address", "04", ⟨"cipher", "iv", "tag"⟩, .epoch⟩
def secondOfTwo : Wallet :=
  ⟨(KeyPair.ofSecret twoSecret).address, (KeyPair.ofSecret twoSecret).publicHex,
    ⟨"cipher", "iv", "tag"⟩, .epoch⟩

/-- A store with a pool, which answers every call. -/
def soundContext (pool : List Wallet) : Context (Faulty Memory) :=
  ⟨.sound ⟨[(twoSettings.poolKey, Wallet.poolText pool)]⟩, .ofBytes [], .epoch⟩

/-- The second wallet of two is found and removed by a backup of its key. Where it is missing
it is added, and removed by the same backup. -/
theorem find_iff_removed_two : twoBackup ≠ twoSettings.poolKey ∧
    (∃ c₁ c₂ c₃,
      (find twoSettings twoBackup).run (soundContext [firstOfTwo, secondOfTwo])
        = (.ok (some secondOfTwo), c₁) ∧
      (removeByKey twoSettings twoBackup).run (soundContext [firstOfTwo, secondOfTwo])
        = (.ok true, c₂) ∧
      (removeByKey twoSettings twoBackup).run c₂ = (.ok false, c₃) ∧
      stored twoSettings c₂.store.store = .ok [firstOfTwo]) ∧
    ∃ w c₁ c₂,
      (add twoSettings (KeyPair.ofSecret twoSecret) "password").run (soundContext [firstOfTwo])
        = (.ok (.added w), c₁) ∧
      (removeByKey twoSettings twoBackup).run c₁ = (.ok true, c₂) ∧
      stored twoSettings c₂.store.store = .ok [firstOfTwo] := by
  have hstored {pool} (hleap : ∀ w ∈ pool, w.createdAt.LeapLast) :
      stored twoSettings (soundContext pool).store.store = .ok pool :=
    stored_singleton twoSettings hleap
  have hboth : ∀ w ∈ [firstOfTwo, secondOfTwo], w.createdAt.LeapLast := by decide
  have hfirst : ∀ w ∈ [firstOfTwo], w.createdAt.LeapLast := by decide
  have hanswers (pool) : (soundContext pool).store.Answers 2 := Faulty.answers_sound _ 2
  have hkey : Hex.lower twoText = twoSecret.hex := by decide
  have hbackup : twoBackup ≠ twoSettings.poolKey := by
    -- The halves of a backup are divided by colons.
    have hcolon : ':' ∈ twoBackup.toList := by
      show ':' ∈ (Backup.join _ _).toList
      simp [Backup.toList_join, Backup.separator]
    intro h
    rw [h] at hcolon
    exact absurd hcolon (by decide)
  have hother : firstOfTwo.publicHex ≠ (KeyPair.ofSecret twoSecret).publicHex := by decide +kernel
  have hdistinct : Distinct [firstOfTwo, secondOfTwo] := by simp [Distinct, secondOfTwo, hother]
  obtain ⟨hagree, hfinds⟩ := find_iff_removed (hstored hboth) hdistinct (hanswers _)
  refine ⟨hbackup, ?_, ?_⟩
  · obtain ⟨found, removed, c₁, c₂, c₃, hfind, hrun, hagain, hiff, hleft, -⟩ :=
      hagree twoBackup hbackup
    -- The wallet that the backup finds is the second one.
    obtain ⟨c, hsecond⟩ := (hfinds twoSecret twoText twoBackup _ hkey rfl).1 secondOfTwo
      (by simp) rfl rfl
    have hfound : found = some secondOfTwo := by
      have hresults := congrArg Prod.fst (hfind.symm.trans hsecond)
      exact Except.ok.inj hresults
    have hnodup : [firstOfTwo, secondOfTwo].Nodup := hdistinct.of_map
    have hne : firstOfTwo ≠ secondOfTwo := by simpa using hnodup
    have herase : [firstOfTwo, secondOfTwo].erase secondOfTwo = [firstOfTwo] := by
      rw [List.erase_cons_tail (by simpa using hne), List.erase_cons_head]
    rw [hfound] at hfind
    rw [hiff.2 ⟨_, hfound⟩] at hrun
    refine ⟨c₁, c₂, c₃, hfind, hrun, hagain, ?_⟩
    rw [(hleft secondOfTwo hfound).2, herase]
  · have hsingle : Distinct [firstOfTwo] := List.nodup_singleton _
    have habsent : ¬Present (KeyPair.ofSecret twoSecret) [firstOfTwo] := by
      simp [Present, hother]
    obtain ⟨-, hremoves⟩ := find_iff_removed (hstored hfirst) hsingle (hanswers _)
    exact (hremoves twoSecret twoText twoBackup _ hkey rfl).2 habsent hbackup "password"

end Pool
end Keyring
