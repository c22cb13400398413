import Keyring.Store.Faulty
import Keyring.Store.Memory

/-!
# `Keyring.Proofs.Store.Sound`: stores that hold what was put into them

A sound store answers every call, and what it holds under each key follows the
laws of a map. A faulty store over a sound one refuses calls as its plans say.
The theorems:

* `Faulty.get_eq`, `Faulty.put_eq`, `Faulty.delete_eq`: what a call to a faulty
  store comes to, whether it is answered or refused.
-/

set_option autoImplicit false

namespace Keyring

/-- A store that answers every call and holds under each key what was put there last. -/
class Store.Sound (σ : Type) [Store σ] where
  /-- The text under a key. -/
  lookup (key : String) (store : σ) : Option String
  get_eq (key : String) (store : σ) : Store.get key store = (.ok (lookup key store), store)
  put_ok (key value : String) (store : σ) : (Store.put key value store).1 = .ok ()
  lookup_put (key other value : String) (store : σ) :
    lookup other (Store.put key value store).2
      = if other = key then some value else lookup other store
  delete_ok (key : String) (store : σ) : (Store.delete key store).1 = .ok ()
  lookup_delete (key other : String) (store : σ) :
    lookup other (Store.delete key store).2 = if other = key then none else lookup other store

instance : Store.Sound Memory where
  lookup := Memory.lookup
  get_eq _ _ := rfl
  put_ok _ _ _ := rfl
  lookup_put := Memory.lookup_insert
  delete_ok _ _ := rfl
  lookup_delete := Memory.lookup_erase

namespace Faulty

variable {σ : Type} [Store σ] [Store.Sound σ]

/-- A faulty store answers with the text, or refuses; below it nothing changes. Either way
one answer of its plan is used up. It is stated for any sound store below, so that maps and
directories need no proofs of their own here. -/
theorem get_eq (key : String) (f : Faulty σ) :
    Store.get key f
      = (if f.gets.answers then .ok (Store.Sound.lookup key f.store) else refusal,
          { f with gets := f.gets.next }) := by
  show (if f.gets.answers then _ else _) = _
  split
  · rw [Store.Sound.get_eq]
  · rfl

/-- A faulty store passes a text on, or refuses it. A refusal does not reach the store below.
The plan moves on in both cases, so a script counts all calls and not only the answered ones. -/
theorem put_eq (key value : String) (f : Faulty σ) :
    Store.put key value f
      = if f.puts.answers then
          (.ok (), { f with store := (Store.put key value f.store).2, puts := f.puts.next })
        else (refusal, { f with puts := f.puts.next }) := by
  show (if f.puts.answers then ((Store.put key value f.store).1, _) else _) = _
  rw [Store.Sound.put_ok]
  rfl

/-- A faulty store deletes a key, or refuses to. A refusal does not reach the store below.
The plan moves on in both cases. -/
theorem delete_eq (key : String) (f : Faulty σ) :
    Store.delete key f
      = if f.deletes.answers then
          (.ok (), { f with store := (Store.delete key f.store).2, deletes := f.deletes.next })
        else (refusal, { f with deletes := f.deletes.next }) := by
  show (if f.deletes.answers then ((Store.delete key f.store).1, _) else _) = _
  rw [Store.Sound.delete_ok]
  rfl

end Faulty
end Keyring
