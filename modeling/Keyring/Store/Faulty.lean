import Keyring.Store.Basic

/-!
# `Keyring.Store.Faulty`: a store that fails on demand

A faulty store follows a plan for the calls of each kind, which says of every
call whether it is answered. A refused call leaves the store below as it is and uses
up one place of its plan.
-/

set_option autoImplicit false

namespace Keyring

/-- Which calls are answered: the first ones as listed, all later ones alike. -/
structure Plan where
  first : List Bool
  later : Bool
  deriving DecidableEq, Repr

namespace Plan

/-- Every call is answered. -/
def always : Plan := ⟨[], true⟩

/-- So many calls are answered, and none after them. -/
def upTo (count : Nat) : Plan := ⟨List.replicate count true, false⟩

/-- Is the next call answered? -/
def answers (p : Plan) : Bool := p.first.headD p.later

/-- The plan after the next call. -/
def next (p : Plan) : Plan := ⟨p.first.tail, p.later⟩

end Plan

/-- A store and the plans for its calls. -/
structure Faulty (σ : Type) where
  store : σ
  gets : Plan
  puts : Plan
  deletes : Plan
  deriving DecidableEq, Repr

namespace Faulty

variable {σ : Type}

/-- A store that answers every call. -/
def sound (store : σ) : Faulty σ := ⟨store, .always, .always, .always⟩

/-- The answer to a call that is refused. -/
def refusal {α : Type} : Except StoreError α := .error (.io .diskFull)

instance [Store σ] : Store (Faulty σ) where
  get key f :=
    let gets := f.gets.next
    if f.gets.answers then
      let (result, store) := Store.get key f.store
      (result, { f with store, gets })
    else (refusal, { f with gets })
  put key value f :=
    let puts := f.puts.next
    if f.puts.answers then
      let (result, store) := Store.put key value f.store
      (result, { f with store, puts })
    else (refusal, { f with puts })
  delete key f :=
    let deletes := f.deletes.next
    if f.deletes.answers then
      let (result, store) := Store.delete key f.store
      (result, { f with store, deletes })
    else (refusal, { f with deletes })

end Faulty
end Keyring
