import Keyring.Entries
import Keyring.Store.Basic

/-!
# `Keyring.Store.Memory`: a store in memory

The entries stand in ascending order of their keys, one for each key.

* `lookup_insert`, `lookup_erase`: what a key holds after a change.
-/

set_option autoImplicit false

namespace Keyring

/-- A store that keeps its entries in memory. -/
structure Memory where
  entries : List (String × String)
  deriving DecidableEq, Repr

namespace Memory

/-- The store without entries. -/
def empty : Memory := ⟨[]⟩

/-- The text under a key. -/
def lookup (key : String) (m : Memory) : Option String := m.entries.lookup key

/-- The store with a text under a key. -/
def insert (key value : String) (m : Memory) : Memory := ⟨Entries.insert key value m.entries⟩

/-- The store without a key. -/
def erase (key : String) (m : Memory) : Memory := ⟨m.entries.filter fun entry => entry.1 ≠ key⟩

instance : Store Memory where
  get key m := (.ok (m.lookup key), m)
  put key value m := (.ok (), m.insert key value)
  delete key m := (.ok (), m.erase key)

/-! ### What a key holds -/

/-- A text that was put in stands under its key, and no other key changes. This is the law of
the ordered entries that the store consists of. -/
theorem lookup_insert (key other value : String) (m : Memory) :
    (m.insert key value).lookup other = if other = key then some value else m.lookup other :=
  Entries.lookup_insert key other value m.entries

/-- A key that was erased holds nothing, and no other key changes, even if the key was not
there before. -/
theorem lookup_erase (key other : String) (m : Memory) :
    (m.erase key).lookup other = if other = key then none else m.lookup other :=
  Entries.lookup_filter_ne key other m.entries

end Memory
end Keyring
