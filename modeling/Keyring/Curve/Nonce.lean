import Keyring.Curve.P256
import Keyring.Hash.Hmac

/-!
# `Keyring.Curve.Nonce`: the secret number of a signature (RFC 6979)

A signature needs a fresh number in 1 … n − 1 that nobody can guess. It is
drawn from a generator that HMAC-SHA-256 keys with the private scalar and the
digest, so equal inputs give equal signatures.
-/

set_option autoImplicit false

namespace Keyring.Nonce

/-- The state of the generator: its key and its last value. -/
structure Generator where
  key : Bytes
  value : Bytes
  deriving DecidableEq, Repr

/-- Mixes data into the state; `marker` separates the uses. -/
def Generator.mix (g : Generator) (marker : UInt8) (data : Bytes) : Generator :=
  let key := Hmac.sha256 g.key (g.value ++ marker :: data)
  ⟨key, Hmac.sha256 key g.value⟩

/-- The state for a scalar and a digest, 32 bytes each. -/
def Generator.start (scalar digest : Bytes) : Generator :=
  let g : Generator := ⟨List.replicate 32 0, List.replicate 32 1⟩
  (g.mix 0 (scalar ++ digest)).mix 1 (scalar ++ digest)

/-- The next value. -/
def Generator.next (g : Generator) : Generator := ⟨g.key, Hmac.sha256 g.key g.value⟩

/-- The first of `tries` values that is in 1 … n − 1. -/
def search : (tries : Nat) → Generator → Option Nat
  | 0, _ => none
  | tries + 1, g =>
    let g := g.next
    let k := g.value.toNat
    if 0 < k ∧ k < P256.n then some k else search tries (g.mix 0 [])

/-- How many values are tried. A value is out of range once in 2^32 times. -/
def tries : Nat := 64

/-- The secret number for a scalar and a digest number. -/
def derive (scalar digest : Nat) : Option Nat :=
  search tries (.start (Bytes.ofNat 32 scalar) (Bytes.ofNat 32 digest))

end Keyring.Nonce
