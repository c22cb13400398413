import Keyring.Key.Pair

/-!
# `Keyring.Key.Generation`: key pairs from a source of bytes

A candidate is a fresh private key with its public key, both as texts. The
texts are looked at once more before they are used: a candidate whose texts do
not have their full widths is passed over and the next one is taken, up to a
number of attempts.

* `generate`: the pair, as texts, of the first candidate that will do.
-/

set_option autoImplicit false

namespace Keyring

/-- Why no pair was made. -/
inductive GenerationError where
  | key (e : KeyError)
  /-- So many candidates were passed over. -/
  | exhausted (attempts : Nat)
  deriving DecidableEq, Repr

/-- The wording of an error. -/
def GenerationError.message : GenerationError → String
  | .key e => e.message
  | .exhausted attempts =>
    "key generation produced malformed output " ++ toString attempts ++ " times"

namespace KeyPair

/-- A pair as it is written: its two keys and its address. -/
structure Texts where
  privateHex : String
  publicHex : String
  address : String
  deriving DecidableEq, Repr

/-- The texts of a pair. -/
def texts (pair : KeyPair) : Texts := ⟨pair.secret.hex, pair.publicHex, pair.address⟩

/-- The texts of two keys that are to be a pair. -/
structure Candidate where
  privateHex : String
  publicHex : String
  deriving DecidableEq, Repr

namespace Candidate

/-- How wide the text of a private key is. -/
def privateWidth : Nat := 64

/-- How wide the text of a public key is. -/
def publicWidth : Nat := 128

/-- Do both texts have their full widths? -/
def hasShape (c : Candidate) : Bool :=
  c.privateHex.utf8ByteSize == privateWidth && c.publicHex.utf8ByteSize == publicWidth

/-- The candidate with its address. -/
def assemble (c : Candidate) : Except GenerationError Texts :=
  match Address.ofHex c.publicHex with
  | .ok address => .ok ⟨c.privateHex, c.publicHex, address⟩
  | .error e => .error (.key e)

/-- The candidate of a private key. -/
def ofSecret (s : Secret) : Candidate := ⟨s.hex, (Public.ofSecret s).hex⟩

/-- The candidate of a fresh private key, and the source after it. -/
def fresh (e : Entropy) : Candidate × Entropy :=
  let (secret, e) := Secret.fresh e
  (ofSecret secret, e)

end Candidate

/-- How many candidates are tried. -/
def maxAttempts : Nat := 8

/-- The first of the next candidates that has the shape, and the state after it. -/
def generateWith {ρ : Type} (next : ρ → Candidate × ρ) (state : ρ) :
    Except GenerationError Texts × ρ :=
  go maxAttempts state
where
  go : Nat → ρ → Except GenerationError Texts × ρ
    | 0, state => (.error (.exhausted maxAttempts), state)
    | left + 1, state =>
      let (candidate, state) := next state
      if candidate.hasShape then (candidate.assemble, state) else go left state

/-- A pair of a fresh private key, and the source after it. -/
def generate (e : Entropy) : Except GenerationError Texts × Entropy :=
  generateWith Candidate.fresh e

end KeyPair
end Keyring
