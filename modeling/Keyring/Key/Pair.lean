import Keyring.Key.Address
import Keyring.Text.Quoted

/-!
# `Keyring.Key.Pair`: key pairs

A private key with what belongs to it: the text of its public key, and its
address. A pair shows itself without the private key.
-/

set_option autoImplicit false

namespace Keyring

/-- A private key, the text of its public key, and its address. -/
structure KeyPair where
  secret : Secret
  publicHex : String
  address : String
  deriving DecidableEq, Repr

namespace KeyPair

/-- The pair of a private key. -/
def ofSecret (s : Secret) : KeyPair :=
  let key := Public.ofSecret s
  ⟨s, key.hex, Address.ofPublic key⟩

/-- The pair of the private key that a text spells. -/
def ofHex (text : String) : Except KeyError KeyPair := (Secret.ofHex text).map ofSecret

/-- The pair of a fresh private key, and the source after it. -/
def fresh (e : Entropy) : KeyPair × Entropy :=
  let (secret, e) := Secret.fresh e
  (ofSecret secret, e)

/-- The pair as it is shown in a log. -/
def describe (pair : KeyPair) : String :=
  "KeyPair \x7b public_key: " ++ Text.quote pair.publicHex ++ ", address: " ++
    Text.quote pair.address ++ ", .. \x7d"

end KeyPair
end Keyring
