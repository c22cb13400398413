import Keyring.Curve.Ecdsa
import Keyring.Key.Address
import Keyring.Payload

/-!
# `Keyring.Key.Signing`: signatures of payloads

What is signed is the SHA-256 digest of a payload's canonical text, or a
digest that the caller brings. A signature is 128 hexadecimal digits.
-/

set_option autoImplicit false

namespace Keyring

/-- Why nothing was signed. -/
inductive SignError where
  | key (e : KeyError)
  | payload (e : Payload.Error)
  | dataHex (e : Hex.Error)
  /-- The digest is too short, or no signature was found. -/
  | refused
  deriving DecidableEq, Repr

/-- The wording of an error. -/
def SignError.message : SignError → String
  | .key e => "invalid key material: " ++ e.message
  | .payload e => "payload serialization failed: " ++ e.message
  | .dataHex e => "invalid data hex: " ++ e.message
  | .refused => "signing failed: signature error"

namespace Signing

/-- The signature of a digest under a private key. -/
def signDigest (secret : Secret) (digest : Bytes) : Except SignError String :=
  match (Ecdsa.digestNumber? digest).bind (Ecdsa.sign? secret.scalar) with
  | some sig => .ok (Hex.encode sig.bytes)
  | none => .error .refused

/-- The signature of a text under a private key. -/
def signText (secret : Secret) (text : String) : Except SignError String :=
  signDigest secret (Sha256.digest (Bytes.ofText text))

/-- The signature of a payload under a private key. -/
def signPayload (secret : Secret) (payload : Payload) : Except SignError String :=
  match payload.canonical with
  | .error e => .error (.payload e)
  | .ok text => signText secret text

/-- The signature of a payload under the private key that a text spells; the key is
looked at first. -/
def sign (key : String) (payload : Payload) : Except SignError String :=
  match Secret.ofHex key with
  | .error e => .error (.key e)
  | .ok secret => signPayload secret payload

/-- The signature of a digest in hexadecimal. -/
def signData (key data : String) : Except SignError String :=
  match Secret.ofHex key with
  | .error e => .error (.key e)
  | .ok secret =>
    match Hex.decode data with
    | .error e => .error (.dataHex e)
    | .ok digest => signDigest secret digest

/-- Is this the signature of the text under the public key? -/
def verifyText (key text signature : String) : Bool :=
  match Public.ofHex key, (Hex.decode? signature).bind Ecdsa.Signature.ofBytes? with
  | .ok key, some sig =>
    Ecdsa.verify key.x key.y (Sha256.digest (Bytes.ofText text)).toNat sig
  | _, _ => false

/-- Is this the signature of the payload under the public key? -/
def verify (key : String) (payload : Payload) (signature : String) : Bool :=
  match payload.canonical with
  | .error _ => false
  | .ok text => verifyText key text signature

end Signing
end Keyring
