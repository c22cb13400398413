import Keyring.Hash.Sha256

/-!
# `Keyring.Hash.Hmac`: keyed digests with SHA-256 (RFC 2104)

The key, hashed first if it is longer than a block, is filled up to a block
with zeros and masks an inner and an outer digest.
-/

set_option autoImplicit false

namespace Keyring.Hmac

/-- The key as one block of 64 bytes. -/
def keyBlock (key : Bytes) : Bytes :=
  let short := if key.length > 64 then Sha256.digest key else key
  short ++ List.replicate (64 - short.length) 0

/-- The code of a message under a key. -/
def sha256 (key message : Bytes) : Bytes :=
  let block := keyBlock key
  let inner := Sha256.digest (block.map (· ^^^ 0x36) ++ message)
  Sha256.digest (block.map (· ^^^ 0x5c) ++ inner)

end Keyring.Hmac
