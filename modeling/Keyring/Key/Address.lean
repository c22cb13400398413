import Keyring.Bytes.Base58
import Keyring.Hash.Ripemd160
import Keyring.Hash.Sha256
import Keyring.Key.Secret

/-!
# `Keyring.Key.Address`: public keys and addresses

A public key is a point of the curve, written as the 64 bytes of its two
coordinates. Its address is the Base58Check form of a version byte and the
RIPEMD-160 digest of its SHA-256 digest.
-/

set_option autoImplicit false

namespace Keyring

/-- The coordinates of a public key. -/
structure Public where
  (x y : Nat)
  deriving DecidableEq, Repr

namespace Public

/-- The public key of a private one. -/
def ofSecret (s : Secret) : Public :=
  match P256.baseMul s.scalar with
  | .affine x y => ⟨x, y⟩
  | .infinity => ⟨0, 0⟩

/-- The coordinates as 64 bytes. -/
def bytes (k : Public) : Bytes := Bytes.ofNat 32 k.x ++ Bytes.ofNat 32 k.y

/-- The 128 lower-case digits of a public key. -/
def hex (k : Public) : String := Hex.encode k.bytes

/-- The point that 64 bytes give the coordinates of, if the curve has it. -/
def ofBytes? (bytes : Bytes) : Option Public :=
  let x := Bytes.toNat (bytes.take 32)
  let y := Bytes.toNat (bytes.drop 32)
  if bytes.length = 64 ∧ P256.onCurve x y then some ⟨x, y⟩ else none

/-- The public key that a text spells, in digits of either case. -/
def ofHex (text : String) : Except KeyError Public :=
  match Hex.decode text with
  | .error e => .error (.publicHex e)
  | .ok bytes =>
    if bytes.length ≠ 64 then .error (.publicLength bytes.length)
    else
      match ofBytes? bytes with
      | some key => .ok key
      | none => .error .offCurve

end Public

namespace Address

/-- The byte that addresses of this ledger begin with. -/
def version : UInt8 := 0x41

/-- The first four bytes of the digest of the digest. -/
def checksum (body : Bytes) : Bytes := (Sha256.digest (Sha256.digest body)).take 4

/-- A body with its checksum in base 58. -/
def checked (body : Bytes) : String := Base58.encode (body ++ checksum body)

/-- The digest of a public key that its address shows. -/
def keyHash (key : Bytes) : Bytes := Ripemd160.digest (Sha256.digest key)

/-- The address of a public key. -/
def ofPublic (key : Public) : String := checked (version :: keyHash key.bytes)

/-- The address of the public key that a text spells. -/
def ofHex (text : String) : Except KeyError String := (Public.ofHex text).map ofPublic

/-- Is the text 34 bytes of base 58 that hold 21 bytes and their checksum? The
version byte may be any. -/
def isValid (text : String) : Bool :=
  text.utf8ByteSize == 34 &&
    match Base58.decode? text with
    | none => false
    | some bytes => bytes.length == 25 && checksum (bytes.take 21) == bytes.drop 21

end Address
end Keyring
