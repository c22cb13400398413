import Keyring.Bytes.Hex
import Keyring.Cipher.Aes
import Keyring.Cipher.Gcm
import Keyring.Entropy
import Keyring.Hash.Sha256
import Keyring.Json.Printer
import Keyring.Json.Record

/-!
# `Keyring.Key.Sealed`: a private key under a password

The text of a private key is encrypted with AES-256-GCM under the SHA-256
digest of a password and kept as three hexadecimal texts.
-/

set_option autoImplicit false

namespace Keyring

/-- The block cipher under the digest of a secret. -/
def secretCipher (secret : String) : Gcm.Cipher := Aes.encrypt (Sha256.digest (Bytes.ofText secret))

/-- An encrypted private key: ciphertext, vector and tag in hexadecimal. -/
structure SealedKey where
  cipherText : String
  iv : String
  authTag : String
  deriving DecidableEq, Repr

namespace SealedKey

/-- Encrypts a text under a password with a vector. -/
def encryptWith (iv : Bytes) (text password : String) : SealedKey :=
  let blob := Gcm.encrypt (secretCipher password) iv (Bytes.ofText text)
  ⟨Hex.encode blob.masked, Hex.encode iv, Hex.encode blob.tag⟩

/-- Encrypts a text under a password with a vector from a source. -/
def encrypt (e : Entropy) (text password : String) : SealedKey × Entropy :=
  let (iv, e) := e.draw Gcm.ivLength
  (encryptWith iv text password, e)

/-- The text that was encrypted under a password; nothing if any part is malformed
or was changed, or the password is another. -/
def decrypt? (key : SealedKey) (password : String) : Option String := do
  let masked ← Hex.decode? key.cipherText
  let iv ← Hex.decode? key.iv
  let tag ← Hex.decode? key.authTag
  let text ← Gcm.decrypt? (secretCipher password) iv ⟨masked, tag⟩
  Bytes.toText? text

/-! ### JSON -/

/-- A sealed key as JSON. -/
def chars (key : SealedKey) : List Char :=
  Json.objectChars [("cipherText", Json.quoted key.cipherText), ("iv", Json.quoted key.iv),
    ("authTag", Json.quoted key.authTag)]

/-- Reads a sealed key. -/
def read : Json.Reader SealedKey :=
  Json.readRecord "StoredPrivateKey"
    (.field ⟨"cipherText", Json.readString, none⟩
      (.field ⟨"iv", Json.readString, none⟩ (.field ⟨"authTag", Json.readString, none⟩ .done)))
    fun (cipherText, iv, authTag, _) => ⟨cipherText, iv, authTag⟩

end SealedKey
end Keyring
