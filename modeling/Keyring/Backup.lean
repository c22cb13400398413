import Keyring.Hash.Hmac
import Keyring.Key.Sealed
import Keyring.Text.Split

/-!
# `Keyring.Backup`: a private key as a copyable text

A backup is made under the system's secret, not under a password. Its first
half holds vector, tag and ciphertext of a padding text, a separator and the
private key; its second half is the HMAC-SHA-256 code of that same plain text.
Both halves are hexadecimal with the separator between them.
-/

set_option autoImplicit false

namespace Keyring.Backup

/-- What stands between the parts of a backup. -/
def separator : List Char := [':', ':', ':']

/-- What the codes and the padding of backups depend on. -/
structure Domain where
  secret : String
  padding : String
  deriving DecidableEq, Repr

/-- What stands before the private key in the plain text. -/
def Domain.lead (d : Domain) : List Char := d.padding.toList ++ separator

/-- The code of a plain text. -/
def Domain.code (d : Domain) (plain : Bytes) : Bytes := Hmac.sha256 (Bytes.ofText d.secret) plain

/-- The backup of a text with a vector. -/
def exportWith (d : Domain) (iv : Bytes) (text : String) : String :=
  let plain := Bytes.ofText (String.ofList (d.lead ++ text.toList))
  let blob := Gcm.encrypt (secretCipher d.secret) iv plain
  Hex.encode (iv ++ blob.tag ++ blob.masked) ++ String.ofList separator ++
    Hex.encode (d.code plain)

/-- The backup of a text with a vector from a source. -/
def exportText (d : Domain) (e : Entropy) (text : String) : String × Entropy :=
  let (iv, e) := e.draw Gcm.ivLength
  (exportWith d iv text, e)

/-- The text that a backup holds; nothing if any part is malformed or was changed,
or the backup is of another domain. -/
def import? (d : Domain) (backup : String) : Option String := do
  let (bodyHex, codeHex) ← Text.splitLast? separator backup.toList
  let body ← Hex.decode? (String.ofList bodyHex)
  let code ← Hex.decode? (String.ofList codeHex)
  let iv := body.take Gcm.ivLength
  let tag := (body.drop Gcm.ivLength).take Gcm.tagLength
  let masked := body.drop (Gcm.ivLength + Gcm.tagLength)
  let plain ← Gcm.decrypt? (secretCipher d.secret) iv ⟨masked, tag⟩
  let text ← Bytes.toText? plain
  let key ← Text.dropStart? d.lead text.toList
  if code = d.code plain then some (String.ofList key) else none

end Keyring.Backup
