import Keyring.Key.Pair
import Keyring.Key.Sealed
import Keyring.Time.Rfc3339

/-!
# `Keyring.Pool.Wallet`: entries of a pool

A wallet is a public key with its address, its private key under a password,
and the time when it was added. A pool is kept as a JSON list of wallets in
the order in which they were added.
-/

set_option autoImplicit false

namespace Keyring

/-- An entry of a pool. -/
structure Wallet where
  address : String
  publicHex : String
  key : SealedKey
  createdAt : Instant
  deriving DecidableEq, Repr

namespace Wallet

/-- Does the entry belong to this public key and address? -/
def isOf (w : Wallet) (publicHex address : String) : Bool :=
  w.publicHex == publicHex && w.address == address

/-- The text of the private key, if the password is right. -/
def decrypt? (w : Wallet) (password : String) : Option String := w.key.decrypt? password

/-! ### JSON -/

/-- A wallet as JSON. -/
def chars (w : Wallet) : List Char :=
  Json.objectChars [("address", Json.quoted w.address), ("pubkey", Json.quoted w.publicHex),
    ("encryptedPrivateKey", w.key.chars), ("createdAt", Json.quoted (Rfc3339.render w.createdAt))]

/-- Reads a point in time. -/
def readInstant : Json.Reader Instant :=
  Json.readTextAs "an RFC 3339 formatted date and time string" fun text =>
    ((Rfc3339.parse text).map ClockTime.toInstant).mapError Rfc3339.Error.message

/-- Reads a wallet. -/
def read : Json.Reader Wallet :=
  Json.readRecord "StoredWallet"
    (.field ⟨"address", Json.readString, none⟩
      (.field ⟨"pubkey", Json.readString, none⟩
        (.field ⟨"encryptedPrivateKey", SealedKey.read, none⟩
          (.field ⟨"createdAt", readInstant, none⟩ .done))))
    fun (address, publicHex, key, createdAt, _) => ⟨address, publicHex, key, createdAt⟩

/-- A pool as JSON. -/
def poolText (pool : List Wallet) : String := String.ofList (Json.listChars (pool.map chars))

/-- The pool that a text spells. -/
def parsePool (text : String) : Except Json.Fault (List Wallet) :=
  Json.readAll (Json.readListOf read) Json.maxLevels text

end Wallet
end Keyring
