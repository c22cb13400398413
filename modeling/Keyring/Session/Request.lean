import Keyring.Key.Pair
import Keyring.Key.Signing
import Keyring.Time.Instant
import Keyring.Json.Record

/-!
# `Keyring.Session.Request`: signed requests

What is sent to a ledger is data with the signature of its canonical text. To
connect, a wallet signs a proof: a fresh number, its public key and address,
and the time.
-/

set_option autoImplicit false

namespace Keyring

/-- Data with a signature. -/
structure Signed (α : Type) where
  data : α
  signature : String
  deriving DecidableEq, Repr

namespace Signed

/-- Signed data as JSON. -/
def chars {α : Type} (dataChars : α → List Char) (s : Signed α) : List Char :=
  Json.objectChars [("data", dataChars s.data), ("sig", Json.quoted s.signature)]

/-- Reads signed data. -/
def read {α : Type} (readData : Json.Reader α) : Json.Reader (Signed α) :=
  Json.readRecord "SignedRequest"
    (.field ⟨"data", readData, none⟩ (.field ⟨"sig", Json.readString, none⟩ .done))
    fun (data, signature, _) => ⟨data, signature⟩

end Signed

/-- Evidence that a wallet is under control: what is signed to connect. -/
structure Proof where
  nonce : String
  publicHex : String
  /-- Seconds since 1970. -/
  timestamp : Int
  address : String
  deriving DecidableEq, Repr

namespace Proof

/-- How many bytes the fresh number of a proof has. -/
def nonceLength : Nat := 16

/-- The proof of a pair at a time, with its fresh number. -/
def make (pair : KeyPair) (nonce : Bytes) (now : Instant) : Proof :=
  ⟨Hex.encode nonce, pair.publicHex, now.unixSeconds, pair.address⟩

/-- A proof as JSON. -/
def chars (p : Proof) : List Char :=
  Json.objectChars [("nonce", Json.quoted p.nonce), ("publickey", Json.quoted p.publicHex),
    ("timestamp", Json.wholeChars p.timestamp), ("address", Json.quoted p.address)]

/-- Reads a proof. -/
def read : Json.Reader Proof :=
  Json.readRecord "ConnectionProof"
    (.field ⟨"nonce", Json.readString, none⟩
      (.field ⟨"publickey", Json.readString, none⟩
        (.field ⟨"timestamp", Json.readInt64, none⟩
          (.field ⟨"address", Json.readString, none⟩ .done))))
    fun (nonce, publicHex, timestamp, address, _) => ⟨nonce, publicHex, timestamp, address⟩

/-- A proof as data to be signed. -/
def toPayload (p : Proof) : Payload :=
  .record [("nonce", .text p.nonce), ("publickey", .text p.publicHex),
    ("timestamp", .int p.timestamp), ("address", .text p.address)]

/-- Is the request signed under the public key that it names? -/
def isSignedBySelf (request : Signed Proof) : Bool :=
  Signing.verify request.data.publicHex request.data.toPayload request.signature

end Proof
end Keyring
