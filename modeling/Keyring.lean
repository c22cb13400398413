import Keyring.Backup
import Keyring.Bytes.Base58
import Keyring.Bytes.Basic
import Keyring.Bytes.Hex
import Keyring.Cipher.Aes
import Keyring.Cipher.Gcm
import Keyring.Curve.Ecdsa
import Keyring.Curve.Modular
import Keyring.Curve.Nonce
import Keyring.Curve.P256
import Keyring.Decimal.Binary
import Keyring.Decimal.Notation
import Keyring.Decimal.Real
import Keyring.Decimal.Shortest
import Keyring.Decimal.Stepwise
import Keyring.Entropy
import Keyring.Hash.Hmac
import Keyring.Hash.Ripemd160
import Keyring.Hash.Sha256
import Keyring.Json.Canonical
import Keyring.Json.Cursor
import Keyring.Json.Fault
import Keyring.Json.Lexeme
import Keyring.Json.Printer
import Keyring.Json.Reader
import Keyring.Json.Record
import Keyring.Json.Value
import Keyring.Key.Address
import Keyring.Key.Generation
import Keyring.Key.Pair
import Keyring.Key.Sealed
import Keyring.Key.Secret
import Keyring.Key.Signing
import Keyring.Payload
import Keyring.Pool.Context
import Keyring.Pool.Operations
import Keyring.Pool.Wallet
import Keyring.Proofs.Backup
import Keyring.Proofs.Bytes.Basic
import Keyring.Proofs.Bytes.Hex
import Keyring.Proofs.Cipher.Gcm
import Keyring.Proofs.Curve.Group
import Keyring.Proofs.Curve.Jacobian
import Keyring.Proofs.Curve.Modular
import Keyring.Proofs.Curve.Prime
import Keyring.Proofs.Json.Record
import Keyring.Proofs.Json.Text
import Keyring.Proofs.Key.Pair
import Keyring.Proofs.Key.Sealed
import Keyring.Proofs.Pool.Operations
import Keyring.Proofs.Pool.Text
import Keyring.Proofs.Run
import Keyring.Proofs.Session.AllOrNothing
import Keyring.Proofs.Session.Flow
import Keyring.Proofs.Session.Reachable
import Keyring.Proofs.Session.Run
import Keyring.Proofs.Store.Sound
import Keyring.Proofs.Text.Split
import Keyring.Proofs.Time.Calendar
import Keyring.Proofs.Time.Rfc3339
import Keyring.Session.Flow
import Keyring.Session.Request
import Keyring.Session.World
import Keyring.Settings.Basic
import Keyring.Settings.KeyPath
import Keyring.Settings.Load
import Keyring.Settings.Source
import Keyring.Settings.Tree
import Keyring.Store.Backing
import Keyring.Store.Basic
import Keyring.Store.Directory
import Keyring.Store.Faulty
import Keyring.Store.Files
import Keyring.Store.Memory
import Keyring.Text.Blank
import Keyring.Text.Hidden
import Keyring.Text.Quoted
import Keyring.Text.Split
import Keyring.Time.Calendar
import Keyring.Time.Instant
import Keyring.Time.Rfc3339
import Keyring.Toml.Document
import Keyring.Toml.Fault
import Keyring.Toml.Lexeme
import Keyring.Toml.Moment
import Keyring.Toml.Plain
import Keyring.Toml.Value
import Keyring.Proofs.Cipher.Aes
import Keyring.Proofs.Cipher.Field
import Keyring.Proofs.Cipher.Tamper
import Keyring.Proofs.Tampering
import Keyring.Proofs.Curve.Ecdsa
import Keyring.Proofs.Json.Ordered
import Keyring.Proofs.Payload
import Keyring.Proofs.Key.Signing
import Keyring.Proofs.Session.Requests
import Keyring.Proofs.Decimal.Interval
import Keyring.Proofs.Decimal.Shortest
import Keyring.Proofs.Decimal.Notation
import Keyring.Proofs.Json.Printer
import Keyring.Proofs.Binding
import Keyring.Proofs.Pool.Persistence
import Keyring.Proofs.Json.Reader
import Keyring.Proofs.Session.Wire
import Keyring.Proofs.Session.Portable
import Keyring.Proofs.Bytes.Order
import Keyring.Proofs.Json.Kept
import Keyring.Proofs.Payload.Form
import Keyring.Proofs.Payload.Reordered
import Keyring.Proofs.Store.Files
import Keyring.Proofs.Store.Directory
import Keyring.Proofs.Store.Mirror
import Keyring.Proofs.Pool.Failure
import Keyring.Proofs.Pool.Removal
import Keyring.Proofs.Session.Identity
import Keyring.Proofs.Bytes.Base58
import Keyring.Proofs.Key.Address
import Keyring.Proofs.Backup.Padding
import Keyring.Proofs.Session.RollBack
import Keyring.Proofs.Bytes.Numeral
import Keyring.Proofs.Key.Version
import Keyring.Proofs.Key.Reading
import Keyring.Proofs.Session.Issued
import Keyring.Proofs.Pool.Lookup
import Keyring.Proofs.Curve.Collision
import Keyring.Proofs.Key.Prehash
import Keyring.Proofs.Store.Atomic
import Keyring.Proofs.Entropy
import Keyring.Proofs.Key.Generation
import Keyring.Proofs.Session.Story
import Keyring.Proofs.Lockstep
import Keyring.Proofs.Pool.Lockstep
import Keyring.Proofs.Session.TrustDomains
import Keyring.Proofs.Entries
import Keyring.Proofs.Settings.Layer
import Keyring.Proofs.Settings.Source
import Keyring.Proofs.Toml.Lexeme
import Keyring.Proofs.Toml.Document
import Keyring.Proofs.Settings.Load
