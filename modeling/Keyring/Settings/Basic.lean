import Keyring.Backup

/-!
# `Keyring.Settings.Basic`: what a pool of wallets depends on

The settings name the place of the pool in the store and the domain of the
backups. Both have a JSON form; all but the system's secret may be left out
there. Settings show themselves without the secret.
-/

set_option autoImplicit false

namespace Keyring

namespace Backup.Domain

/-- The padding of backups unless another is set. -/
def defaultPadding : String := "wallet-vault-export"

/-- The domain as it is shown in a log. -/
def describe (d : Domain) : String :=
  "ExportConfig \x7b system_secret: \"<redacted>\", padding: " ++ Text.quote d.padding ++ " \x7d"

/-- Reads a domain. -/
def read : Json.Reader Domain :=
  Json.readRecord "ExportConfig"
    (.field ⟨"system_secret", Json.readString, none⟩
      (.field ⟨"padding", Json.readString, some defaultPadding⟩ .done))
    fun (secret, padding, _) => ⟨secret, padding⟩

end Backup.Domain

/-- Where the pool is kept, and the domain of the backups. -/
structure Settings where
  poolKey : String
  domain : Backup.Domain
  deriving DecidableEq, Repr

namespace Settings

/-- The place of the pool unless another is set. -/
def defaultPoolKey : String := "wallet_pool"

/-- The settings with a secret and defaults for the rest. -/
def ofSecret (secret : String) : Settings := ⟨defaultPoolKey, secret, Backup.Domain.defaultPadding⟩

/-- The settings as they are shown in a log. -/
def describe (s : Settings) : String :=
  "WalletConfig \x7b pool_key: " ++ Text.quote s.poolKey ++ ", export: " ++ s.domain.describe ++
    " \x7d"

/-- Reads settings. -/
def read : Json.Reader Settings :=
  Json.readRecord "WalletConfig"
    (.field ⟨"pool_key", Json.readString, some defaultPoolKey⟩
      (.field ⟨"export", Backup.Domain.read, none⟩ .done))
    fun (poolKey, domain, _) => ⟨poolKey, domain⟩

end Settings

/-- What is shown of the keys that make backups. -/
def Backup.describeCodec : String := "ExportCodec \x7b .. \x7d"

end Keyring
