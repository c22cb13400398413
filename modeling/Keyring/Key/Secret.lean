import Keyring.Bytes.Hex
import Keyring.Curve.P256
import Keyring.Entropy

/-!
# `Keyring.Key.Secret`: private keys

A private key is a number in 1 … n − 1, written as 64 hexadecimal digits. A
fresh one is the first 32 bytes of a source that are such a number; the search
ends because the source's fixed sequence holds no other kind of 32 bytes.

* `Secret.fresh`: total, by the number of given bytes.
-/

set_option autoImplicit false

namespace Keyring

/-- A private key. -/
structure Secret where
  scalar : Nat
  pos : 0 < scalar
  lt : scalar < P256.n
  deriving DecidableEq, Repr

/-- Why a text is no key. -/
inductive KeyError where
  | secretHex (e : Hex.Error)
  | secretLength (bytes : Nat)
  | secretRange
  | publicHex (e : Hex.Error)
  | publicLength (bytes : Nat)
  | offCurve
  deriving DecidableEq, Repr

/-- The wording of an error. -/
def KeyError.message (e : KeyError) : String :=
  "invalid key material: " ++
    match e with
    | .secretHex e => "private key hex: " ++ e.message
    | .secretLength bytes => "private key must be 32 bytes, got " ++ toString bytes
    | .secretRange => "scalar out of range"
    | .publicHex e => "public key hex: " ++ e.message
    | .publicLength bytes => "public key must be 64 bytes, got " ++ toString bytes
    | .offCurve => "public key is not on the curve"

namespace Secret

/-- The private key of a number, if it is in range. -/
def ofScalar? (scalar : Nat) : Option Secret :=
  if h : 0 < scalar ∧ scalar < P256.n then some ⟨scalar, h.1, h.2⟩ else none

/-- The private key that a text spells, in digits of either case. -/
def ofHex (text : String) : Except KeyError Secret :=
  match Hex.decode text with
  | .error e => .error (.secretHex e)
  | .ok bytes =>
    if bytes.length ≠ 32 then .error (.secretLength bytes.length)
    else
      match ofScalar? bytes.toNat with
      | some secret => .ok secret
      | none => .error .secretRange

/-- The 64 lower-case digits of a private key. -/
def hex (s : Secret) : String := Hex.encode (Bytes.ofNat 32 s.scalar)

/-! ### Fresh keys -/

/-- Every 32 bytes of the fixed sequence are a number in range. The sequence has period 256,
so this is a check of 256 draws; it is what makes the search of `fresh` end. -/
theorem tail_in_range (k : Nat) :
    0 < (Entropy.draw ⟨[], k⟩ 32).1.toNat ∧ (Entropy.draw ⟨[], k⟩ 32).1.toNat < P256.n := by
  rw [Entropy.draw_tail_congr (k := k % 256) (by omega)]
  have all : ∀ r : Fin 256, 0 < (Entropy.draw ⟨[], r⟩ 32).1.toNat ∧
      (Entropy.draw ⟨[], r⟩ 32).1.toNat < P256.n := by decide +kernel
  exact all ⟨k % 256, Nat.mod_lt _ (by decide)⟩

/-- The first private key that a source gives, and the source after it. -/
def fresh (e : Entropy) : Secret × Entropy :=
  let scalar := (e.draw 32).1.toNat
  if h : 0 < scalar ∧ scalar < P256.n then (⟨scalar, h.1, h.2⟩, (e.draw 32).2)
  else fresh (e.draw 32).2
termination_by e.given.length
decreasing_by
  obtain ⟨given, drawn⟩ := e
  cases given with
  -- Without given bytes the first draw is in range already.
  | nil => exact absurd (tail_in_range drawn) h
  -- Else the draw uses up a given byte at least.
  | cons b rest =>
    rw [Entropy.draw_given]
    simp only [List.length_drop, List.length_cons]
    omega

end Secret
end Keyring
