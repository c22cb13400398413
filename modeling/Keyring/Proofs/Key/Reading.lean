import Keyring.Proofs.Bytes.Numeral
import Keyring.Proofs.Key.Address

/-!
# `Keyring.Proofs.Key.Reading`: which texts are private keys

A private key is read from 64 hexadecimal digits of a number in 1 … n − 1. Once
the number is in range nothing else can fail: its multiple of the generator is a
finite point, the point has a text, and the text has an address. The theorems:

* `Secret.ofHex_eq_ok_iff`, `Secret.ofHex_eq_error_iff`: which texts are read,
  and why another one is refused.
* `KeyPair.wellFormed_ofSecret`: what the pair of a private key is made of.
* `KeyPair.ofHex_eq_ok_iff`, `KeyPair.ofHex_eq_error_iff`: the same texts are
  read as pairs.
-/

set_option autoImplicit false

namespace Keyring

open P256 (p)
open Curve (InRange curve generator)
open Hex (Spells)

/-! ### Private keys -/

namespace Secret

/-- The text of a private key spells its number, in 64 digits whatever zeros the number
begins with. -/
theorem spells_hex (s : Secret) : Spells s.hex.toList 64 s.scalar := by
  have hspells := Hex.spells_encode (Bytes.ofNat 32 s.scalar)
  rwa [Bytes.length_ofNat, Bytes.toNat_ofNat s.inRange.lt_width] at hspells

/-- A text is read as a private key exactly if it is 64 digits of its number. A key carries
that its number is in range, so nothing else has to be said. -/
theorem ofHex_eq_ok_iff (text : String) (s : Secret) :
    ofHex text = .ok s ↔ Spells text.toList 64 s.scalar := by
  rw [← s.spells_hex.lower_eq_iff, hex, Hex.lower_encode]
  constructor
  · intro h
    exact ofHex_scalar h
  · intro hlower
    -- Texts that are the same in lower case spell the same bytes, and only those are looked at.
    have hdecode : Hex.decode text = Hex.decode s.hex := by
      rw [(Hex.decode_eq_ok_iff _ _).2 hlower, hex, Hex.decode_encode]
    have hread := ofHex_hex s
    rw [ofHex, ← hdecode] at hread
    exact hread

/-- Why a text is no private key: it is not hexadecimal, or it is not of 32 bytes, or its number is
out of range. -/
inductive Refused (text : String) : KeyError → Prop
  | notHex (e : Hex.Error) : Hex.decode text = .error e → Refused text (.secretHex e)
  | otherLength (bytes : Bytes) : Hex.decode text = .ok bytes → bytes.length ≠ 32 →
      Refused text (.secretLength bytes.length)
  | outOfRange (number : Nat) : Spells text.toList 64 number → ¬InRange number →
      Refused text .secretRange

/-- A text of 64 digits spells the 32 bytes of its number, zeros in front included. -/
theorem decode_of_spells {text : String} {number : Nat} (h : Spells text.toList 64 number) :
    Hex.decode text = .ok (Bytes.ofNat 32 number) := by
  have hfits : number < 256 ^ 32 := Nat.lt_of_lt_of_le h.number_lt (by decide)
  rw [Hex.decode_eq_ok_iff_spells, Bytes.length_ofNat, Bytes.toNat_ofNat hfits]
  exact h

/-- A number makes no private key exactly if it is not in range. Zero and the numbers from
the order on have no key. -/
theorem ofScalar?_eq_none_iff (number : Nat) : ofScalar? number = none ↔ ¬InRange number := by
  unfold ofScalar?
  split
  · rename_i hrange
    exact ⟨nofun, fun hnot => absurd hrange hnot⟩
  · rename_i hrange
    exact ⟨fun _ => hrange, fun _ => rfl⟩

/-- A text is refused for the first of the three reasons that applies: it is not hexadecimal,
it has another length, or its number is out of range. The reasons exclude one another, so the
error tells which one it was, with the place of a wrong digit where there is one. -/
theorem ofHex_eq_error_iff (text : String) (e : KeyError) :
    ofHex text = .error e ↔ Refused text e := by
  constructor
  · intro h
    unfold ofHex at h
    cases hbytes : Hex.decode text with
    | error reason =>
        rw [hbytes] at h
        obtain rfl := Except.error.inj h
        exact .notHex reason hbytes
    | ok bytes =>
        rw [hbytes] at h
        dsimp only at h
        split at h
        · rename_i hlength
          obtain rfl := Except.error.inj h
          exact .otherLength bytes hbytes hlength
        · rename_i hlength
          split at h
          · exact absurd h nofun
          · rename_i hnone
            -- All bytes are there, so only the range is left to fail.
            obtain rfl := Except.error.inj h
            have hspells := (Hex.decode_eq_ok_iff_spells text bytes).1 hbytes
            rw [not_not.1 hlength] at hspells
            exact .outOfRange bytes.toNat hspells ((ofScalar?_eq_none_iff _).1 hnone)
  · intro h
    unfold ofHex
    cases h with
    | notHex reason hreason => rw [hreason]
    | otherLength bytes hbytes hlength =>
        rw [hbytes]
        simp only
        rw [if_pos hlength]
    | outOfRange number hspells hrange =>
        -- The digits stand for a number that fits into the 32 bytes.
        have hfits : number < 256 ^ 32 := Nat.lt_of_lt_of_le hspells.number_lt (by decide)
        rw [decode_of_spells hspells]
        simp only
        rw [if_neg (by simp), Bytes.toNat_ofNat hfits, (ofScalar?_eq_none_iff _).2 hrange]

end Secret

/-! ### Pairs -/

namespace KeyPair

/-- What a pair is made of. -/
structure WellFormed (pair : KeyPair) : Prop where
  /-- The private key is written as 64 digits of its number, in lower case. -/
  secretText : Spells pair.secret.hex.toList 64 pair.secret.scalar ∧
    Hex.lower pair.secret.hex = pair.secret.hex
  /-- The public key is written as 64 digits for each coordinate of the multiple of the generator,
  in lower case. -/
  publicText : ∃ (x y : Nat) (hns : curve.Nonsingular (x : ZMod p) y) (first second : List Char),
    x < p ∧ y < p ∧ pair.secret.scalar • generator = .some _ _ hns ∧
      pair.publicHex.toList = first ++ second ∧ Spells first 64 x ∧ Spells second 64 y ∧
      Hex.lower pair.publicHex = pair.publicHex
  /-- The text of the public key has an address, and it is that of the pair. -/
  address : Address.ofHex pair.publicHex = .ok pair.address

/-- The pair of a private key is well formed: its texts have their widths and digits, its
public key is that multiple of the generator, and its address is valid. -/
theorem wellFormed_ofSecret (s : Secret) : WellFormed (ofSecret s) where
  secretText := ⟨s.spells_hex, Hex.lower_encode _⟩
  publicText := by
    obtain ⟨x, y, hns, hx, hy, hsome, hmul⟩ := Curve.baseMul_spec s.inRange
    have hpublic : (ofSecret s).publicHex = Hex.encode (Bytes.ofNat 32 x ++ Bytes.ofNat 32 y) := by
      show Hex.encode (Public.ofSecret s).bytes = _
      rw [Public.ofSecret, hmul]
      rfl
    -- Coordinates are below `p`, so 32 bytes hold them.
    have hspells : ∀ z < p, Spells (Hex.encode (Bytes.ofNat 32 z)).toList 64 z := by
      intro z hz
      have hfits : z < 256 ^ 32 := Nat.lt_trans hz (by decide)
      have hdigits := Hex.spells_encode (Bytes.ofNat 32 z)
      rwa [Bytes.length_ofNat, Bytes.toNat_ofNat hfits] at hdigits
    refine ⟨x, y, hns, (Hex.encode (Bytes.ofNat 32 x)).toList,
      (Hex.encode (Bytes.ofNat 32 y)).toList, hx, hy, hsome, ?_, hspells x hx, hspells y hy, ?_⟩
    · rw [hpublic]
      simp [Hex.encode]
    · rw [hpublic, Hex.lower_encode]
  address := Address.ofHex_ofSecret s

/-- A text is read as a pair exactly if it is 64 digits of a private key that the pair is of.
The second part excludes pairs that are put together from parts that do not belong together. -/
theorem ofHex_eq_ok_iff (text : String) (pair : KeyPair) :
    ofHex text = .ok pair ↔
      Spells text.toList 64 pair.secret.scalar ∧ pair = ofSecret pair.secret := by
  rw [← Secret.ofHex_eq_ok_iff, ofHex]
  cases Secret.ofHex text with
  | error e =>
      constructor
      · intro h
        cases h
      · intro h
        cases h.1
  | ok s =>
      constructor
      · intro h
        obtain rfl := Except.ok.inj h
        exact ⟨rfl, rfl⟩
      · -- A pair of the secret number is the one that is built from it.
        rintro ⟨hsecret, hpair⟩
        rw [hpair, ← Except.ok.inj hsecret]
        rfl

/-- However the digits of a private key are written, they are read as its pair. -/
theorem ofHex_of_lower {text : String} {s : Secret} (h : Hex.lower text = s.hex) :
    ofHex text = .ok (ofSecret s) := by
  refine (ofHex_eq_ok_iff _ _).2 ⟨?_, rfl⟩
  show Spells text.toList 64 s.scalar
  rw [← s.spells_hex.lower_eq_iff, h]
  exact (Hex.lower_encode _).symm

/-- A text is refused as a pair for the reason that it is refused as a private key for.
Deriving the public key and the address cannot fail. -/
theorem ofHex_eq_error_iff (text : String) (e : KeyError) :
    ofHex text = .error e ↔ Secret.Refused text e := by
  rw [← Secret.ofHex_eq_error_iff, ofHex]
  cases Secret.ofHex text with
  | error reason =>
      constructor
      · intro h
        rw [Except.error.inj h]
      · intro h
        rw [Except.error.inj h]
        rfl
  | ok s =>
      constructor
      · intro h
        cases h
      · intro h
        cases h

/-- Some pair is read from a text exactly if it is 64 digits of a number in range. The pair
is that of the number. -/
theorem exists_ofHex_iff (text : String) :
    (∃ pair, ofHex text = .ok pair) ↔
      ∃ number, InRange number ∧ Spells text.toList 64 number := by
  constructor
  · rintro ⟨pair, hread⟩
    exact ⟨pair.secret.scalar, pair.secret.inRange, ((ofHex_eq_ok_iff _ _).1 hread).1⟩
  · rintro ⟨number, hrange, hspells⟩
    exact ⟨ofSecret ⟨number, hrange.1, hrange.2⟩, (ofHex_eq_ok_iff _ _).2 ⟨hspells, rfl⟩⟩

end KeyPair
end Keyring
