import Keyring.Key.Pair
import Keyring.Proofs.Bytes.Hex
import Keyring.Proofs.Curve.Group

/-!
# `Keyring.Proofs.Key.Pair`: what a private key determines

The theorems:

* `KeyPair.ofHex_hex`: the text of a private key is read back as its pair.
* `Address.ofHex_ofSecret`: the address of a pair is the address of the text of
  its public key.
* `KeyPair.eq_of_publicHex_eq`: pairs with the same public key are the same.
-/

set_option autoImplicit false

namespace Keyring

open P256 (p n)

/-! ### Private keys -/

namespace Secret

/-- The number of a private key is in range, which its type carries. -/
theorem inRange (s : Secret) : Curve.InRange s.scalar := ⟨s.pos, s.lt⟩

/-- The text of a private key is read back, as the same private key. The writer uses small
digits only, and the reader takes them in the same order. -/
theorem ofHex_hex (s : Secret) : ofHex s.hex = .ok s := by
  have hscalar : (Bytes.ofNat 32 s.scalar).toNat = s.scalar :=
    Bytes.toNat_ofNat s.inRange.lt_width
  have hread : ofScalar? s.scalar = some s := dif_pos ⟨s.pos, s.lt⟩
  rw [ofHex, hex, Hex.decode_encode]
  simp only
  rw [if_neg (by rw [Bytes.length_ofNat]; decide), hscalar, hread]

/-- The number of a private key is what its text spells, in the full width. The case of the
digits is all that the key does not remember. -/
theorem ofHex_scalar {text : String} {s : Secret} (h : ofHex text = .ok s) :
    Hex.lower text = s.hex := by
  unfold ofHex at h
  cases hbytes : Hex.decode text with
  | error e =>
      rw [hbytes] at h
      exact absurd h nofun
  | ok bytes =>
      rw [hbytes] at h
      simp only at h
      split at h
      · exact absurd h nofun
      · rename_i hlength
        rw [(Hex.decode_eq_ok_iff _ _).1 hbytes]
        unfold ofScalar? at h
        split at h
        -- The bytes are read back from their number, because there are 32 of them.
        · rename_i hsome
          split at hsome
          · obtain rfl := Option.some.inj hsome
            obtain rfl := Except.ok.inj h
            rw [hex]
            show _ = Hex.encode (Bytes.ofNat 32 (Bytes.toNat bytes))
            rw [← not_not.1 hlength, Bytes.ofNat_toNat]
          · exact absurd hsome nofun
        · exact absurd h nofun

end Secret

/-! ### Public keys -/

namespace Public

/-- A public key has 32 bytes for each coordinate. Coordinates with leading zeros are no
exception. -/
theorem length_bytes (k : Public) : k.bytes.length = 64 := by
  rw [bytes, List.length_append, Bytes.length_ofNat, Bytes.length_ofNat]

/-- The public key of a private one is a point of the curve, because the private key is below
the order of the generator. -/
theorem onCurve_ofSecret (s : Secret) :
    P256.onCurve (ofSecret s).x (ofSecret s).y = true := by
  obtain ⟨x, y, hns, hx, hy, -, hmul⟩ := Curve.baseMul_spec s.inRange
  rw [ofSecret, hmul]
  exact (Curve.onCurve_iff x y).2 ⟨hx, hy, hns.1⟩

/-- Two coordinates are read back from 64 bytes, if they are those of a point of the curve. -/
theorem ofBytes?_bytes {k : Public} (h : P256.onCurve k.x k.y = true) :
    ofBytes? k.bytes = some k := by
  obtain ⟨hx, hy, -⟩ := (Curve.onCurve_iff k.x k.y).1 h
  have hp : p < 256 ^ 32 := by decide
  have htake : Bytes.toNat (k.bytes.take 32) = k.x := by
    rw [bytes, List.take_left' (Bytes.length_ofNat _ _), Bytes.toNat_ofNat (Nat.lt_trans hx hp)]
  have hdrop : Bytes.toNat (k.bytes.drop 32) = k.y := by
    rw [bytes, List.drop_left' (Bytes.length_ofNat _ _), Bytes.toNat_ofNat (Nat.lt_trans hy hp)]
  rw [ofBytes?, htake, hdrop]
  exact if_pos ⟨k.length_bytes, h⟩

/-- The text of a public key is read back, if it is a point of the curve. The reader refuses
other pairs of numbers. A pair's own public key passes the test, as a multiple of the
generator. -/
theorem ofHex_hex {k : Public} (h : P256.onCurve k.x k.y = true) : ofHex k.hex = .ok k := by
  rw [ofHex, hex, Hex.decode_encode]
  simp only
  rw [if_neg (by rw [k.length_bytes]; decide), ofBytes?_bytes h]

/-- Different private keys have different public keys: multiples of the generator below its
order are different points. -/
theorem ofSecret_injective {s t : Secret} (h : ofSecret s = ofSecret t) : s = t := by
  obtain ⟨x, y, hns, -, -, -, hmul⟩ := Curve.baseMul_spec s.inRange
  obtain ⟨x', y', hns', -, -, -, hmul'⟩ := Curve.baseMul_spec t.inRange
  rw [ofSecret, ofSecret, hmul, hmul'] at h
  obtain ⟨rfl, rfl⟩ := Public.mk.inj h
  -- Both multiples of the generator are finite points with the same coordinates.
  have hscalar := Curve.baseMul_injective s.inRange t.inRange (hmul.trans hmul'.symm)
  obtain ⟨scalar, _, _⟩ := s
  obtain ⟨scalar', _, _⟩ := t
  obtain rfl : scalar = scalar' := hscalar
  rfl

end Public

/-- The address of a pair is the address of the text of its public key. The two ways to an
address, from the pair and from the text, agree. -/
theorem Address.ofHex_ofSecret (s : Secret) :
    Address.ofHex (KeyPair.ofSecret s).publicHex = .ok (KeyPair.ofSecret s).address := by
  show (Public.ofHex (Public.ofSecret s).hex).map Address.ofPublic = _
  rw [Public.ofHex_hex (Public.onCurve_ofSecret s)]
  rfl

/-! ### Pairs -/

namespace KeyPair

/-- The text of a private key is read back as its pair. -/
theorem ofHex_hex (s : Secret) : ofHex s.hex = .ok (ofSecret s) := by
  rw [ofHex, Secret.ofHex_hex]
  rfl

/-- A pair that was read is the pair of its private key, so it is determined by it. -/
theorem eq_ofSecret_of_ofHex {text : String} {pair : KeyPair} (h : ofHex text = .ok pair) :
    pair = ofSecret pair.secret := by
  unfold ofHex at h
  cases hread : Secret.ofHex text with
  | error e =>
      rw [hread] at h
      exact absurd h nofun
  | ok s =>
      rw [hread] at h
      obtain rfl := Except.ok.inj h
      rfl

/-- Private keys with the same public key are the same. So a public text is held by one pair.
Pools compare wallets by their public texts, and this is why that is enough. -/
theorem eq_of_publicHex_eq {s t : Secret} (h : (ofSecret s).publicHex = (ofSecret t).publicHex) :
    s = t := by
  have hs := Public.ofHex_hex (Public.onCurve_ofSecret s)
  have ht := Public.ofHex_hex (Public.onCurve_ofSecret t)
  have htexts : (Public.ofSecret s).hex = (Public.ofSecret t).hex := h
  rw [htexts, ht] at hs
  exact (Public.ofSecret_injective (Except.ok.inj hs)).symm

end KeyPair
end Keyring
