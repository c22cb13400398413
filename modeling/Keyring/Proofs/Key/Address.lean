import Keyring.Key.Address
import Keyring.Proofs.Bytes.Base58
import Keyring.Proofs.Key.Pair

/-!
# `Keyring.Proofs.Key.Address`: which texts are addresses

An address is the Base58Check form of a body: the body and the first four bytes
of the digest of its digest, in base 58. The theorems:

* `isValid_iff`: a text is valid exactly if it has 34 bytes and is the
  Base58Check form of 21 bytes, and of no others.
* `length_checked`: the versions under which every digest of 20 bytes gives 34
  characters.
* `ofHex_faithful`: the address of a public key is valid, and two public keys
  share it exactly if they share their digest.
-/

set_option autoImplicit false

namespace Keyring

/-! ### Public keys -/

namespace Public

/-- A public key that was read has the bytes that it was read from: its two coordinates are
the two halves of them. -/
theorem bytes_of_ofBytes? {bytes : Bytes} {key : Public} (h : ofBytes? bytes = some key) :
    key.bytes = bytes := by
  obtain ⟨⟨hlength, -⟩, hkey⟩ := Option.ite_none_right_eq_some.1 h
  have hfirst : (bytes.take 32).length = 32 := by
    rw [List.length_take, hlength]
    rfl
  have hsecond : (bytes.drop 32).length = 32 := by rw [List.length_drop, hlength]
  -- Each coordinate is the number of one half, and either half has 32 bytes.
  have hx := Bytes.ofNat_toNat (bytes.take 32)
  have hy := Bytes.ofNat_toNat (bytes.drop 32)
  rw [hfirst] at hx
  rw [hsecond] at hy
  rw [← Option.some.inj hkey, Public.bytes, hx, hy, List.take_append_drop]

/-- A public key has the bytes that its text spells. So the text determines everything that
is computed from the key. -/
theorem decode_of_ofHex {text : String} {key : Public} (h : ofHex text = .ok key) :
    Hex.decode text = .ok key.bytes := by
  unfold ofHex at h
  cases hbytes : Hex.decode text with
  | error e =>
      rw [hbytes] at h
      exact absurd h nofun
  | ok bytes =>
      rw [hbytes] at h
      dsimp only at h
      split at h
      · exact absurd h nofun
      · split at h
        · -- Only here a key is given, and it has the bytes that were decoded.
          rename_i hkey
          rw [← Except.ok.inj h, bytes_of_ofBytes? hkey]
        · exact absurd h nofun

/-- Texts that are the same in lower case spell the same public key, because they spell the
same bytes. -/
theorem ofHex_of_lower_eq {text other : String} {key : Public} (h : ofHex text = .ok key)
    (hlower : Hex.lower other = Hex.lower text) : ofHex other = .ok key := by
  have hother : Hex.decode other = Hex.decode text := by
    rw [decode_of_ofHex h, Hex.decode_eq_ok_iff, hlower, ← Hex.decode_eq_ok_iff,
      decode_of_ofHex h]
  rw [← h, ofHex, ofHex, hother]

end Public

namespace Address

/-! ### Base58Check -/

/-- A text is the Base58Check form of a body. -/
def Shows (text : String) (body : Bytes) : Prop :=
  Base58.Spells text (body ++ (Sha256.digest (Sha256.digest body)).take 4)

/-- A checksum has four bytes. It is cut from a digest of 32 bytes. -/
theorem length_checksum (body : Bytes) : (checksum body).length = 4 := by
  rw [checksum, List.length_take, Sha256.length_digest]
  rfl

/-- A body is written in its Base58Check form. The form is given by what is spelled, without
the writer. -/
theorem checked_eq_iff (body : Bytes) (text : String) : checked body = text ↔ Shows text body :=
  Base58.encode_eq_iff_spells _ _

/-- Different bodies of one length are written differently, since the text gives back the
body and the checksum. -/
theorem checked_injective {body other : Bytes} (hlength : body.length = other.length)
    (h : checked body = checked other) : body = other :=
  (List.append_inj (Base58.encode_injective h) hlength).1

/-- A text is valid exactly if it has 34 bytes and is what 21 bytes are written as. The check
cuts the last four bytes off and compares them with the checksum of the others. -/
theorem isValid_iff_checked (text : String) :
    isValid text = true ↔
      text.utf8ByteSize = 34 ∧ ∃ body : Bytes, body.length = 21 ∧ checked body = text := by
  rw [isValid, Bool.and_eq_true, beq_iff_eq]
  refine and_congr_right fun _ => ⟨fun h => ?_, ?_⟩
  · cases hread : Base58.decode? text with
    | none =>
        rw [hread] at h
        exact absurd h nofun
    | some bytes =>
        rw [hread, Bool.and_eq_true, beq_iff_eq, beq_iff_eq] at h
        -- The last four bytes are the checksum of those before them.
        refine ⟨bytes.take 21, by rw [List.length_take, h.1]; rfl, ?_⟩
        rw [checked, h.2, List.take_append_drop]
        exact (Base58.decode?_eq_some_iff _ _).1 hread
  · rintro ⟨body, hlength, rfl⟩
    rw [checked, Base58.decode?_encode, Bool.and_eq_true, beq_iff_eq, beq_iff_eq]
    refine ⟨?_, ?_⟩
    · rw [List.length_append, hlength, length_checksum]
    · rw [List.take_left' hlength, List.drop_left' hlength]

/-- A text is valid exactly if it has 34 bytes and is the Base58Check form of 21 bytes. It is
that of no other 21 bytes. The form is stated by the alphabet, the number and the count of
leading ones, apart from the program's decoder, so that the decoder is checked against it and
not against itself. -/
theorem isValid_iff (text : String) :
    (isValid text = true ↔
      text.utf8ByteSize = 34 ∧ ∃ body : Bytes, body.length = 21 ∧ Shows text body) ∧
    ∀ body other : Bytes, body.length = 21 → other.length = 21 → Shows text body →
      Shows text other → body = other := by
  refine ⟨?_, fun body other hbody hother hshows hshows' => ?_⟩
  · rw [isValid_iff_checked]
    simp only [checked_eq_iff]
  · refine checked_injective (hbody.trans hother.symm) ?_
    rw [(checked_eq_iff _ _).2 hshows, (checked_eq_iff _ _).2 hshows']

/-- The address of the generator of the curve is that of one body of 21 bytes. -/
theorem isValid_iff_generator : ∃ body : Bytes, body.length = 21 ∧
    Shows "TS8Bt28Ktem37NkWQ4q7s7CjJWxRKyePfz" body ∧
    ∀ other : Bytes, other.length = 21 → Shows "TS8Bt28Ktem37NkWQ4q7s7CjJWxRKyePfz" other →
      body = other := by
  obtain ⟨hvalid, hunique⟩ := isValid_iff "TS8Bt28Ktem37NkWQ4q7s7CjJWxRKyePfz"
  obtain ⟨-, body, hlength, hshows⟩ := hvalid.1 (by decide +kernel)
  exact ⟨body, hlength, hshows, fun other hother => hunique body other hlength hother hshows⟩

/-! ### Width -/

/-- Under these versions every digest of 20 bytes gives 34 characters. The first byte bounds
the number from both sides, whatever the digest and the checksum are. -/
theorem length_checked {first : UInt8} (hlow : 3 ≤ first.toNat) (hhigh : first.toNat ≤ 143)
    {hash : Bytes} (hhash : hash.length = 20) : (checked (first :: hash)).toList.length = 34 := by
  have hrest : (hash ++ checksum (first :: hash)).length = 24 := by
    rw [List.length_append, hhash, length_checksum]
  -- The number of the body is the first byte's multiple of 256^24 and less than that much more.
  have hlt := Bytes.toNat_lt (hash ++ checksum (first :: hash))
  have hnumber := Bytes.toNat_cons first (hash ++ checksum (first :: hash))
  rw [hrest] at hlt hnumber
  have hne : first ≠ 0 := by
    rintro rfl
    exact absurd hlow (by decide)
  refine Base58.length_encode_cons hne _ ?_ ?_
  · calc 58 ^ 33 ≤ 3 * 256 ^ 24 := by decide
      _ ≤ first.toNat * 256 ^ 24 := Nat.mul_le_mul_right _ hlow
      _ ≤ _ := hnumber ▸ Nat.le_add_right _ _
  · calc Bytes.toNat (first :: (hash ++ checksum (first :: hash)))
        = first.toNat * 256 ^ 24 + Bytes.toNat (hash ++ checksum (first :: hash)) := hnumber
      _ < first.toNat * 256 ^ 24 + 256 ^ 24 := Nat.add_lt_add_left hlt _
      _ = (first.toNat + 1) * 256 ^ 24 := (Nat.succ_mul _ _).symm
      _ ≤ 144 * 256 ^ 24 := Nat.mul_le_mul_right _ (Nat.succ_le_succ hhigh)
      _ ≤ 58 ^ 34 := by decide

/-! ### Addresses of public keys -/

/-- What every address of a public key is. -/
structure WellFormed (address : String) : Prop where
  length : address.toList.length = 34
  alphabet : ∀ c ∈ address.toList, c ∈ Base58.alphabet
  valid : isValid address = true

/-- The hash of a key has twenty bytes. So a body of an address has 21 bytes with its
version, whatever the key is. -/
theorem length_keyHash (key : Bytes) : (keyHash key).length = 20 := Ripemd160.length_digest _

/-- The address of a public key has the width, the digits and the checksum of an address. -/
theorem wellFormed_ofPublic (key : Public) : WellFormed (ofPublic key) := by
  have hlength : (ofPublic key).toList.length = 34 :=
    length_checked (by decide) (by decide) (length_keyHash key.bytes)
  refine ⟨hlength, fun c => Base58.mem_alphabet_of_mem_encode, (isValid_iff_checked _).2 ⟨?_, ?_⟩⟩
  · rw [ofPublic, checked, Base58.utf8ByteSize_encode]
    exact hlength
  · exact ⟨version :: keyHash key.bytes, by rw [List.length_cons, length_keyHash], rfl⟩

/-- Two public keys share their address exactly if they share their digest. The version is
the same for all, and the rest of the body is the digest. -/
theorem ofPublic_eq_iff (key other : Public) :
    ofPublic key = ofPublic other ↔ keyHash key.bytes = keyHash other.bytes := by
  constructor
  · intro h
    have hlength : (version :: keyHash key.bytes).length
        = (version :: keyHash other.bytes).length := by
      rw [List.length_cons, List.length_cons, length_keyHash, length_keyHash]
    exact (List.cons.inj (checked_injective hlength h)).2
  · intro h
    rw [ofPublic, ofPublic, h]

/-- A text has an address exactly if it spells a public key, and it is that key's address. -/
theorem ofHex_eq_ok_iff (text address : String) :
    ofHex text = .ok address ↔ ∃ key, Public.ofHex text = .ok key ∧ ofPublic key = address := by
  rw [ofHex]
  cases Public.ofHex text with
  | error e => exact ⟨nofun, nofun⟩
  | ok key =>
      refine ⟨fun h => ⟨key, rfl, Except.ok.inj h⟩, ?_⟩
      rintro ⟨_, hkey, rfl⟩
      rw [Except.ok.inj hkey]
      rfl

/-- An address that is derived from the text of a public key is 34 digits that are valid. Any two
texts that have addresses have the same one if and only if the bytes that they spell have the same
digest. So a text has the address of any other spelling of its bytes. -/
theorem ofHex_faithful {text address : String} (h : ofHex text = .ok address) :
    WellFormed address ∧
    (∃ bytes, Hex.decode text = .ok bytes ∧
      ∀ other address', ofHex other = .ok address' →
        ∃ bytes', Hex.decode other = .ok bytes' ∧
          (address = address' ↔ Ripemd160.digest (Sha256.digest bytes)
            = Ripemd160.digest (Sha256.digest bytes'))) ∧
    ∀ other, Hex.lower other = Hex.lower text → ofHex other = .ok address := by
  obtain ⟨key, hkey, rfl⟩ := (ofHex_eq_ok_iff _ _).1 h
  refine ⟨wellFormed_ofPublic key, ⟨key.bytes, Public.decode_of_ofHex hkey, ?_⟩, ?_⟩
  · intro other address' hother
    -- Another text that has an address is the text of a key too, so the two keys are compared.
    obtain ⟨key', hkey', rfl⟩ := (ofHex_eq_ok_iff _ _).1 hother
    exact ⟨key'.bytes, Public.decode_of_ofHex hkey', ofPublic_eq_iff key key'⟩
  · intro other hlower
    exact (ofHex_eq_ok_iff _ _).2 ⟨key, Public.ofHex_of_lower_eq hkey hlower, rfl⟩

/-- The text of the generator of the curve in capital digits. -/
def generatorCapitals : String :=
  "6B17D1F2E12C4247F8BCE6E563A440F277037D812DEB33A0F4A13945D898C296" ++
    "4FE342E2FE1A7F9B8EE7EB4A7C0F9E162BCE33576B315ECECBB6406837BF51F5"

/-- The generator has the same address in small digits as in capital ones. -/
theorem ofHex_faithful_generator :
    WellFormed "TS8Bt28Ktem37NkWQ4q7s7CjJWxRKyePfz" ∧
    ofHex (Hex.lower generatorCapitals) = .ok "TS8Bt28Ktem37NkWQ4q7s7CjJWxRKyePfz" := by
  have hcapitals : ofHex generatorCapitals = .ok "TS8Bt28Ktem37NkWQ4q7s7CjJWxRKyePfz" := by
    decide +kernel
  obtain ⟨hwellFormed, ⟨bytes, hbytes, -⟩, hspellings⟩ := ofHex_faithful hcapitals
  refine ⟨hwellFormed, hspellings _ ?_⟩
  rw [(Hex.decode_eq_ok_iff _ _).1 hbytes, Hex.lower_encode]

end Address
end Keyring
