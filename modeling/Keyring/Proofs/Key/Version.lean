import Keyring.Proofs.Key.Address

/-!
# `Keyring.Proofs.Key.Version`: version bytes and the width of addresses

The body of an address is a version byte and a digest of 20 bytes. With its
checksum it is a number of 25 bytes that begins with the version, and the
number alone decides how many characters are written. 58³³ lies between 2 and 3
times 256²⁴, and 58³⁴ between 144 and 145 times 256²⁴. The theorems:

* `lt_length_checked_iff`: how many characters a body has that does not begin
  with a zero.
* `length_checked_of_large`: from version 145 on all addresses have 35
  characters.
* `version_keeps_width_iff`: the versions from 3 to 143 are those under which
  every digest gives a valid address.
* `checked_overlong`: an address under version 146.
-/

set_option autoImplicit false

namespace Keyring.Address

/-! ### Bounds -/

/-- A body that does not begin with a zero has more than `count` characters exactly if its
number, with the checksum, has more than `count` digits. The characters are the digits in
base 58, one for each, and no leading ones are added. -/
theorem lt_length_checked_iff {first : UInt8} (hfirst : first ≠ 0) (rest : Bytes) (count : Nat) :
    count < (checked (first :: rest)).toList.length ↔
      58 ^ count ≤ Bytes.toNat (first :: (rest ++ checksum (first :: rest))) := by
  have hzeros : (first :: (rest ++ checksum (first :: rest))).takeWhile (· == 0) = [] :=
    List.takeWhile_cons_of_neg (by simpa using hfirst)
  have hspells := Base58.spells_encode (first :: (rest ++ checksum (first :: rest)))
  -- No leading zeros, so the characters are the digits of the number.
  rw [Base58.Spells, hzeros] at hspells
  show count < (Base58.encode (first :: (rest ++ checksum (first :: rest)))).toList.length ↔ _
  rw [hspells, ← Nat.lt_digits_length_iff (by decide : 1 < 58)]
  simp

/-- The number of a body with its checksum: the version comes before 24 bytes, so it counts
for 256 ^ 24. -/
theorem toNat_checked (version : UInt8) {hash : Bytes} (hhash : hash.length = 20) :
    Bytes.toNat (version :: (hash ++ checksum (version :: hash)))
      = version.toNat * 256 ^ 24 + Bytes.toNat (hash ++ checksum (version :: hash)) := by
  have hlength : (hash ++ checksum (version :: hash)).length = 24 := by
    rw [List.length_append, hhash, length_checksum]
  rw [Bytes.toNat_cons, hlength]

/-- No body of 21 bytes has more than 35 characters, unless it begins with a zero: 25 bytes
are a number below 58 ^ 35. -/
theorem length_checked_le {version : UInt8} (hversion : version ≠ 0) {hash : Bytes}
    (hhash : hash.length = 20) : (checked (version :: hash)).toList.length ≤ 35 := by
  have hlt := Bytes.toNat_lt (version :: (hash ++ checksum (version :: hash)))
  have hlength : (version :: (hash ++ checksum (version :: hash))).length = 25 := by
    simp [hhash, length_checksum]
  rw [hlength] at hlt
  refine Nat.not_lt.1 fun hlong => ?_
  have hlow := (lt_length_checked_iff hversion hash 35).1 hlong
  exact absurd (Nat.lt_of_le_of_lt hlow hlt) (by decide)

/-- A body whose number takes 35 digits has 35 characters. No body of 25 bytes takes more,
and one that is not below 58^34 takes no less. -/
theorem length_checked_of_le {version : UInt8} (hversion : version ≠ 0) {hash : Bytes}
    (hhash : hash.length = 20)
    (hlow : 58 ^ 34 ≤ Bytes.toNat (version :: (hash ++ checksum (version :: hash)))) :
    (checked (version :: hash)).toList.length = 35 :=
  Nat.le_antisymm (length_checked_le hversion hhash)
    ((lt_length_checked_iff hversion hash 34).2 hlow)

/-- Under version 145 and those above it every digest gives 35 characters, because 145 · 256
^ 24 already is above 58 ^ 34. No digest and no checksum can make up for it, because they
only add to the number. -/
theorem length_checked_of_large {version : UInt8} (hversion : 145 ≤ version.toNat) {hash : Bytes}
    (hhash : hash.length = 20) : (checked (version :: hash)).toList.length = 35 := by
  have hne : version ≠ 0 := by
    rintro rfl
    exact absurd hversion (by decide)
  refine length_checked_of_le hne hhash ?_
  calc 58 ^ 34 ≤ 145 * 256 ^ 24 := by decide
    _ ≤ version.toNat * 256 ^ 24 := Nat.mul_le_mul_right _ hversion
    _ ≤ _ := toNat_checked version hhash ▸ Nat.le_add_right _ _

/-- Under version 144 the largest digest gives 35 characters. The first byte of the digest
alone takes the number past 58 ^ 34, so the checksum does not matter. -/
theorem length_checked_largest :
    (checked (144 :: List.replicate 20 255)).toList.length = 35 := by
  refine length_checked_of_le (by decide) (List.length_replicate ..) ?_
  -- The first byte of the digest alone takes the number past the power.
  have hsplit : (List.replicate 20 255 ++ checksum (144 :: List.replicate 20 255) : Bytes)
      = 255 :: (List.replicate 19 255 ++ checksum (144 :: List.replicate 20 255)) := rfl
  have hlength : (List.replicate 19 255 ++ checksum (144 :: List.replicate 20 255)).length
      = 23 := by
    rw [List.length_append, List.length_replicate, length_checksum]
  rw [toNat_checked _ (List.length_replicate ..), hsplit, Bytes.toNat_cons, hlength]
  calc 58 ^ 34 ≤ 144 * 256 ^ 24 + 255 * 256 ^ 23 := by decide
    _ ≤ _ := Nat.add_le_add_left (Nat.le_add_right _ _) _

/-- Under the versions 0, 1 and 2 the least digest gives fewer than 34 characters, by
computation. -/
theorem length_checked_least : ∀ version ∈ ([0, 1, 2] : Bytes),
    (checked (version :: List.replicate 20 0)).toList.length < 34 := by
  decide +kernel

/-! ### Widths and versions -/

/-- A version and a digest make a valid address exactly if it has 34 characters: the checksum
is right anyway. -/
theorem isValid_checked_iff (version : UInt8) {hash : Bytes} (hhash : hash.length = 20) :
    isValid (checked (version :: hash)) = true ↔
      (checked (version :: hash)).toList.length = 34 := by
  rw [isValid_iff_checked, checked, Base58.utf8ByteSize_encode]
  exact ⟨And.left, fun hlength => ⟨hlength, version :: hash, by simp [hhash], rfl⟩⟩

/-- All digests of 20 bytes give valid addresses of 34 characters under this version. -/
def KeepsWidth (version : UInt8) : Prop :=
  ∀ hash : Bytes, hash.length = 20 →
    (checked (version :: hash)).toList.length = 34 ∧ isValid (checked (version :: hash)) = true

variable {version : UInt8}

/-- The versions from 3 to 143 keep the width, whatever the digest is. -/
theorem keepsWidth_of_between (hlow : 3 ≤ version.toNat) (hhigh : version.toNat ≤ 143) :
    KeepsWidth version := by
  intro hash hhash
  have hlength := length_checked hlow hhigh hhash
  exact ⟨hlength, (isValid_checked_iff version hhash).2 hlength⟩

/-- A version that keeps the width is 3 or above, since the least digest is written in too
few characters under the others. -/
theorem KeepsWidth.low (h : KeepsWidth version) : 3 ≤ version.toNat := by
  refine Nat.not_lt.1 fun hsmall => ?_
  have hmem : version ∈ ([0, 1, 2] : Bytes) := by
    simp only [List.mem_cons, List.not_mem_nil, or_false, ← UInt8.toNat_inj]
    show version.toNat = 0 ∨ version.toNat = 1 ∨ version.toNat = 2
    omega
  -- The least digest is one that is written in too few characters.
  have hshort := length_checked_least version hmem
  rw [(h (List.replicate 20 0) (List.length_replicate ..)).1] at hshort
  exact absurd hshort (Nat.lt_irrefl 34)

/-- A version that keeps the width is 143 or below, since the largest digest is written in
too many characters under the others. -/
theorem KeepsWidth.high (h : KeepsWidth version) : version.toNat ≤ 143 := by
  refine Nat.not_lt.1 fun hlarge => ?_
  -- The largest digest is one that is written in too many characters.
  have hlong : (checked (version :: List.replicate 20 255)).toList.length = 35 := by
    rcases Nat.lt_or_ge version.toNat 145 with hlt | hge
    · obtain rfl : version = 144 := UInt8.toNat_inj.1 (show version.toNat = 144 by omega)
      exact length_checked_largest
    · exact length_checked_of_large hge (List.length_replicate ..)
  rw [(h (List.replicate 20 255) (List.length_replicate ..)).1] at hlong
  exact absurd hlong (by decide)

/-- The versions of addresses that all have the same width are those from 3 to 143. Under 145 and
the versions above it no digest gives a valid address: each has one character too many. -/
theorem version_keeps_width_iff (version : UInt8) :
    (KeepsWidth version ↔ 3 ≤ version.toNat ∧ version.toNat ≤ 143) ∧
    (145 ≤ version.toNat → ∀ hash : Bytes, hash.length = 20 →
      (checked (version :: hash)).toList.length = 35 ∧
        isValid (checked (version :: hash)) = false) := by
  refine ⟨⟨fun h => ⟨h.low, h.high⟩, fun h => keepsWidth_of_between h.1 h.2⟩, ?_⟩
  intro hlarge hash hhash
  have hlength := length_checked_of_large hlarge hhash
  refine ⟨hlength, Bool.eq_false_iff.2 fun hvalid => ?_⟩
  rw [(isValid_checked_iff version hhash).1 hvalid] at hlength
  exact absurd hlength (by decide)

/-- The version of the ledger keeps the width and so does 143. Under 145 the address of a
public key is not valid. -/
theorem version_keeps_width_ledger :
    KeepsWidth Address.version ∧ KeepsWidth 143 ∧
      isValid (checked (145 :: keyHash [])) = false :=
  ⟨(version_keeps_width_iff Address.version).1.2 (by decide),
    (version_keeps_width_iff 143).1.2 (by decide),
    ((version_keeps_width_iff 145).2 (by decide) (keyHash []) (length_keyHash [])).2⟩

/-- Version 146 does not keep the width: this address is one character too long to be valid. -/
theorem checked_overlong :
    3 ≤ (146 : UInt8).toNat ∧ (146 : UInt8).toNat ≤ 146 ∧
    (List.replicate 20 0 : Bytes).length = 20 ∧
    checked (146 :: List.replicate 20 0) = "21kM4krX4fLevQHMeaFdXoJjrteciobSpTE" ∧
    (checked (146 :: List.replicate 20 0)).toList.length = 35 ∧
    isValid (checked (146 :: List.replicate 20 0)) = false := by
  decide +kernel

end Keyring.Address
