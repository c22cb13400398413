import Keyring.Key.Signing
import Keyring.Proofs.Curve.Ecdsa
import Keyring.Proofs.Key.Pair
import Keyring.Proofs.Payload

/-!
# `Keyring.Proofs.Key.Signing`: signatures of payloads are verified

Signing starts from the private scalar, and verification from the text of the
public key; both read the digest of the canonical text. The theorems:

* `verify_of_signPayload`: what was signed is verified under the public key.
* `wellFormed_of_signText`: signatures are written in 128 digits of lower case.
* `sign_spec`: a key signs every payload that has a canonical text, and signs
  its digest alike, as long as the secret number suits.
-/

set_option autoImplicit false

namespace Keyring.Signing

/-- A signature is 128 digits of lower case that spell two halves in 1 … n − 1. -/
structure WellFormed (signature : String) : Prop where
  length : signature.toList.length = 128
  digits : ∀ c ∈ signature.toList, c ∈ "0123456789abcdef".toList
  halves : ∃ sig : Ecdsa.Signature, sig.Reduced ∧ Hex.decode? signature = some sig.bytes

/-- The number of a digest that was computed is its own: with 32 bytes there is nothing to
fill up or to cut. -/
theorem digestNumber?_digest (message : Bytes) :
    Ecdsa.digestNumber? (Sha256.digest message) = some (Sha256.digest message).toNat := by
  have hlength : (Sha256.digest message).length = 32 := Sha256.length_digest message
  have htake : (Sha256.digest message).take 32 = Sha256.digest message :=
    List.take_of_length_le (Nat.le_of_eq hlength)
  rw [Ecdsa.digestNumber?, hlength, if_neg (by decide), htake]

variable {secret : Secret} {text signature : String} {payload : Payload}

/-- A text that was signed has a signature in numbers, of the number of its digest. -/
theorem exists_sign?_of_signText (h : signText secret text = .ok signature) :
    ∃ sig, Ecdsa.sign? secret.scalar (Sha256.digest (Bytes.ofText text)).toNat = some sig ∧
      signature = Hex.encode sig.bytes := by
  rw [signText, signDigest, digestNumber?_digest, Option.bind_some] at h
  split at h
  · rename_i sig hsign
    exact ⟨sig, hsign, (Except.ok.inj h).symm⟩
  · exact absurd h nofun

/-- A signature in numbers is verified under the point of the public key, because that is the
multiple of the generator by the private key. -/
theorem sign?_spec_ofSecret {digest : Nat} {sig : Ecdsa.Signature}
    (h : Ecdsa.sign? secret.scalar digest = some sig) :
    sig.Reduced ∧
      Ecdsa.verify (Public.ofSecret secret).x (Public.ofSecret secret).y digest sig = true := by
  obtain ⟨x, y, _, -, -, -, hmul⟩ := Curve.baseMul_spec secret.inRange
  have hpublic : P256.baseMul secret.scalar
      = .affine (Public.ofSecret secret).x (Public.ofSecret secret).y := by
    rw [Public.ofSecret, hmul]
  exact Ecdsa.sign?_spec secret.inRange h hpublic

/-- Signatures are written in 128 digits of lower case, which spell two numbers in range. A
reader of signatures accepts only numbers in range, so this is the writer's half of that
contract. -/
theorem wellFormed_of_signText (h : signText secret text = .ok signature) :
    WellFormed signature := by
  obtain ⟨sig, hsign, rfl⟩ := exists_sign?_of_signText h
  refine ⟨?_, fun c => Hex.mem_digits_of_mem_encode, sig, (sign?_spec_ofSecret hsign).1,
    Hex.decode?_encode _⟩
  rw [Hex.length_encode, sig.length_bytes]

/-- A text that was signed is verified under the public key. The digits of the key and of the
signature are read back as what was written. -/
theorem verifyText_of_signText (h : signText secret text = .ok signature) :
    verifyText (KeyPair.ofSecret secret).publicHex text signature = true := by
  obtain ⟨sig, hsign, rfl⟩ := exists_sign?_of_signText h
  obtain ⟨hreduced, hverify⟩ := sign?_spec_ofSecret hsign
  have hkey : Public.ofHex (KeyPair.ofSecret secret).publicHex = .ok (Public.ofSecret secret) :=
    Public.ofHex_hex (Public.onCurve_ofSecret secret)
  rw [verifyText, hkey, Hex.decode?_encode, Option.bind_some,
    Ecdsa.Signature.ofBytes?_bytes hreduced]
  exact hverify

/-- A payload that was signed has a canonical text, and that was signed. -/
theorem signPayload_eq_ok_iff : signPayload secret payload = .ok signature ↔
    ∃ text, payload.canonical = .ok text ∧ signText secret text = .ok signature := by
  rw [signPayload]
  cases payload.canonical with
  | error e => exact ⟨nofun, fun ⟨_, h, _⟩ => absurd h nofun⟩
  | ok text => exact ⟨fun h => ⟨text, rfl, h⟩, fun ⟨_, h, hsign⟩ => Except.ok.inj h ▸ hsign⟩

/-- A payload that was signed is verified under the public key, and so is every payload of
the same canonical text. A payload may come back from the wire as a plain value, and its
signature must still be good. -/
theorem verify_of_signPayload {other : Payload} (hcanonical : other.canonical = payload.canonical)
    (h : signPayload secret payload = .ok signature) :
    verify (KeyPair.ofSecret secret).publicHex other signature = true := by
  obtain ⟨text, htext, hsign⟩ := signPayload_eq_ok_iff.1 h
  rw [verify, hcanonical, htext]
  exact verifyText_of_signText hsign

/-- A private key signs a text, if the secret number suits. The number is derived from the
key and the digest, so this is a condition on these two. -/
theorem exists_signText_of_suits
    (hnonce : Nonce.Suits secret.scalar (Sha256.digest (Bytes.ofText text)).toNat) :
    ∃ signature, signText secret text = .ok signature := by
  obtain ⟨sig, hsig⟩ := Ecdsa.exists_sign?_of_suits hnonce
  refine ⟨Hex.encode sig.bytes, ?_⟩
  rw [signText, signDigest, digestNumber?_digest, Option.bind_some, hsig]

/-- A private key signs every payload that has a canonical text, if the secret number suits. The
signature is well formed and verified under the public key, and it is the signature of the digest
of the text as well. -/
theorem sign_spec {key : String} (hkey : Secret.ofHex key = .ok secret)
    (htext : payload.canonical = .ok text)
    (hnonce : Nonce.Suits secret.scalar (Sha256.digest (Bytes.ofText text)).toNat) :
    ∃ signature, sign key payload = .ok signature ∧ WellFormed signature ∧
      verify (KeyPair.ofSecret secret).publicHex payload signature = true ∧
      signData key (Hex.encode (Sha256.digest (Bytes.ofText text))) = .ok signature := by
  obtain ⟨signature, hsign⟩ := exists_signText_of_suits hnonce
  have hpayload := signPayload_eq_ok_iff.2 ⟨text, htext, hsign⟩
  refine ⟨signature, ?_, wellFormed_of_signText hsign, verify_of_signPayload rfl hpayload, ?_⟩
  · rw [sign, hkey]
    exact hpayload
  · rw [signData, hkey]
    -- Given the digest as data, its hex is decoded and signed as it is.
    simp only
    rw [Hex.decode_encode]
    exact hsign

end Keyring.Signing
