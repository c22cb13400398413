import Keyring.Bytes.Basic

/-!
# `Keyring.Cipher.Gcm`: authenticated encryption in Galois/counter mode

GCM (NIST SP 800-38D) over any cipher of 16-byte blocks, for an
initialisation vector of twelve bytes, no associated data and a tag of
sixteen bytes. The text is masked with the encrypted counter blocks that
follow the vector; the tag hashes the masked text in the field of 2^128
elements.

* `length_mask`: masking keeps the length.
* `mask_mask`: masking twice gives the text back.
* `decrypt?_encrypt`: what was encrypted decrypts to itself under the same cipher and vector.
-/

set_option autoImplicit false

namespace Keyring.Gcm

/-- A function on blocks of sixteen bytes: a cipher under one key. -/
abbrev Cipher := Bytes → Bytes

/-- Length of an initialisation vector. -/
def ivLength : Nat := 12

/-- Length of a tag. -/
def tagLength : Nat := 16

/-! ### The counter mode -/

/-- The counter block with number `n` after the vector. -/
def counterBlock (iv : Bytes) (n : Nat) : Bytes := iv ++ Bytes.ofNat 4 n

/-- The encryptions of `count` counter blocks from number `n` on. -/
def keystream (cipher : Cipher) (iv : Bytes) : (n count : Nat) → Bytes
  | _, 0 => []
  | n, count + 1 => cipher (counterBlock iv n) ++ keystream cipher iv (n + 1) count

/-- Masks a text; number 1 is kept for the tag, so the text starts at number 2. -/
def mask (cipher : Cipher) (iv text : Bytes) : Bytes :=
  text.xor (keystream cipher iv 2 ((text.length + 15) / 16))

/-! ### The hash -/

/-- An element of the field of 2^128 elements; the first bit is the coefficient of one. -/
abbrev Element := BitVec 128

/-- The element that sixteen or fewer bytes stand for, filled up with zeros. -/
def element (block : Bytes) : Element :=
  BitVec.ofNat 128 (Bytes.toNat (block ++ List.replicate (16 - block.length) 0))

/-- What `x^128` reduces to. -/
def reduction : Element := 0xe1000000000000000000000000000000#128

/-- Multiplication by `x`. -/
def timesX (v : Element) : Element :=
  if v.getLsbD 0 then (v >>> 1) ^^^ reduction else v >>> 1

/-- The sum of the terms of `u` from coefficient `128 - count` on, each times `v`
shifted on. -/
def mulFrom (u : Element) : (count : Nat) → Element → Element → Element
  | 0, _, sum => sum
  | count + 1, v, sum =>
    mulFrom u count (timesX v) (if u.getLsbD count then sum ^^^ v else sum)

/-- The product of two elements. -/
def mul (u v : Element) : Element := mulFrom u 128 v 0

/-- The blocks that are hashed: the text, and its length in bits. -/
def hashBlocks (text : Bytes) : List Element :=
  (text.chunks 16).map element ++ [BitVec.ofNat 128 (8 * text.length)]

/-- The hash of a text under the key `h`. -/
def hash (h : Element) (text : Bytes) : Element :=
  (hashBlocks text).foldl (fun y x => mul (y ^^^ x) h) 0

/-- The hash key of a cipher: its encryption of the zero block. -/
def hashKey (cipher : Cipher) : Element := element (cipher (List.replicate 16 0))

/-- The tag of a masked text. -/
def tag (cipher : Cipher) (iv masked : Bytes) : Bytes :=
  (Bytes.ofNat 16 (hash (hashKey cipher) masked).toNat).xor (cipher (counterBlock iv 1))

/-! ### Encryption -/

/-- A masked text with its tag. -/
structure Sealed where
  masked : Bytes
  tag : Bytes
  deriving DecidableEq, Repr

/-- Masks and tags a text. -/
def encrypt (cipher : Cipher) (iv text : Bytes) : Sealed :=
  let masked := mask cipher iv text
  ⟨masked, tag cipher iv masked⟩

/-- The text of a sealed one; a wrong tag, or a vector of another length, gives nothing. -/
def decrypt? (cipher : Cipher) (iv : Bytes) (blob : Sealed) : Option Bytes :=
  if iv.length = ivLength ∧ blob.tag = tag cipher iv blob.masked then
    some (mask cipher iv blob.masked)
  else none

/-! ### Laws -/

/-- The keystream of `count` blocks has sixteen bytes for each of them, because each block is
one output of the cipher. -/
theorem length_keystream {cipher : Cipher} (whole : ∀ b, (cipher b).length = 16) (iv : Bytes)
    (n count : Nat) : (keystream cipher iv n count).length = 16 * count := by
  induction count generalizing n with
  | zero => rfl
  | succ count ih => simp only [keystream, List.length_append, whole, ih]; omega

/-- A masked text is as long as the text. The keystream is made of whole blocks, enough to
cover the text, and what goes beyond it is cut off by the pairing. -/
theorem length_mask {cipher : Cipher} (whole : ∀ b, (cipher b).length = 16) (iv text : Bytes) :
    (mask cipher iv text).length = text.length := by
  simp only [mask, Bytes.xor, List.length_zipWith, length_keystream whole]
  omega

/-- A mask at least as long as the text cancels itself. A shorter mask would cut the text
off, which is why the length is assumed. -/
theorem xor_xor (text pad : Bytes) (long : text.length ≤ pad.length) :
    Bytes.xor (Bytes.xor text pad) pad = text := by
  induction text generalizing pad with
  | nil => rfl
  | cons b text ih =>
    cases pad with
    | nil => simp at long
    | cons p pad =>
      have h := ih pad (by simpa using long)
      have head : b ^^^ p ^^^ p = b := by
        rw [UInt8.xor_assoc, UInt8.xor_self, UInt8.xor_zero]
      exact List.cons_eq_cons.mpr ⟨head, h⟩

/-- To mask a text a second time is to unmask it: the masked text has the same length, so the
same keystream is taken, and it cancels itself. This is why one function serves both
directions. -/
theorem mask_mask {cipher : Cipher} (whole : ∀ b, (cipher b).length = 16) (iv text : Bytes) :
    mask cipher iv (mask cipher iv text) = text := by
  have same := length_mask whole iv text
  rw [mask, same, mask]
  exact xor_xor _ _ (by rw [length_keystream whole]; omega)

/-- What was encrypted is decrypted again, under any cipher of blocks of sixteen bytes: the
tag is computed from the masked text on both sides, and the mask cancels. The length of the
vector is a condition because the program refuses others when it decrypts and does not look
when it encrypts. -/
theorem decrypt?_encrypt {cipher : Cipher} (whole : ∀ b, (cipher b).length = 16) {iv : Bytes}
    (twelve : iv.length = ivLength) (text : Bytes) :
    decrypt? cipher iv (encrypt cipher iv text) = some text := by
  simp [decrypt?, encrypt, twelve, mask_mask whole]

end Keyring.Gcm
