/-!
# `Keyring.Bytes.Basic`: byte strings

A byte string is a list of bytes. This file holds the three views of one
that the library needs: as UTF-8 text (`ofText`, `toText?`), as a big-endian
number (`toNat`, `ofNat`), and as a mask laid over another (`xor`).

* `toText?_ofText`: the bytes of a text read back as that text.
* `ofText_of_toText?`: bytes that read as a text are the bytes of that text,
  so each text has one byte form.
* `length_ofNat`: a number written in `width` bytes takes `width` bytes.
-/

set_option autoImplicit false

namespace Keyring

/-- A byte string. -/
abbrev Bytes := List UInt8

namespace Bytes

/-! ### Text -/

/-- The UTF-8 form of a text. -/
def ofText (text : String) : Bytes := text.toByteArray.data.toList

/-- The text that the bytes encode in UTF-8, if they encode one. -/
def toText? (bytes : Bytes) : Option String := String.fromUTF8? ⟨bytes.toArray⟩

/-- The bytes of a text are valid, so they are read back, and as that text: reading and
writing use the same byte array. Nothing else of UTF-8 is needed where a text is encrypted
and decrypted again. -/
@[simp] theorem toText?_ofText (text : String) : toText? (ofText text) = some text := by
  have valid : text.toByteArray.IsValidUTF8 := text.isValidUTF8
  simp [toText?, ofText, String.fromUTF8?, valid, String.fromUTF8]

/-- Bytes that are read as a text are the bytes of that text. Reading checks that they are
valid and changes nothing, so there is only one way to write a text. -/
theorem ofText_of_toText? {bytes : Bytes} {text : String} (h : toText? bytes = some text) :
    ofText text = bytes := by
  unfold toText? String.fromUTF8? at h
  split at h
  · cases h
    simp [ofText, String.fromUTF8]
  · cases h

/-! ### Numbers -/

/-- The number whose big-endian digits in base 256 are the bytes. -/
def toNat (bytes : Bytes) : Nat := bytes.foldl (fun n b => n * 256 + b.toNat) 0

/-- The last `width` big-endian digits in base 256 of a number. -/
def ofNat : (width n : Nat) → Bytes
  | 0, _ => []
  | width + 1, n => ofNat width (n / 256) ++ [UInt8.ofNat n]

/-- A number is written in exactly the width that was asked for, whatever it is: each step of
the recursion appends one byte. Keys, digests and halves of signatures are written in this
way, so their texts have one width each. -/
@[simp] theorem length_ofNat (width n : Nat) : (ofNat width n).length = width := by
  induction width generalizing n with
  | zero => rfl
  | succ width ih => simp [ofNat, ih]

/-! ### Masks -/

/-- Byte by byte exclusive or, as long as the shorter operand. -/
def xor (left right : Bytes) : Bytes := List.zipWith (· ^^^ ·) left right

/-- Consecutive pieces of `size` bytes; the last one may be shorter. -/
def chunks (size : Nat) (bytes : Bytes) : List Bytes :=
  (List.range ((bytes.length + size - 1) / size)).map fun i => (bytes.drop (size * i)).take size

end Bytes
end Keyring
