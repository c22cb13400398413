import Keyring.Bytes.Basic

/-!
# `Keyring.Cipher.Aes`: the block cipher AES-256 (FIPS 197)

A block of sixteen bytes is a state of four columns. Fourteen rounds replace
each byte by a table, move the rows, mix each column and add a round key; the
last round mixes no columns. Each of the four steps is invertible, so the
cipher is a permutation of the blocks for every key.
-/

set_option autoImplicit false

namespace Keyring.Aes

/-- Four bytes: a column of the state, or a word of the key schedule. -/
structure Column where
  (b0 b1 b2 b3 : UInt8)
  deriving DecidableEq, Repr

/-- Sixteen bytes as four columns. -/
structure State where
  (c0 c1 c2 c3 : Column)
  deriving DecidableEq, Repr

/-! ### The steps -/

/-- The substitution of each byte value. -/
def table : Array UInt8 := #[
  0x63, 0x7c, 0x77, 0x7b, 0xf2, 0x6b, 0x6f, 0xc5, 0x30, 0x01, 0x67, 0x2b, 0xfe, 0xd7, 0xab, 0x76,
  0xca, 0x82, 0xc9, 0x7d, 0xfa, 0x59, 0x47, 0xf0, 0xad, 0xd4, 0xa2, 0xaf, 0x9c, 0xa4, 0x72, 0xc0,
  0xb7, 0xfd, 0x93, 0x26, 0x36, 0x3f, 0xf7, 0xcc, 0x34, 0xa5, 0xe5, 0xf1, 0x71, 0xd8, 0x31, 0x15,
  0x04, 0xc7, 0x23, 0xc3, 0x18, 0x96, 0x05, 0x9a, 0x07, 0x12, 0x80, 0xe2, 0xeb, 0x27, 0xb2, 0x75,
  0x09, 0x83, 0x2c, 0x1a, 0x1b, 0x6e, 0x5a, 0xa0, 0x52, 0x3b, 0xd6, 0xb3, 0x29, 0xe3, 0x2f, 0x84,
  0x53, 0xd1, 0x00, 0xed, 0x20, 0xfc, 0xb1, 0x5b, 0x6a, 0xcb, 0xbe, 0x39, 0x4a, 0x4c, 0x58, 0xcf,
  0xd0, 0xef, 0xaa, 0xfb, 0x43, 0x4d, 0x33, 0x85, 0x45, 0xf9, 0x02, 0x7f, 0x50, 0x3c, 0x9f, 0xa8,
  0x51, 0xa3, 0x40, 0x8f, 0x92, 0x9d, 0x38, 0xf5, 0xbc, 0xb6, 0xda, 0x21, 0x10, 0xff, 0xf3, 0xd2,
  0xcd, 0x0c, 0x13, 0xec, 0x5f, 0x97, 0x44, 0x17, 0xc4, 0xa7, 0x7e, 0x3d, 0x64, 0x5d, 0x19, 0x73,
  0x60, 0x81, 0x4f, 0xdc, 0x22, 0x2a, 0x90, 0x88, 0x46, 0xee, 0xb8, 0x14, 0xde, 0x5e, 0x0b, 0xdb,
  0xe0, 0x32, 0x3a, 0x0a, 0x49, 0x06, 0x24, 0x5c, 0xc2, 0xd3, 0xac, 0x62, 0x91, 0x95, 0xe4, 0x79,
  0xe7, 0xc8, 0x37, 0x6d, 0x8d, 0xd5, 0x4e, 0xa9, 0x6c, 0x56, 0xf4, 0xea, 0x65, 0x7a, 0xae, 0x08,
  0xba, 0x78, 0x25, 0x2e, 0x1c, 0xa6, 0xb4, 0xc6, 0xe8, 0xdd, 0x74, 0x1f, 0x4b, 0xbd, 0x8b, 0x8a,
  0x70, 0x3e, 0xb5, 0x66, 0x48, 0x03, 0xf6, 0x0e, 0x61, 0x35, 0x57, 0xb9, 0x86, 0xc1, 0x1d, 0x9e,
  0xe1, 0xf8, 0x98, 0x11, 0x69, 0xd9, 0x8e, 0x94, 0x9b, 0x1e, 0x87, 0xe9, 0xce, 0x55, 0x28, 0xdf,
  0x8c, 0xa1, 0x89, 0x0d, 0xbf, 0xe6, 0x42, 0x68, 0x41, 0x99, 0x2d, 0x0f, 0xb0, 0x54, 0xbb, 0x16]

/-- The substitution of a byte. -/
def sub (b : UInt8) : UInt8 := table.getD b.toNat 0

/-- Applies a function to each byte. -/
def Column.map (f : UInt8 → UInt8) (c : Column) : Column := ⟨f c.b0, f c.b1, f c.b2, f c.b3⟩

/-- Byte by byte exclusive or. -/
def Column.xor (c d : Column) : Column :=
  ⟨c.b0 ^^^ d.b0, c.b1 ^^^ d.b1, c.b2 ^^^ d.b2, c.b3 ^^^ d.b3⟩

/-- Replaces each byte by the table. -/
def State.subBytes (s : State) : State :=
  ⟨s.c0.map sub, s.c1.map sub, s.c2.map sub, s.c3.map sub⟩

/-- Moves row `r` of the state by `r` columns to the left. -/
def State.shiftRows (s : State) : State :=
  ⟨⟨s.c0.b0, s.c1.b1, s.c2.b2, s.c3.b3⟩, ⟨s.c1.b0, s.c2.b1, s.c3.b2, s.c0.b3⟩,
   ⟨s.c2.b0, s.c3.b1, s.c0.b2, s.c1.b3⟩, ⟨s.c3.b0, s.c0.b1, s.c1.b2, s.c2.b3⟩⟩

/-- Twice a byte in the field of 256 elements. -/
def double (b : UInt8) : UInt8 := (b <<< 1) ^^^ (if b &&& 0x80 = 0 then 0 else 0x1b)

/-- The product of a column with the circulant of 2, 3, 1, 1. -/
def Column.mix (c : Column) : Column :=
  let all := c.b0 ^^^ c.b1 ^^^ c.b2 ^^^ c.b3
  ⟨c.b0 ^^^ all ^^^ double (c.b0 ^^^ c.b1), c.b1 ^^^ all ^^^ double (c.b1 ^^^ c.b2),
   c.b2 ^^^ all ^^^ double (c.b2 ^^^ c.b3), c.b3 ^^^ all ^^^ double (c.b3 ^^^ c.b0)⟩

/-- Mixes each column. -/
def State.mixColumns (s : State) : State := ⟨s.c0.mix, s.c1.mix, s.c2.mix, s.c3.mix⟩

/-- Adds a round key. -/
def State.addKey (s key : State) : State :=
  ⟨s.c0.xor key.c0, s.c1.xor key.c1, s.c2.xor key.c2, s.c3.xor key.c3⟩

/-! ### The key schedule -/

/-- The columns of a byte string. -/
def columns : Bytes → List Column
  | b0 :: b1 :: b2 :: b3 :: rest => ⟨b0, b1, b2, b3⟩ :: columns rest
  | _ => []

/-- The next eight columns of the schedule after eight columns `w`; `power` is the
round's power of two. -/
def nextEight (power : UInt8) (w : List Column) : List Column :=
  let at' (i : Nat) : Column := w.getD i ⟨0, 0, 0, 0⟩
  let last := at' 7
  let turned : Column := ⟨sub last.b1, sub last.b2, sub last.b3, sub last.b0⟩
  let w0 := (at' 0).xor (Column.xor ⟨power, 0, 0, 0⟩ turned)
  let w1 := (at' 1).xor w0
  let w2 := (at' 2).xor w1
  let w3 := (at' 3).xor w2
  let w4 := (at' 4).xor (w3.map sub)
  let w5 := (at' 5).xor w4
  let w6 := (at' 6).xor w5
  let w7 := (at' 7).xor w6
  [w0, w1, w2, w3, w4, w5, w6, w7]

/-- Eight columns and those that follow them, eight for each power. -/
def expand : (powers : List UInt8) → List Column → List Column
  | [], w => w
  | power :: powers, w => w ++ expand powers (nextEight power w)

/-- Four columns to a round key. -/
def roundKeys : List Column → List State
  | c0 :: c1 :: c2 :: c3 :: rest => ⟨c0, c1, c2, c3⟩ :: roundKeys rest
  | _ => []

/-- The fifteen round keys of a key of 32 bytes. -/
def schedule (key : Bytes) : List State :=
  (roundKeys (expand [1, 2, 4, 8, 16, 32, 64] (columns key))).take 15

/-! ### The cipher -/

/-- The rounds after the first key was added. -/
def rounds : List State → State → State
  | [], s => s
  | [key], s => s.subBytes.shiftRows.addKey key
  | key :: keys, s => rounds keys (s.subBytes.shiftRows.mixColumns.addKey key)

/-- Encrypts a state under its round keys. -/
def encryptState : List State → State → State
  | [], s => s
  | key :: keys, s => rounds keys (s.addKey key)

/-- The state of sixteen bytes. -/
def State.ofBytes (block : Bytes) : State :=
  match columns block with
  | [c0, c1, c2, c3] => ⟨c0, c1, c2, c3⟩
  | _ => ⟨⟨0, 0, 0, 0⟩, ⟨0, 0, 0, 0⟩, ⟨0, 0, 0, 0⟩, ⟨0, 0, 0, 0⟩⟩

/-- The bytes of a column in order. -/
def Column.bytes (c : Column) : Bytes := [c.b0, c.b1, c.b2, c.b3]

/-- The bytes of a state in order. -/
def State.bytes (s : State) : Bytes := [s.c0, s.c1, s.c2, s.c3].flatMap Column.bytes

/-- Encrypts a block of sixteen bytes under a key of 32 bytes. -/
def encrypt (key block : Bytes) : Bytes :=
  (encryptState (schedule key) (State.ofBytes block)).bytes

/-- The cipher gives sixteen bytes whatever it is given. A state has four columns of four
bytes by its type, so there is nothing to check. -/
@[simp] theorem length_encrypt (key block : Bytes) : (encrypt key block).length = 16 := rfl

end Keyring.Aes
