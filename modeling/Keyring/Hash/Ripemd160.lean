import Keyring.Bytes.Basic

/-!
# `Keyring.Hash.Ripemd160`: the digest RIPEMD-160

Two lines of 80 steps run over each block of 64 bytes, each with its own word
order, shifts and constants, and their results are added crosswise.

* `length_digest`: a digest has 20 bytes.
-/

set_option autoImplicit false

namespace Keyring.Ripemd160

/-- A 32-bit word. -/
abbrev Word := UInt32

/-- Rotation to the left. -/
def rotl (w : Word) (n : UInt32) : Word := (w <<< n) ||| (w >>> (32 - n))

/-- The five words that blocks are folded into. -/
structure State where
  (a b c d e : Word)
  deriving DecidableEq, Repr

/-- The state before the first block. -/
def State.initial : State := ⟨0x67452301, 0xefcdab89, 0x98badcfe, 0x10325476, 0xc3d2e1f0⟩

/-- What one line does: for each step the word it reads, its shift, and for each
sixteen steps the constant and which of the five functions applies. -/
structure Line where
  order : List Nat
  shifts : List UInt32
  constants : List Word
  functions : List Nat

/-- The left line. -/
def Line.left : Line where
  order := [
    0, 1, 2, 3, 4, 5, 6, 7, 8, 9, 10, 11, 12, 13, 14, 15,
    7, 4, 13, 1, 10, 6, 15, 3, 12, 0, 9, 5, 2, 14, 11, 8,
    3, 10, 14, 4, 9, 15, 8, 1, 2, 7, 0, 6, 13, 11, 5, 12,
    1, 9, 11, 10, 0, 8, 12, 4, 13, 3, 7, 15, 14, 5, 6, 2,
    4, 0, 5, 9, 7, 12, 2, 10, 14, 1, 3, 8, 11, 6, 15, 13]
  shifts := [
    11, 14, 15, 12, 5, 8, 7, 9, 11, 13, 14, 15, 6, 7, 9, 8,
    7, 6, 8, 13, 11, 9, 7, 15, 7, 12, 15, 9, 11, 7, 13, 12,
    11, 13, 6, 7, 14, 9, 13, 15, 14, 8, 13, 6, 5, 12, 7, 5,
    11, 12, 14, 15, 14, 15, 9, 8, 9, 14, 5, 6, 8, 6, 5, 12,
    9, 15, 5, 11, 6, 8, 13, 12, 5, 12, 13, 14, 11, 8, 5, 6]
  constants := [0x00000000, 0x5a827999, 0x6ed9eba1, 0x8f1bbcdc, 0xa953fd4e]
  functions := [0, 1, 2, 3, 4]

/-- The right line. -/
def Line.right : Line where
  order := [
    5, 14, 7, 0, 9, 2, 11, 4, 13, 6, 15, 8, 1, 10, 3, 12,
    6, 11, 3, 7, 0, 13, 5, 10, 14, 15, 8, 12, 4, 9, 1, 2,
    15, 5, 1, 3, 7, 14, 6, 9, 11, 8, 12, 2, 10, 0, 4, 13,
    8, 6, 4, 1, 3, 11, 15, 0, 5, 12, 2, 13, 9, 7, 10, 14,
    12, 15, 10, 4, 1, 5, 8, 7, 6, 2, 13, 14, 0, 3, 9, 11]
  shifts := [
    8, 9, 9, 11, 13, 15, 15, 5, 7, 7, 8, 11, 14, 14, 12, 6,
    9, 13, 15, 7, 12, 8, 9, 11, 7, 7, 12, 7, 6, 15, 13, 11,
    9, 7, 15, 11, 8, 6, 6, 14, 12, 13, 5, 14, 13, 13, 7, 5,
    15, 5, 8, 11, 14, 14, 6, 14, 6, 9, 12, 9, 12, 5, 15, 8,
    8, 5, 12, 9, 12, 5, 14, 6, 8, 13, 6, 5, 15, 13, 11, 11]
  constants := [0x50a28be6, 0x5c4dd124, 0x6d703ef3, 0x7a6d76e9, 0x00000000]
  functions := [4, 3, 2, 1, 0]

/-- The five mixing functions by number. -/
def mix (which : Nat) (x y z : Word) : Word :=
  match which with
  | 0 => x ^^^ y ^^^ z
  | 1 => (x &&& y) ||| (~~~x &&& z)
  | 2 => (x ||| ~~~y) ^^^ z
  | 3 => (x &&& z) ||| (y &&& ~~~z)
  | _ => x ^^^ (y ||| ~~~z)

/-- The words of a block, four bytes each, the least significant first. -/
def words : Bytes → List Word
  | b0 :: b1 :: b2 :: b3 :: rest =>
    (b0.toUInt32 ||| (b1.toUInt32 <<< 8) ||| (b2.toUInt32 <<< 16) ||| (b3.toUInt32 <<< 24)) ::
      words rest
  | _ => []

/-- Step `j` of a line over the words of a block. -/
def step (line : Line) (block : List Word) (s : State) (j : Nat) : State :=
  let f := mix (line.functions.getD (j / 16) 0) s.b s.c s.d
  let word := block.getD (line.order.getD j 0) 0
  let t := rotl (s.a + f + word + line.constants.getD (j / 16) 0) (line.shifts.getD j 0) + s.e
  ⟨s.e, t, s.b, rotl s.c 10, s.d⟩

/-- All steps of a line. -/
def run (line : Line) (block : List Word) (s : State) : State :=
  (List.range 80).foldl (step line block) s

/-- Folds one block into the state. -/
def compress (s : State) (block : Bytes) : State :=
  let l := run .left (words block) s
  let r := run .right (words block) s
  ⟨s.b + l.c + r.d, s.c + l.d + r.e, s.d + l.e + r.a, s.e + l.a + r.b, s.a + l.b + r.c⟩

/-- A one bit, zeros up to eight bytes before the end of a block, and the length
in bits, the least significant byte first. -/
def pad (message : Bytes) : Bytes :=
  message ++ 0x80 :: List.replicate ((119 - message.length % 64) % 64) 0 ++
    (Bytes.ofNat 8 (8 * message.length)).reverse

/-- The four bytes of a word, the least significant first. -/
def wordBytes (w : Word) : Bytes :=
  [w.toUInt8, (w >>> 8).toUInt8, (w >>> 16).toUInt8, (w >>> 24).toUInt8]

/-- The bytes of a state in order. -/
def State.bytes (s : State) : Bytes := [s.a, s.b, s.c, s.d, s.e].flatMap wordBytes

/-- The RIPEMD-160 digest of a message. -/
def digest (message : Bytes) : Bytes :=
  (((pad message).chunks 64).foldl compress State.initial).bytes

/-- A digest has twenty bytes for every message, by the shape of the state it is read from:
five words of four bytes. -/
@[simp] theorem length_digest (message : Bytes) : (digest message).length = 20 := rfl

end Keyring.Ripemd160
