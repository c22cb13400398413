import Keyring.Bytes.Basic

/-!
# `Keyring.Bytes.Base58`: bytes in base 58

A byte string is read as one big-endian number and written in base 58 with an
alphabet that leaves out `0`, `O`, `I` and `l`. Leading zero bytes, which the
number does not show, are written as one `1` each.
-/

set_option autoImplicit false

namespace Keyring.Base58

/-- The digits by value. -/
def alphabet : List Char := "123456789ABCDEFGHJKLMNPQRSTUVWXYZabcdefghijkmnopqrstuvwxyz".toList

/-- The digit of a value below 58. -/
def digit (value : Nat) : Char := alphabet.getD value '1'

/-- The value of a digit. -/
def value? (c : Char) : Option Nat := alphabet.idxOf? c

/-- The last `width` big-endian digit values of a number. -/
def values : (width n : Nat) → List Nat
  | 0, _ => []
  | width + 1, n => values width (n / 58) ++ [n % 58]

/-- The number that big-endian digit values stand for. -/
def ofValues (values : List Nat) : Nat := values.foldl (fun n v => n * 58 + v) 0

/-- The characters of a byte string in base 58. Two digits hold more than a byte. -/
def encodeChars (bytes : Bytes) : List Char :=
  List.replicate (bytes.takeWhile (· == 0)).length '1' ++
    ((values (2 * bytes.length) bytes.toNat).dropWhile (· == 0)).map digit

/-- The byte string that characters stand for, if all of them are digits. A
byte holds more than a digit. -/
def decodeChars? (text : List Char) : Option Bytes :=
  (text.mapM value?).map fun vs =>
    List.replicate (vs.takeWhile (· == 0)).length 0 ++
      (Bytes.ofNat vs.length (ofValues vs)).dropWhile (· == 0)

/-- A byte string in base 58. -/
def encode (bytes : Bytes) : String := String.ofList (encodeChars bytes)

/-- The byte string that a text stands for. -/
def decode? (text : String) : Option Bytes := decodeChars? text.toList

end Keyring.Base58
