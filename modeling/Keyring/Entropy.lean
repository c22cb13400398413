import Keyring.Bytes.Basic

/-!
# `Keyring.Entropy`: a source of bytes

A source gives out the bytes it was started with and after them, without end,
the bytes of a fixed sequence of period 256.

* `draw_length`: a draw of `n` bytes has `n` bytes.
* `draw_given`: a draw uses up given bytes first.
-/

set_option autoImplicit false

namespace Keyring

/-- A source of bytes: those given that are still left, and how many bytes of the
fixed sequence were drawn. -/
structure Entropy where
  given : Bytes
  drawn : Nat
  deriving DecidableEq, Repr

namespace Entropy

/-- A fresh source. -/
def ofBytes (given : Bytes) : Entropy := ⟨given, 0⟩

/-- Byte `k` of the fixed sequence. -/
def tailByte (k : Nat) : UInt8 := UInt8.ofNat (k * 167 + 13)

/-- The next bytes of a source, and the source after them. -/
def draw (e : Entropy) : (count : Nat) → Bytes × Entropy
  | 0 => ([], e)
  | count + 1 =>
    match e.given with
    | b :: rest =>
      let (bytes, e) := draw ⟨rest, e.drawn⟩ count
      (b :: bytes, e)
    | [] =>
      let (bytes, e') := draw ⟨[], e.drawn + 1⟩ count
      (tailByte e.drawn :: bytes, e')

/-- A draw gives as many bytes as were asked for. The source never ends: after the given
bytes the fixed sequence goes on. -/
@[simp] theorem draw_length (e : Entropy) (count : Nat) : (e.draw count).1.length = count := by
  induction count generalizing e with
  | zero => rfl
  | succ count ih =>
    unfold draw
    split <;> simp [ih]

/-- A draw uses up the given bytes from the front, one for each byte drawn, until none are
left. What is drawn after them comes from the fixed sequence, so a script of bytes says
exactly what a run draws. -/
theorem draw_given (e : Entropy) (count : Nat) : (e.draw count).2.given = e.given.drop count := by
  induction count generalizing e with
  | zero => rfl
  | succ count ih =>
    unfold draw
    split <;> rename_i h <;> simp [ih, h]

/-- The fixed sequence repeats after 256 bytes, since it is an affine function of the place
taken modulo 256. -/
theorem tailByte_mod (k : Nat) : tailByte (k % 256) = tailByte k := by
  apply UInt8.toNat_inj.1
  simp only [tailByte, UInt8.toNat_ofNat']
  omega

/-- What an exhausted source gives depends on its place in the period alone. This leaves 256
places to look at where a fact about every such draw is wanted. -/
theorem draw_tail_congr {j k : Nat} (h : j % 256 = k % 256) (count : Nat) :
    (draw ⟨[], j⟩ count).1 = (draw ⟨[], k⟩ count).1 := by
  induction count generalizing j k with
  | zero => rfl
  | succ count ih =>
    have first : tailByte j = tailByte k := by rw [← tailByte_mod j, ← tailByte_mod k, h]
    simp only [draw, first, List.cons.injEq, true_and]
    exact ih (by omega)

end Entropy
end Keyring
