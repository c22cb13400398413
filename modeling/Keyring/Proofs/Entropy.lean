import Keyring.Entropy

/-!
# `Keyring.Proofs.Entropy`: a source as one row of bytes

A source gives out one row of bytes that has no end: the given bytes, then those
of the fixed sequence. Draws cut it into consecutive pieces, however they meet
the end of the given bytes. The theorems:

* `draw_eq`: a draw gives the next bytes of the row and leaves the rest of it.
* `stream_after`, `block_after`: the rest of a row, byte by byte and in blocks.
* `block_eq_tail`: a block that lies behind the given bytes is one of the fixed
  sequence.
-/

set_option autoImplicit false

namespace Keyring.Entropy

/-- Byte `k` of all that a source will give out. -/
def stream (e : Entropy) (k : Nat) : UInt8 :=
  if h : k < e.given.length then e.given[k] else tailByte (e.drawn + (k - e.given.length))

/-- The source after so many bytes. -/
def after (e : Entropy) (count : Nat) : Entropy :=
  ⟨e.given.drop count, e.drawn + (count - e.given.length)⟩

/-- The consecutive bytes of a source in blocks of 32. -/
def block (e : Entropy) (i : Nat) : Bytes := (List.range 32).map fun k => e.stream (32 * i + k)

/-- A block has 32 bytes, which is what one candidate for a key takes. -/
@[simp] theorem length_block (e : Entropy) (i : Nat) : (e.block i).length = 32 := by
  rw [block, List.length_map, List.length_range]

/-- A source of which nothing was drawn is unchanged. So a step that draws nothing needs no
case of its own. -/
@[simp] theorem after_zero (e : Entropy) : e.after 0 = e := by
  simp [after]

/-- Two draws use up as many bytes as one of both lengths. It has to be checked for the given
bytes and for the place in the fixed sequence. -/
theorem after_after (e : Entropy) (count more : Nat) :
    (e.after count).after more = e.after (count + more) := by
  simp only [after, List.drop_drop, List.length_drop, Entropy.mk.injEq, true_and]
  omega

/-- The rest of a row begins where the drawn bytes end. The case split is whether that place
is still among the given bytes. Two draws of some bytes are then one draw of both, and
nothing is drawn twice. -/
theorem stream_after (e : Entropy) (count k : Nat) :
    (e.after count).stream k = e.stream (count + k) := by
  simp only [stream, after, List.length_drop]
  by_cases h : count + k < e.given.length
  · rw [dif_pos (by omega), dif_pos h, List.getElem_drop]
  · rw [dif_neg (by omega), dif_neg h]
    congr 1
    omega

/-- After 32 bytes the blocks have moved on by one. So the keys that are tried one after the
other are the blocks in their order. -/
theorem block_after (e : Entropy) (i : Nat) : (e.after 32).block i = e.block (i + 1) := by
  simp only [block, stream_after]
  refine List.map_congr_left fun k _ => ?_
  congr 1
  omega

/-- A draw takes one byte after the other. This is the recursion of a draw, in terms of the
row of bytes that the source stands for. -/
theorem draw_succ (e : Entropy) (count : Nat) :
    e.draw (count + 1)
      = (e.stream 0 :: ((e.after 1).draw count).1, ((e.after 1).draw count).2) := by
  obtain ⟨given, drawn⟩ := e
  cases given with
  | nil => rfl
  | cons b rest => simp [draw, stream, after]

/-- A draw gives the next bytes of the row and leaves the rest of it. With this a source is
an infinite row of bytes, and no later proof looks at where the given ones end. -/
theorem draw_eq (e : Entropy) (count : Nat) :
    e.draw count = ((List.range count).map e.stream, e.after count) := by
  induction count generalizing e with
  | zero => simp [draw]
  | succ count ih =>
      have hrest : (e.after 1).stream = fun k => e.stream (k + 1) := by
        funext k
        rw [stream_after, Nat.add_comm 1]
      rw [draw_succ, ih, after_after, hrest, List.range_succ_eq_map, List.map_cons, List.map_map,
        Nat.add_comm 1]
      rfl

/-- A draw of 32 bytes is the next block. The blocks do not overlap, because each draw takes
a whole one. -/
theorem draw_block (e : Entropy) : e.draw 32 = (e.block 0, e.after 32) := by
  rw [draw_eq, block]
  simp only [Nat.mul_zero, Nat.zero_add]

/-- A block that lies behind the given bytes is one of the fixed sequence, so it is a number
in range and the search for a key ends at it at the latest. -/
theorem block_eq_tail {e : Entropy} {i : Nat} (h : e.given.length ≤ 32 * i) :
    e.block i = (draw ⟨[], e.drawn + (32 * i - e.given.length)⟩ 32).1 := by
  rw [draw_eq, block]
  refine List.map_congr_left fun k _ => ?_
  rw [stream, stream, dif_neg (by omega), dif_neg (by simp)]
  congr 1
  simp only [List.length_nil]
  omega

end Keyring.Entropy
