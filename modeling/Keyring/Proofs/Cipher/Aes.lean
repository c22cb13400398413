import Mathlib.Data.Fintype.EquivFin
import Keyring.Cipher.Aes

/-!
# `Keyring.Proofs.Cipher.Aes`: the cipher is a permutation of the blocks

Under every key, different blocks of sixteen bytes are encrypted differently.
The theorems:

* `sub_surjective`, `sub_injective`: the table has every byte once.
* `double_xor`: doubling a byte is additive.
* `mix_mix`, `cross_cross`: to mix a column twice adds to each byte four times
  the sum of it and the byte across, and to do that twice changes nothing. So
  mixing can be undone by mixing three times more.
* `rounds_injective`: a row of rounds can be undone, whatever its keys are.
* `encrypt_injective`: the statement for blocks of bytes.
-/

set_option autoImplicit false

namespace Keyring.Aes

/-! ### Bytes -/

/-- The numbers of bytes as the set bits of one number. -/
def bitSet (bytes : Bytes) : Nat := bytes.foldl (fun acc b => acc ||| 1 <<< b.toNat) 0

/-- A bit of the set of some bytes is set exactly if a byte of that number is among them. The
set is a number of 256 bits, which makes the check of the whole table one comparison. -/
theorem testBit_bitSet (bytes : Bytes) (n : Nat) :
    (bitSet bytes).testBit n = bytes.any fun b => b.toNat == n := by
  have hfold : ∀ acc : Nat, (bytes.foldl (fun acc b => acc ||| 1 <<< b.toNat) acc).testBit n
      = (acc.testBit n || bytes.any fun b => b.toNat == n) := by
    induction bytes with
    | nil => exact fun acc => (Bool.or_false _).symm
    | cons b bytes ih =>
        intro acc
        rw [List.foldl_cons, ih, List.any_cons, Nat.testBit_or, Nat.one_shiftLeft,
          Nat.testBit_two_pow, Bool.or_assoc]
        rfl
  rw [bitSet, hfold, Nat.zero_testBit, Bool.false_or]

/-- Every byte is a substitute. The bytes of the table set all the 256 bits, so each byte
stands somewhere in it. The kernel computes the one number whose binary digits say which
bytes occur, and no table of 256 cases is gone through. -/
theorem sub_surjective : Function.Surjective sub := by
  -- The bytes of the table make up all the 256 bits.
  have hall : bitSet table.toList = 2 ^ 256 - 1 := by decide +kernel
  intro c
  have hbit := testBit_bitSet table.toList c.toNat
  rw [hall, Nat.testBit_two_pow_sub_one, decide_eq_true c.toNat_lt] at hbit
  obtain ⟨b, hb, hc⟩ := List.any_eq_true.1 hbit.symm
  obtain rfl := UInt8.toNat_inj.1 (beq_iff_eq.1 hc)
  obtain ⟨i, hi, rfl⟩ := List.mem_iff_getElem.1 hb
  have hsize : table.toList.length = 256 := by decide +kernel
  have hlt : i < 256 := hsize ▸ hi
  refine ⟨UInt8.ofNat i, ?_⟩
  rw [sub, UInt8.toNat_ofNat_of_lt' hlt, Array.getD_eq_getD_getElem?,
    ← Array.getElem?_toList, List.getElem?_eq_getElem hi, Option.getD_some]

/-- No two bytes have the same substitute: there are as many substitutes as bytes. On a
finite type the two are the same, so the inverse table is not needed. -/
theorem sub_injective : Function.Injective sub := by
  have : Finite UInt8 := Finite.of_injective UInt8.toFin fun _ _ h => UInt8.toFin_inj.1 h
  exact Finite.injective_iff_surjective.2 sub_surjective

/-- The highest bit of a byte is set or not, which is what doubling asks. It is checked for
all 256 bytes. -/
theorem and_high (b : UInt8) : b &&& 0x80 = 0 ∨ b &&& 0x80 = 0x80 := by
  have hall : ∀ n : Fin 256, UInt8.ofNat n &&& 0x80 = 0 ∨ UInt8.ofNat n &&& 0x80 = 0x80 := by
    decide +kernel
  have hb := hall ⟨b.toNat, b.toNat_lt⟩
  rwa [show UInt8.ofNat b.toNat = b from UInt8.ofNat_toNat] at hb

/-- A mask is taken of a sum as of its parts. Bits are added without carry, so it holds bit
by bit. -/
theorem xor_and (a b c : UInt8) : (a ^^^ b) &&& c = (a &&& c) ^^^ (b &&& c) := by
  apply UInt8.toBitVec_inj.1
  rw [UInt8.toBitVec_and, UInt8.toBitVec_xor, UInt8.toBitVec_xor, UInt8.toBitVec_and,
    UInt8.toBitVec_and]
  ext i hi
  simp only [BitVec.getElem_and, BitVec.getElem_xor, Bool.and_xor_distrib_right]

/-- Sums of bytes are reordered from the left. With the other two laws of order, `simp`
brings such a sum into one form. -/
theorem xor_left_comm (a b c : UInt8) : a ^^^ (b ^^^ c) = b ^^^ (a ^^^ c) := by
  rw [← UInt8.xor_assoc, UInt8.xor_comm a b, UInt8.xor_assoc]

/-- A byte that is added twice cancels itself. Every layer of a round that adds something is
undone by adding it once more. -/
theorem xor_cancel (a b : UInt8) : a ^^^ (a ^^^ b) = b := by
  rw [← UInt8.xor_assoc, UInt8.xor_self, UInt8.zero_xor]

/-- Doubling is additive. Each summand is reduced if its highest bit is set, and the sum
exactly if one of the two is; if both are, the two reductions cancel. -/
theorem double_xor (b c : UInt8) : double (b ^^^ c) = double b ^^^ double c := by
  unfold double
  rw [UInt8.shiftLeft_xor, xor_and]
  -- Each summand is reduced if its highest bit is set, and the sum if one of the two is.
  rcases and_high b with hb | hb <;> rcases and_high c with hc | hc <;>
    simp [hb, hc, UInt8.xor_assoc, UInt8.xor_comm, xor_left_comm]

/-! ### Columns -/

namespace Column

/-- A column is determined by the images of its bytes under a function that keeps bytes
apart. -/
theorem map_injective {f : UInt8 → UInt8} (hf : Function.Injective f) :
    Function.Injective (map f) := by
  intro c d h
  simp only [map, mk.injEq] at h
  obtain ⟨h0, h1, h2, h3⟩ := h
  obtain ⟨c0, c1, c2, c3⟩ := c
  rw [mk.injEq]
  exact ⟨hf h0, hf h1, hf h2, hf h3⟩

/-- The addition of a key to a column can be undone, because each byte of the key is added to
one byte. -/
theorem xor_left_injective (key : Column) : Function.Injective fun c : Column => c.xor key := by
  intro c d h
  simp only [xor, mk.injEq, UInt8.xor_left_inj] at h
  obtain ⟨c0, c1, c2, c3⟩ := c
  rw [mk.injEq]
  exact h

/-- Each byte of a mixed column as a sum of doubled and plain bytes. In this form a sum of
sums is again one of doubled and plain bytes, so that mixing twice can be computed. -/
theorem mix_eq (c : Column) : c.mix =
    ⟨double c.b0 ^^^ (double c.b1 ^^^ (c.b1 ^^^ (c.b2 ^^^ c.b3))),
      double c.b1 ^^^ (double c.b2 ^^^ (c.b0 ^^^ (c.b2 ^^^ c.b3))),
      double c.b2 ^^^ (double c.b3 ^^^ (c.b0 ^^^ (c.b1 ^^^ c.b3))),
      double c.b0 ^^^ (double c.b3 ^^^ (c.b0 ^^^ (c.b1 ^^^ c.b2)))⟩ := by
  simp only [mix, double_xor, UInt8.xor_assoc, UInt8.xor_comm, xor_left_comm, xor_cancel]

/-- Adds to each byte four times the sum of it and the byte across. -/
def cross (c : Column) : Column :=
  ⟨c.b0 ^^^ double (double (c.b0 ^^^ c.b2)), c.b1 ^^^ double (double (c.b1 ^^^ c.b3)),
    c.b2 ^^^ double (double (c.b0 ^^^ c.b2)), c.b3 ^^^ double (double (c.b1 ^^^ c.b3))⟩

/-- What it is to mix a column twice: the doubled terms meet in pairs, and what is left adds
to each byte a sum that two places across share. Mixing has order four: two mixings are a
simple step, and that step undoes itself. -/
theorem mix_mix (c : Column) : c.mix.mix = c.cross := by
  simp only [mix_eq, cross, double_xor, UInt8.xor_assoc, UInt8.xor_comm, xor_left_comm, xor_cancel,
    UInt8.xor_self, UInt8.zero_xor]

/-- The sums of bytes across are the same afterwards, so that they cancel the second time. So
four mixings are none, and a mixed column determines the column. -/
theorem cross_cross (c : Column) : c.cross.cross = c := by
  simp only [cross, double_xor, UInt8.xor_comm, xor_left_comm, UInt8.xor_self, UInt8.xor_zero]

/-- A mixed column determines the column, because mixing it four times gives it back. This
needs neither the inverse matrix nor the product of bytes. -/
theorem mix_injective : Function.Injective mix := by
  intro c d h
  have hfour : c.mix.mix.mix.mix = d.mix.mix.mix.mix := by rw [h]
  rwa [mix_mix, mix_mix, mix_mix, mix_mix, cross_cross, cross_cross] at hfour

end Column

/-! ### Steps of a round -/

namespace State

/-- The substitution of a state can be undone, byte by byte, since that of a byte can. -/
theorem subBytes_injective : Function.Injective subBytes := by
  intro s t h
  have hmap := Column.map_injective sub_injective
  simp only [subBytes, mk.injEq] at h
  obtain ⟨h0, h1, h2, h3⟩ := h
  obtain ⟨c0, c1, c2, c3⟩ := s
  rw [mk.injEq]
  exact ⟨hmap h0, hmap h1, hmap h2, hmap h3⟩

/-- The shift of rows can be undone: it puts sixteen bytes in another order. -/
theorem shiftRows_injective : Function.Injective shiftRows := by
  intro s t h
  obtain ⟨⟨_, _, _, _⟩, ⟨_, _, _, _⟩, ⟨_, _, _, _⟩, ⟨_, _, _, _⟩⟩ := s
  obtain ⟨⟨_, _, _, _⟩, ⟨_, _, _, _⟩, ⟨_, _, _, _⟩, ⟨_, _, _, _⟩⟩ := t
  simp only [shiftRows, mk.injEq, Column.mk.injEq] at h
  simp [h]

/-- The mixing of a state can be undone, since that of each column can. -/
theorem mixColumns_injective : Function.Injective mixColumns := by
  intro s t h
  simp only [mixColumns, mk.injEq] at h
  obtain ⟨h0, h1, h2, h3⟩ := h
  obtain ⟨c0, c1, c2, c3⟩ := s
  rw [mk.injEq]
  exact ⟨Column.mix_injective h0, Column.mix_injective h1, Column.mix_injective h2,
    Column.mix_injective h3⟩

/-- The addition of a round key can be undone, column by column. Each column has its own word
of the round key added to it, and that word cancels itself. -/
theorem addKey_injective (key : State) : Function.Injective fun s : State => s.addKey key := by
  intro s t h
  simp only [addKey, mk.injEq] at h
  obtain ⟨h0, h1, h2, h3⟩ := h
  obtain ⟨c0, c1, c2, c3⟩ := s
  rw [mk.injEq]
  exact ⟨Column.xor_left_injective _ h0, Column.xor_left_injective _ h1,
    Column.xor_left_injective _ h2, Column.xor_left_injective _ h3⟩

end State

/-! ### The cipher -/

/-- Rounds under any keys can be undone. Induction on the keys; the last round mixes no
columns, and each step of a round can be undone by itself. The decryption of the cipher is
not modelled, since the mode of operation never uses it. -/
theorem rounds_injective (keys : List State) : Function.Injective (rounds keys) := by
  induction keys with
  | nil => exact fun _ _ h => h
  | cons key keys ih =>
      cases keys with
      -- The last round mixes no columns.
      | nil =>
          intro s t h
          exact State.subBytes_injective (State.shiftRows_injective (State.addKey_injective key h))
      | cons next rest =>
          intro s t h
          exact State.subBytes_injective (State.shiftRows_injective
            (State.mixColumns_injective (State.addKey_injective key (ih h))))

/-- The cipher is injective on states for every list of round keys, whether or not a key
schedule made it. -/
theorem encryptState_injective (keys : List State) : Function.Injective (encryptState keys) := by
  cases keys with
  | nil => exact fun _ _ h => h
  | cons key keys => exact fun _ _ h => State.addKey_injective key (rounds_injective keys h)

/-! ### Blocks -/

/-- The columns of a byte string hold its bytes, if there are four for each. Induction on the
number of columns. -/
theorem flatMap_bytes_columns (count : Nat) (bytes : Bytes) (h : bytes.length = 4 * count) :
    (columns bytes).length = count ∧ (columns bytes).flatMap Column.bytes = bytes := by
  induction count generalizing bytes with
  | zero =>
      obtain rfl := List.length_eq_zero_iff.1 h
      exact ⟨rfl, rfl⟩
  | succ count ih =>
      match bytes, h with
      | b0 :: b1 :: b2 :: b3 :: rest, h =>
        obtain ⟨hlength, hbytes⟩ := ih rest (by simp only [List.length_cons] at h; omega)
        refine ⟨congrArg Nat.succ hlength, ?_⟩
        rw [columns, List.flatMap_cons, hbytes]
        rfl

/-- A block is read back from its state. A byte string of another length would be cut or
filled, so the length is assumed. -/
theorem bytes_ofBytes {block : Bytes} (h : block.length = 16) :
    (State.ofBytes block).bytes = block := by
  obtain ⟨hfour, hbytes⟩ := flatMap_bytes_columns 4 block h
  unfold State.ofBytes
  match columns block, hfour, hbytes with
  | [c0, c1, c2, c3], _, hbytes => exact hbytes

/-- A state is read back from its bytes, whatever it is, by computation: a state always has
four columns of four bytes. -/
theorem ofBytes_bytes (s : State) : State.ofBytes s.bytes = s := rfl

/-- Different blocks are encrypted differently under any key. So the cipher is a permutation
of blocks, which is all that the proofs about tags use of it. Two tags can only be the same
if the blocks that were encrypted for them are. -/
theorem encrypt_injective (key : Bytes) {block other : Bytes} (hblock : block.length = 16)
    (hother : other.length = 16) (h : encrypt key block = encrypt key other) : block = other := by
  have hstate : encryptState (schedule key) (State.ofBytes block)
      = encryptState (schedule key) (State.ofBytes other) := by
    rw [← ofBytes_bytes (encryptState _ (State.ofBytes block)),
      ← ofBytes_bytes (encryptState _ (State.ofBytes other))]
    exact congrArg State.ofBytes h
  rw [← bytes_ofBytes hblock, ← bytes_ofBytes hother, encryptState_injective _ hstate]

end Keyring.Aes
