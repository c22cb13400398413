import Keyring.Key.Generation
import Keyring.Proofs.Entropy
import Keyring.Proofs.Key.Reading

/-!
# `Keyring.Proofs.Key.Generation`: a fresh key is the first that the source holds

A source is cut into blocks of 32 bytes. Making a pair ends for every source, and
the private key is the first block that is a number in range: no block in range
is passed over, and no byte behind it is used up. The theorems:

* `Secret.fresh_eq_block`: the search for a number in range.
* `go_of_first`: the search for a candidate with the expected shape, whatever the
  candidates are.
* `Candidate.hasShape_ofSecret`: every private key makes a candidate with the
  shape, so the second search always ends with its first candidate.
* `generate_eq_fresh`: the pair that is made is the fresh pair of the flows.
* `generate_eq_block`: both searches together.
-/

set_option autoImplicit false

namespace Keyring

open Curve (InRange)

/-! ### Numbers in range -/

/-- A block that lies behind the given bytes is a number in range, as every draw from the
fixed sequence is. -/
theorem inRange_block_of_tail {e : Entropy} {i : Nat} (h : e.given.length ≤ 32 * i) :
    InRange (e.block i).toNat := by
  rw [Entropy.block_eq_tail h]
  exact Secret.tail_in_range _

/-- A search whose next block is in range ends there and uses up that block alone. -/
theorem Secret.fresh_of_inRange {e : Entropy} (h : InRange (e.block 0).toNat) :
    fresh e = (⟨(e.block 0).toNat, h.1, h.2⟩, e.after 32) := by
  have hdraw : (e.draw 32).1 = e.block 0 := congrArg Prod.fst e.draw_block
  rw [fresh]
  simp only [e.draw_block]
  exact dif_pos h

/-- Any other search goes on behind the block, as if it had begun there. -/
theorem Secret.fresh_of_not_inRange {e : Entropy} (h : ¬InRange (e.block 0).toNat) :
    fresh e = fresh (e.after 32) := by
  rw [fresh]
  simp only [e.draw_block]
  exact dif_neg h

/-- The fresh private key is the first block in range, and the blocks up to it are used up.
The induction is that of the search. A source has infinitely many blocks, and the search ends
because some block is in range; the recursion of the program carries the proof of that. -/
theorem Secret.fresh_eq_block (e : Entropy) :
    ∃ i, (∀ j < i, ¬InRange (e.block j).toNat) ∧ (fresh e).1.scalar = (e.block i).toNat ∧
      (fresh e).2 = e.after (32 * (i + 1)) := by
  induction e using fresh.induct with
  | case1 e scalar h =>
      have hscalar : scalar = (e.block 0).toNat := congrArg (fun r => r.1.toNat) e.draw_block
      rw [hscalar] at h
      rw [fresh_of_inRange h]
      exact ⟨0, fun j hj => absurd hj (Nat.not_lt_zero j), rfl, rfl⟩
  | case2 e scalar h ih =>
      -- The first block is out of range, and the search goes on with the blocks behind it.
      have hscalar : scalar = (e.block 0).toNat := congrArg (fun r => r.1.toNat) e.draw_block
      rw [hscalar] at h
      rw [fresh_of_not_inRange h]
      rw [e.draw_block] at ih
      obtain ⟨i, hbefore, hfirst, hrest⟩ := ih
      refine ⟨i + 1, fun j hj => ?_, ?_, ?_⟩
      · cases j with
        | zero => exact h
        | succ j =>
            rw [← Entropy.block_after]
            exact hbefore j (by omega)
      · rw [hfirst, Entropy.block_after]
      · rw [hrest, Entropy.after_after]
        congr 1
        omega

/-! ### Candidates with the shape -/

namespace KeyPair

section Attempts
variable {ρ : Type} {next : ρ → Candidate × ρ}

/-- The state after so many candidates. -/
def passed (next : ρ → Candidate × ρ) (count : Nat) (state : ρ) : ρ :=
  (fun state => (next state).2)^[count] state

/-- Candidate `k` of those that come from a state. -/
def candidate (next : ρ → Candidate × ρ) (state : ρ) (k : Nat) : Candidate :=
  (next (passed next k state)).1

/-- An attempt takes its candidate, or leaves the rest to the attempts after it. -/
theorem go_succ (left : Nat) (state : ρ) :
    generateWith.go next (left + 1) state
      = if (next state).1.hasShape then ((next state).1.assemble, (next state).2)
        else generateWith.go next left (next state).2 :=
  rfl

/-- An attempt whose candidate does not have the shape leaves the rest to the attempts after
it. -/
theorem go_succ_of_dropped {left : Nat} {state : ρ}
    (h : (candidate next state 0).hasShape = false) :
    generateWith.go next (left + 1) state = generateWith.go next left (next state).2 := by
  have hdropped : (next state).1.hasShape = false := h
  rw [go_succ, hdropped, if_neg Bool.false_ne_true]

/-- The first candidate with the shape is taken, if it is among those that are tried.
Induction on the attempts. The candidates are counted from the state in which the search
began, so each dropped one moves the count on by one. -/
theorem go_of_first {attempts k : Nat} (hk : k < attempts) {state : ρ}
    (hbefore : ∀ j < k, (candidate next state j).hasShape = false)
    (hfirst : (candidate next state k).hasShape = true) :
    generateWith.go next attempts state
      = ((candidate next state k).assemble, passed next (k + 1) state) := by
  induction attempts generalizing k state with
  | zero => exact absurd hk (Nat.not_lt_zero k)
  | succ left ih =>
      cases k with
      | zero =>
          rw [go_succ]
          exact if_pos hfirst
      | succ k =>
          -- The first candidate is dropped, so the one looked for is one place nearer.
          rw [go_succ_of_dropped (hbefore 0 (Nat.succ_pos k))]
          exact ih (Nat.lt_of_succ_lt_succ hk)
            (fun j hj => hbefore (j + 1) (Nat.succ_lt_succ hj)) hfirst

end Attempts

/-- The texts of a private key have their full widths, whatever zeros it begins with, because
bytes of a fixed number are written. The test of the shape is a precaution of the program
that never takes effect. -/
theorem Candidate.hasShape_ofSecret (s : Secret) : (ofSecret s).hasShape = true := by
  have hsize : ∀ bytes : Bytes, (Hex.encode bytes).utf8ByteSize = 2 * bytes.length := by
    intro bytes
    show (Bytes.ofText (Hex.encode bytes)).length = _
    rw [Hex.ofText_encode, Hex.length_flatMap_pairBytes]
  have hprivate : s.hex.utf8ByteSize = privateWidth := by
    rw [Secret.hex, hsize, Bytes.length_ofNat]
    rfl
  have hpublic : (Public.ofSecret s).hex.utf8ByteSize = publicWidth := by
    rw [Public.hex, hsize, Public.length_bytes]
    rfl
  simp only [hasShape, ofSecret, hprivate, hpublic, beq_self_eq_true, Bool.and_self]

/-- The candidate of a private key is its pair: the address of its public text exists, since
that text is one of a point. -/
theorem Candidate.assemble_ofSecret (s : Secret) :
    (ofSecret s).assemble = .ok (KeyPair.ofSecret s).texts := by
  have haddress : Address.ofHex (Public.ofSecret s).hex
      = .ok (Address.ofPublic (Public.ofSecret s)) := Address.ofHex_ofSecret s
  rw [assemble, ofSecret]
  simp only [haddress]
  rfl

/-- A pair is made of the first candidate, so it is the fresh pair and its texts. No
candidate is ever dropped. So the error after the last attempt cannot occur, and what holds
of a fresh pair holds of a generated one. -/
theorem generate_eq_fresh (e : Entropy) :
    generate e = (.ok (fresh e).1.texts, (fresh e).2) := by
  have hfirst : (candidate Candidate.fresh e 0).hasShape = true := Candidate.hasShape_ofSecret _
  have hassemble : (candidate Candidate.fresh e 0).assemble = .ok (fresh e).1.texts :=
    Candidate.assemble_ofSecret _
  rw [generate, generateWith, go_of_first (by decide) (fun j hj => absurd hj (Nat.not_lt_zero j))
    hfirst, hassemble]
  rfl

/-- Making a pair ends for every source, and the pair is that of the first private key that the
source holds in its blocks of 32 bytes.

* There is a first block that is a number in range, and it begins before the given bytes end or
  right behind them.
* The private key is written as that block, with the public key and the address of its number.
* The source is left behind that block, so no block is passed over and no byte is lost.
* One candidate was made, and it had the shape. -/
theorem generate_eq_block (e : Entropy) :
    ∃ i pair, (∀ j < i, ¬InRange (e.block j).toNat) ∧ InRange (e.block i).toNat ∧
      32 * i < e.given.length + 32 ∧
      pair.secret.scalar = (e.block i).toNat ∧ WellFormed pair ∧
      generate e = (.ok ⟨Hex.encode (e.block i), pair.publicHex, pair.address⟩,
        e.after (32 * (i + 1))) ∧
      Candidate.fresh e = (⟨Hex.encode (e.block i), pair.publicHex⟩, e.after (32 * (i + 1))) ∧
      (Candidate.fresh e).1.hasShape = true := by
  obtain ⟨i, hbefore, hfirst, hrest⟩ := Secret.fresh_eq_block e
  have hrange : InRange (e.block i).toNat := by
    rw [← hfirst]
    exact (Secret.fresh e).1.inRange
  have hhex : (Secret.fresh e).1.hex = Hex.encode (e.block i) := by
    have hbytes := Bytes.ofNat_toNat (e.block i)
    rw [Entropy.length_block] at hbytes
    rw [Secret.hex, hfirst, hbytes]
  have hbound : 32 * i < e.given.length + 32 := by
    -- The block before it is out of range, so it began among the given bytes.
    cases i with
    | zero => omega
    | succ i =>
        by_contra hfar
        exact hbefore i (Nat.lt_succ_self i) (inRange_block_of_tail (by omega))
  refine ⟨i, (fresh e).1, hbefore, hrange, hbound, hfirst, wellFormed_ofSecret _, ?_, ?_,
    Candidate.hasShape_ofSecret _⟩
  · rw [generate_eq_fresh, ← hhex, ← hrest]
    rfl
  · rw [← hhex, ← hrest]
    rfl

end KeyPair
end Keyring
