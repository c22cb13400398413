import Keyring.Proofs.Bytes.Basic

/-!
# `Keyring.Proofs.Bytes.Order`: texts and their bytes are ordered alike

Texts are compared character by character. The bytes of a character begin with
one that tells how many there are, and the digits follow from the highest on, so
the bytes of texts compare in the same way.

* `utf8EncodeChar_append_lt`: a lesser character has lesser bytes, whatever follows.
* `ofText_lt_iff`: a lesser text has lesser bytes, and no other has.
-/

set_option autoImplicit false

namespace Keyring.Bytes

/-- No character has a number beyond the last plane. A character carries the proof that it is
below the surrogates or between them and that end. -/
theorem char_toNat_lt (c : Char) : c.val.toNat < 0x110000 := by
  rcases c.valid with hlow | hhigh
  · have : c.val.toNat < 0xD800 := hlow
    omega
  · exact hhigh.2

/-- A lesser byte decides, whatever follows it. The bytes are given by their numbers because
that is how the encoding computes them. -/
theorem ofNat_cons_lt {m n : Nat} (h : m < n) (hn : n < 256) (a b : Bytes) :
    UInt8.ofNat m :: a < UInt8.ofNat n :: b :=
  List.cons_lt_cons_iff.2 (.inl ((UInt8.ofNat_lt_iff_lt (Nat.lt_trans h hn) hn).2 h))

/-- A byte that is no greater leaves it to the rest if it is the same one. This is how the
continuation bytes of two characters are compared one by one. -/
theorem ofNat_cons_lt_of_le {m n : Nat} (h : m ≤ n) (hn : n < 256) {a b : Bytes}
    (hrest : m = n → a < b) : UInt8.ofNat m :: a < UInt8.ofNat n :: b := by
  rcases Nat.lt_or_eq_of_le h with hlt | rfl
  · exact ofNat_cons_lt hlt hn a b
  · exact List.cons_lt_cons_iff.2 (.inr ⟨rfl, hrest rfl⟩)

/-- A lesser character has lesser bytes, whatever follows. The longer an encoding, the
greater its first byte, and of one length the bytes are the places of the number. It carries
the order of characters, by which texts are compared here, over to the order of their bytes. -/
theorem utf8EncodeChar_append_lt {c d : Char} (h : c < d) (a b : Bytes) :
    String.utf8EncodeChar c ++ a < String.utf8EncodeChar d ++ b := by
  have hlt : c.val.toNat < d.val.toNat := h
  have hd := char_toNat_lt d
  unfold String.utf8EncodeChar
  generalize c.val.toNat = m at hlt
  generalize d.val.toNat = n at hlt hd
  simp only
  -- The first byte tells how many there are, and a lesser character has no more.
  split
  · split
    · exact ofNat_cons_lt hlt (by omega) _ _
    · split
      · exact ofNat_cons_lt (by omega) (by omega) _ _
      · split <;> exact ofNat_cons_lt (by omega) (by omega) _ _
  · rw [if_neg (by omega : ¬ n ≤ 127)]
    split
    · split
      · refine ofNat_cons_lt_of_le (by omega) (by omega) fun hfirst => ?_
        exact ofNat_cons_lt (by omega) (by omega) _ _
      · split <;> exact ofNat_cons_lt (by omega) (by omega) _ _
    · rw [if_neg (by omega : ¬ n ≤ 2047)]
      split
      · split
        · refine ofNat_cons_lt_of_le (by omega) (by omega) fun hfirst => ?_
          refine ofNat_cons_lt_of_le (by omega) (by omega) fun hsecond => ?_
          exact ofNat_cons_lt (by omega) (by omega) _ _
        · exact ofNat_cons_lt (by omega) (by omega) _ _
      · rw [if_neg (by omega : ¬ n ≤ 65535)]
        refine ofNat_cons_lt_of_le (by omega) (by omega) fun hfirst => ?_
        refine ofNat_cons_lt_of_le (by omega) (by omega) fun hsecond => ?_
        refine ofNat_cons_lt_of_le (by omega) (by omega) fun hthird => ?_
        exact ofNat_cons_lt (by omega) (by omega) _ _

/-- Lesser characters have lesser bytes. Induction on the characters: the first two that
differ decide, and the bytes before them are the same. -/
theorem flatMap_utf8EncodeChar_lt {x y : List Char} (h : x < y) :
    x.flatMap String.utf8EncodeChar < y.flatMap String.utf8EncodeChar := by
  induction x generalizing y with
  | nil =>
      cases y with
      | nil => exact absurd h (List.lt_irrefl [])
      | cons d y =>
          -- A character has at least one byte, so the longer text has more bytes too.
          cases hbytes : (d :: y).flatMap String.utf8EncodeChar with
          | nil =>
              have hnone := (List.flatMap_eq_nil_iff.1 hbytes) d List.mem_cons_self
              exact absurd hnone String.utf8EncodeChar_ne_nil
          | cons b rest => exact List.nil_lt_cons b rest
  | cons c x ih =>
      cases y with
      | nil => exact absurd h (List.not_lt_nil _)
      | cons d y =>
          rw [List.flatMap_cons, List.flatMap_cons]
          -- Either the first characters differ or they are the same and the rest decides.
          rcases List.cons_lt_cons_iff.1 h with hlt | ⟨rfl, hrest⟩
          · exact utf8EncodeChar_append_lt hlt _ _
          · exact List.append_left_lt (ih hrest)

/-- A text is less than another if and only if its bytes are. The order of texts goes by
characters and that of stored names by bytes, and both orders are total, so one direction
gives the other. -/
theorem ofText_lt_iff {s t : String} : ofText s < ofText t ↔ s < t := by
  have hmono : ∀ {s t : String}, s < t → ofText s < ofText t := by
    intro s t h
    rw [ofText_eq_flatMap, ofText_eq_flatMap]
    exact flatMap_utf8EncodeChar_lt h
  refine ⟨fun h => ?_, hmono⟩
  -- If the text is not less, it is the other one or greater, and so are its bytes.
  rcases Std.lt_trichotomy s t with hlt | rfl | hgt
  · exact hlt
  · exact absurd h (List.lt_irrefl _)
  · exact absurd h (List.lt_asymm (hmono hgt))

end Keyring.Bytes
