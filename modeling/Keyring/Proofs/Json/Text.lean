import Keyring.Json.Lexeme
import Keyring.Json.Printer

/-!
# `Keyring.Proofs.Json.Text`: quoted texts are read back

`Reads read chars x` says that a reader takes the characters `chars` off the
front of any text and makes `x` of them; where the cursor stood does not
matter. `ReadsValue` says so only of texts that go on as behind a value. The
theorems:

* `Reads.cancel`: what is read off the same text twice is the same.
* `escape_cases`: a character stands for itself, or as an escape that is read as
  that character.
* `reads_readText`: what stands between the quotes of a text is read as that
  text, for any characters.
-/

set_option autoImplicit false

namespace Keyring.Json

open Cursor

/-- A reader takes these characters off the front of any text and makes `x` of them. -/
def Reads {α : Type} (read : Cursor → Except Fault (α × Cursor)) (chars : List Char) (x : α) :
    Prop :=
  ∀ (rest : List Char) (pos : Position),
    ∃ pos', read ⟨chars ++ rest, pos⟩ = .ok (x, ⟨rest, pos'⟩)

/-- What a reader takes off one text in two ways is the same, and so is what it leaves. This
is how a reader proves its printer unambiguous. The lemma needs no induction, since it runs
the reader once on the common text. -/
theorem Reads.cancel {α : Type} {read : Cursor → Except Fault (α × Cursor)} {x y : List Char}
    {u v : α} (hx : Reads read x u) (hy : Reads read y v) {a b : List Char}
    (h : x ++ a = y ++ b) : u = v ∧ a = b := by
  obtain ⟨end₁, h₁⟩ := hx a .start
  obtain ⟨end₂, h₂⟩ := hy b .start
  rw [h, h₂] at h₁
  obtain ⟨rfl, hcursor⟩ := Prod.mk.inj (Except.ok.inj h₁)
  exact ⟨rfl, (Cursor.mk.inj hcursor).1.symm⟩

/-- A text that may stand behind a value: nothing, a comma, or a closing bracket first. -/
def Follows (rest : List Char) : Prop :=
  ∀ x tail, rest = x :: tail → x = ',' ∨ x = ']' ∨ x = '\x7d'

/-- A value may end where the text ends. The reader of a whole text asks for this. -/
theorem follows_nil : Follows [] := fun _ _ h => by cases h

/-- A value may be followed by a comma or a closing bracket. These are the characters that a
list or an object puts behind a value. -/
theorem follows_cons {x : Char} (h : x = ',' ∨ x = ']' ∨ x = '\x7d') (rest : List Char) :
    Follows (x :: rest) :=
  fun _ _ heq => (List.cons.inj heq).1 ▸ h

/-- A reader takes these characters off the front of any text that goes on as behind a value. A
number is read like that only, because more digits could follow it in another text. -/
def ReadsValue {α : Type} (read : Cursor → Except Fault (α × Cursor)) (chars : List Char) (x : α) :
    Prop :=
  ∀ (rest : List Char) (pos : Position), Follows rest →
    ∃ pos', read ⟨chars ++ rest, pos⟩ = .ok (x, ⟨rest, pos'⟩)

/-- What is read wherever it stands is read where a value may end. -/
theorem Reads.value {α : Type} {read : Cursor → Except Fault (α × Cursor)} {chars : List Char}
    {x : α} (h : Reads read chars x) : ReadsValue read chars x :=
  fun rest pos _ => h rest pos

/-! ### Escapes -/

/-- The next character is taken off and the position moves past it. The position is never
looked at by the readers; it is carried along for the messages. -/
theorem next_cons (x : Char) (rest : List Char) (pos : Position) :
    Cursor.next ⟨x :: rest, pos⟩ = ⟨rest, pos.past x⟩ :=
  rfl

/-- The two digits of a control character, after two zeros, stand for its number. There are
only 32 control characters, so their digits are computed. -/
theorem hexQuad?_controlDigits {n : Nat} (h : n < 32) (rest : List Char) :
    hexQuad? ('0' :: '0' :: (controlDigits n ++ rest)) = some n := by
  -- There are only 32 control characters, so their digits are computed.
  have hdigits : ∀ k < 32, ((hexValue? (if k < 16 then '0' else '1')).isSome &&
      (hexValue? (Char.ofNat (if k % 16 < 10 then 48 + k % 16 else 87 + k % 16))).isSome &&
      16 * (hexValue? (if k < 16 then '0' else '1')).getD 0 +
        (hexValue? (Char.ofNat (if k % 16 < 10 then 48 + k % 16 else 87 + k % 16))).getD 0 == k)
      = true := by
    decide
  have hzero : hexValue? '0' = some 0 := by decide
  have hn := hdigits n h
  simp only [Bool.and_eq_true, beq_iff_eq, Option.isSome_iff_exists] at hn
  obtain ⟨⟨⟨high, hhigh⟩, low, hlow⟩, hsum⟩ := hn
  rw [hhigh, hlow] at hsum
  show hexQuad? ('0' :: '0' :: (if n < 16 then '0' else '1') ::
    Char.ofNat (if n % 16 < 10 then 48 + n % 16 else 87 + n % 16) :: rest) = _
  simp only [hexQuad?, hzero, hhigh, hlow]
  simpa using hsum

/-- The escape of a control character by number is read as that character. -/
theorem readEscape_control {c : Char} (h : c.toNat < 32) :
    Reads readEscape ('u' :: '0' :: '0' :: controlDigits c.toNat) c := by
  intro rest pos
  have hquad := hexQuad?_controlDigits h rest
  refine ⟨(pos.past 'u' |>.past '0' |>.past '0' |>.past (if c.toNat < 16 then '0' else '1')).past
    (Char.ofNat (if c.toNat % 16 < 10 then 48 + c.toNat % 16 else 87 + c.toNat % 16)), ?_⟩
  have hread : readQuad ⟨'0' :: '0' :: (controlDigits c.toNat ++ rest), pos.past 'u'⟩
      = .ok (c.toNat,
          Cursor.skip ⟨'0' :: '0' :: (controlDigits c.toNat ++ rest), pos.past 'u'⟩ 4) := by
    simp only [readQuad, hquad]
  show (readQuad ⟨'0' :: '0' :: (controlDigits c.toNat ++ rest), pos.past 'u'⟩ >>= _) = _
  rw [hread]
  show (if _ then _ else if _ then _ else _) = _
  -- A control character is no half of a surrogate pair.
  rw [if_neg (by omega), if_pos (by omega), Char.ofNat_toNat]
  rfl

/-- An escape of one letter is read as the character that the letter stands for. -/
theorem readEscape_short {letter c : Char} (hu : letter ≠ 'u')
    (h : shortEscape? letter = some c) : Reads readEscape [letter] c := by
  intro rest pos
  refine ⟨pos.past letter, ?_⟩
  show readEscape ⟨letter :: rest, pos⟩ = _
  unfold readEscape
  -- The reader has three cases: nothing is left, an escape by number, or one letter.
  split
  · rename_i heq
    exact absurd heq (List.cons_ne_nil _ _)
  · rename_i heq
    exact absurd (List.cons.inj heq).1 hu
  · rename_i heq
    obtain ⟨rfl, rfl⟩ := List.cons.inj heq
    simp only [h]
    rfl

/-- A character inside quotes stands for itself, or is a backslash and an escape. Seven
characters have a letter of their own; the others go by their number. What is read after the
backslash is the character again, in either spelling. -/
theorem escape_cases (c : Char) :
    (escape c = [c] ∧ c ≠ '"' ∧ c ≠ '\\' ∧ ¬ c.toNat < 32) ∨
      ∃ chars, escape c = '\\' :: chars ∧ Reads readEscape chars c := by
  unfold escape
  -- Seven characters have a letter of their own; the others go by their number.
  split
  · exact .inr ⟨_, rfl, readEscape_short (by decide) rfl⟩
  · exact .inr ⟨_, rfl, readEscape_short (by decide) rfl⟩
  · exact .inr ⟨_, rfl, readEscape_short (by decide) rfl⟩
  · exact .inr ⟨_, rfl, readEscape_short (by decide) rfl⟩
  · exact .inr ⟨_, rfl, readEscape_short (by decide) rfl⟩
  · exact .inr ⟨_, rfl, readEscape_short (by decide) rfl⟩
  · exact .inr ⟨_, rfl, readEscape_short (by decide) rfl⟩
  · rename_i hquote hslash _ _ _ _ _
    split
    · rename_i hcontrol
      exact .inr ⟨_, rfl, readEscape_control hcontrol⟩
    · rename_i hplain
      exact .inl ⟨rfl, hquote, hslash, hplain⟩

/-! ### Texts -/

/-- Characters up to the closing quote are read one by one. The reader may take as many
turns as there are characters, and one for the quote. -/
theorem readChars_escape (chars : List Char) :
    ∀ (turns : Nat) (done rest : List Char) (pos : Position), chars.length < turns →
      ∃ pos', readChars turns done ⟨chars.flatMap escape ++ '"' :: rest, pos⟩
        = .ok (done.reverse ++ chars, ⟨rest, pos'⟩) := by
  induction chars with
  | nil =>
      intro turns done rest pos hturns
      obtain ⟨k, rfl⟩ : ∃ k, turns = k + 1 := ⟨turns - 1, by omega⟩
      exact ⟨pos.past '"', by rw [List.append_nil]; rfl⟩
  | cons c chars ih =>
      intro turns done rest pos hturns
      obtain ⟨k, rfl⟩ : ∃ k, turns = k + 1 := ⟨turns - 1, by omega⟩
      have hk : chars.length < k := by
        rw [List.length_cons] at hturns
        omega
      -- The reader keeps what it has read in reverse.
      have hreverse : done.reverse ++ c :: chars = (c :: done).reverse ++ chars := by
        rw [List.reverse_cons, List.append_assoc]
        rfl
      rw [List.flatMap_cons, List.append_assoc, hreverse]
      rcases escape_cases c with ⟨hself, hquote, hslash, hplain⟩ | ⟨escaped, hself, hreads⟩
      · obtain ⟨pos', h⟩ := ih k (c :: done) rest (pos.past c) hk
        refine ⟨pos', ?_⟩
        rw [hself, List.singleton_append]
        -- A character that stands for itself is none of those that the reader looks for.
        unfold readChars
        split
        · rename_i heq
          exact absurd heq (List.cons_ne_nil _ _)
        · rename_i heq
          exact absurd (List.cons.inj heq).1 hquote
        · rename_i heq
          exact absurd (List.cons.inj heq).1 hslash
        · rename_i heq
          obtain ⟨rfl, rfl⟩ := List.cons.inj heq
          rw [if_neg hplain]
          exact h
      · obtain ⟨pos', hescape⟩ := hreads (chars.flatMap escape ++ '"' :: rest) (pos.past '\\')
        obtain ⟨pos'', h⟩ := ih k (c :: done) rest pos' hk
        refine ⟨pos'', ?_⟩
        rw [hself, List.cons_append]
        show (readEscape ⟨escaped ++ _, pos.past '\\'⟩ >>= _) = _
        rw [hescape]
        exact h

/-- Every character takes at least one character to write. So a text has at most as many
characters as its quoted form. -/
theorem length_escape_pos (c : Char) : 0 < (escape c).length := by
  rcases escape_cases c with ⟨h, -⟩ | ⟨chars, h, -⟩
  · rw [h]
    exact Nat.one_pos
  · rw [h]
    exact Nat.succ_pos _

/-- A text is no longer than its escaped form, so the turns that are counted by the latter
are enough. -/
theorem length_le_flatMap_escape (chars : List Char) :
    chars.length ≤ (chars.flatMap escape).length := by
  induction chars with
  | nil => exact Nat.le_refl _
  | cons c chars ih =>
      have := length_escape_pos c
      rw [List.flatMap_cons, List.length_append, List.length_cons]
      omega

/-- What stands after the opening quote of a text is read as that text, up to the closing
quote. Induction on the characters; each is read back by itself, whatever comes after it. -/
theorem reads_readText (s : String) :
    Reads readText (s.toList.flatMap escape ++ ['"']) s := by
  intro rest pos
  have hturns := length_le_flatMap_escape s.toList
  rw [List.append_assoc, List.singleton_append]
  obtain ⟨pos', h⟩ := readChars_escape s.toList
    ((s.toList.flatMap escape ++ '"' :: rest).length + 1) [] rest pos
    (by rw [List.length_append]; omega)
  refine ⟨pos', ?_⟩
  show (readChars _ [] _ >>= _) = _
  rw [h]
  show Except.ok (String.ofList ([].reverse ++ s.toList), _) = _
  rw [List.reverse_nil, List.nil_append, String.ofList_toList]

end Keyring.Json
