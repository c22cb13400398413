import Keyring.Toml.Value
import Mathlib.Data.List.TakeWhile

/-!
# `Keyring.Proofs.Toml.Lexeme`: a text between double quotes is read back

A text is written between double quotes with the escapes that names have in
messages. The theorems:

* `escape_cases`: a character stands for itself, or is a backslash and an escape
  that is read as the character.
* `readString_quoted`: the text between the quotes is read back.
-/

set_option autoImplicit false

namespace Keyring.Toml

/-- A text between double quotes. -/
def quoted (s : String) : List Char := '"' :: s.toList.flatMap writtenName.escape ++ ['"']

/-! ### Characters by number -/

/-- The four digits of a character below the end of ASCII are hexadecimal and stand for its
number. -/
theorem hexQuad_ascii : ∀ n ∈ List.range 128, (writtenName.hexQuad n).length = 4 ∧
    ((writtenName.hexQuad n).all fun c => (hexValue? c).isSome) = true ∧
    ((writtenName.hexQuad n).filterMap hexValue?).length = 4 ∧
    ((writtenName.hexQuad n).filterMap hexValue?).foldl (fun n d => n * 16 + d) 0 = n := by
  decide +kernel

/-- A character below the end of ASCII is read from its number. Control characters are
written in this way; all numbers below 128 are tried once. -/
theorem readCode_hexQuad {c : Char} (h : c.toNat < 128) (rest : List Char) :
    readCode 4 (writtenName.hexQuad c.toNat ++ rest) = .ok (c, rest) := by
  obtain ⟨hlength, hdigits, hcount, hvalue⟩ := hexQuad_ascii c.toNat (List.mem_range.2 h)
  have htake : (writtenName.hexQuad c.toNat ++ rest).take 4 = writtenName.hexQuad c.toNat := by
    rw [← hlength, List.take_left]
  have hdrop : (writtenName.hexQuad c.toNat ++ rest).drop 4 = rest := by
    rw [← hlength, List.drop_left]
  have hall : (writtenName.hexQuad c.toNat).takeWhile (fun c => (hexValue? c).isSome)
      = writtenName.hexQuad c.toNat := List.takeWhile_eq_self_iff.2 (List.all_eq_true.1 hdigits)
  have hvalid : c.toNat.isValidChar := c.valid
  simp only [readCode, htake, hall, hdrop, hvalue, hcount]
  rw [if_neg (by decide), if_pos hvalid, Char.ofNat_toNat]
  rfl

/-- An unprintable character is below the end of ASCII, so four digits are enough for its
number. -/
theorem toNat_lt_of_not_isPlain {c : Char} (h : isPlain c = false) : c.toNat < 128 := by
  refine Nat.not_le.1 fun hge => ?_
  have hbeyond : '\x80' ≤ c := hge
  simp [isPlain, hbeyond] at h

/-- A character between quotes stands for itself, or is a backslash and an escape that is
read as the character. The characters that are escaped are the quote, the backslash and the
controls. -/
theorem escape_cases (c : Char) :
    (writtenName.escape c = [c] ∧ isPlain c = true ∧ c ≠ '"' ∧ c ≠ '\\') ∨
      ∃ escaped, writtenName.escape c = '\\' :: escaped ∧ escaped ≠ [] ∧
        ∀ rest, readEscape (escaped ++ rest) = .ok (c, rest) := by
  unfold writtenName.escape
  split
  any_goals exact .inr ⟨_, rfl, List.cons_ne_nil _ _, fun _ => rfl⟩
  rename_i hquote hslash _ _ _ _ _
  split
  · rename_i hplain
    exact .inl ⟨rfl, hplain, hquote, hslash⟩
  · rename_i hcontrol
    have hascii := toNat_lt_of_not_isPlain (Bool.eq_false_iff.2 hcontrol)
    exact .inr ⟨_, rfl, List.cons_ne_nil _ _, fun rest => readCode_hexQuad hascii rest⟩

/-! ### Texts -/

/-- Characters up to the closing quote are read one by one. The reader may take as many turns as
there are characters, and one for the quote. -/
theorem readBasic_escape (chars : List Char) :
    ∀ (turns : Nat) (done rest : List Char), chars.length < turns →
      readBasic turns done (chars.flatMap writtenName.escape ++ '"' :: rest)
        = .ok (String.ofList (done.reverse ++ chars), rest) := by
  induction chars with
  | nil =>
      intro turns done rest hturns
      obtain ⟨k, rfl⟩ : ∃ k, turns = k + 1 := ⟨turns - 1, by omega⟩
      rw [List.append_nil]
      rfl
  | cons c chars ih =>
      intro turns done rest hturns
      obtain ⟨k, rfl⟩ : ∃ k, turns = k + 1 := ⟨turns - 1, by omega⟩
      have hk : chars.length < k := Nat.lt_of_succ_lt_succ hturns
      -- The reader keeps what it has read in reverse.
      have hreverse : done.reverse ++ c :: chars = (c :: done).reverse ++ chars := by simp
      rw [List.flatMap_cons, List.append_assoc, hreverse]
      rcases escape_cases c with ⟨hself, hplain, hquote, hslash⟩ | ⟨escaped, hself, hne, hread⟩
      · rw [hself, List.singleton_append, readBasic]
        · rw [if_pos hplain]
          exact ih k (c :: done) rest hk
        · exact hquote
        · exact hslash
      · rw [hself, List.cons_append, readBasic, if_neg (by simp [hne]), hread]
        exact ih k (c :: done) rest hk

/-- A text is no longer than its escaped form. The reader has as many turns as there are
characters, so they suffice. -/
theorem length_le_flatMap_escape (chars : List Char) :
    chars.length ≤ (chars.flatMap writtenName.escape).length := by
  induction chars with
  | nil => exact Nat.le_refl _
  | cons c chars ih =>
      have hpos : 0 < (writtenName.escape c).length := by
        rcases escape_cases c with ⟨h, -⟩ | ⟨escaped, h, -⟩ <;> simp [h]
      rw [List.flatMap_cons, List.length_append, List.length_cons]
      omega

/-- After its opening quote a text does not begin with two more. Three quotes would open a
text of several lines. -/
theorem escape_ne_two_quotes (chars : List Char) {next : Char} (hnext : next ≠ '"')
    (rest tail : List Char) :
    chars.flatMap writtenName.escape ++ '"' :: next :: rest ≠ '"' :: '"' :: tail := by
  intro heq
  cases chars with
  | nil => exact hnext (List.cons.inj (List.cons.inj heq).2).1
  | cons c chars =>
      rw [List.flatMap_cons, List.append_assoc] at heq
      rcases escape_cases c with ⟨hself, -, hquote, -⟩ | ⟨escaped, hself, -⟩
      · rw [hself] at heq
        exact hquote (List.cons.inj heq).1
      · rw [hself] at heq
        exact absurd (List.cons.inj heq).1 (by decide)

/-- A text between double quotes is read back. What follows may not make three quotes of
those of an empty text. An empty text is written as two quotes, which begin a longer string
if a third one follows. -/
theorem readString_quoted (s : String) {next : Char} (hnext : next ≠ '"') (rest : List Char) :
    readString (quoted s ++ next :: rest) = .ok (s, next :: rest) := by
  have hquoted : quoted s ++ next :: rest
      = '"' :: (s.toList.flatMap writtenName.escape ++ '"' :: next :: rest) := by
    simp [quoted]
  have hturns := length_le_flatMap_escape s.toList
  have hbasic := readBasic_escape s.toList
    ((s.toList.flatMap writtenName.escape ++ '"' :: next :: rest).length + 1) [] (next :: rest)
    (by rw [List.length_append]; omega)
  rw [List.reverse_nil, List.nil_append, String.ofList_toList] at hbasic
  rw [hquoted, readString.eq_def]
  -- The text begins with one quote, not with three.
  split
  · rename_i heq
    exact absurd (List.cons.inj heq).2 (escape_ne_two_quotes _ hnext _ _)
  · rename_i heq
    rw [← (List.cons.inj heq).2]
    exact hbasic
  · rename_i heq
    exact absurd (List.cons.inj heq).1 (by decide)
  · rename_i heq
    exact absurd (List.cons.inj heq).1 (by decide)
  · rename_i hone _ _
    exact absurd rfl (hone _)

end Keyring.Toml
