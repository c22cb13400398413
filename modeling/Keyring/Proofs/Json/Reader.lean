import Keyring.Json.Record
import Keyring.Proofs.Json.Printer
import Keyring.Proofs.Json.Record
import Keyring.Proofs.Json.Within
import Keyring.Proofs.Payload

/-!
# `Keyring.Proofs.Json.Reader`: a printed value is read back

A number is read up to the first character that cannot go on with it, so values
are read in front of a comma, a bracket or the end of the text (`ReadsValue`).
The reader descends one level for each list and object, so the induction is on
the levels that are left and takes in values of any form. The theorems:

* `readsValue_number`: a number is read from its digits.
* `readsValue_whole`: whole numbers are read back, with a sign or without one.
* `readsValue_int64`: so are those of 64 bits with a sign.
* `readsValue_list`, `readsValue_object`: lists and objects of such values are read back.
* `readsValue_sorted`: a value without floats is read back with its fields in
  order, if there are enough levels for its depth.
* `readsValue_ordered`: so a value with its fields in order is read back itself.
-/

set_option autoImplicit false

namespace Keyring.Json

open Cursor
open Decimal (isDigit_toDigits)

variable {rest : List Char}

/-! ### Whole numbers -/

/-- The digits of a number other than zero do not begin with a zero. The reader refuses a
zero in front of other digits. -/
theorem toDigits_ne_zero_cons {n : Nat} (hn : 0 < n) (digits : List Char) :
    Nat.toDigits 10 n ≠ '0' :: digits := by
  induction n using Nat.strongRecOn generalizing digits with
  | ind n ih =>
      intro h
      by_cases hlt : n < 10
      · rw [Nat.toDigits_of_lt_base hlt] at h
        have := Nat.digitChar_eq_zero.1 (List.cons.inj h).1
        omega
      · -- The first digit is that of a tenth of the number.
        rw [Nat.toDigits_of_base_le (by decide) (Nat.not_lt.1 hlt)] at h
        cases htenth : Nat.toDigits 10 (n / 10) with
        | nil => exact Nat.toDigits_ne_nil htenth
        | cons d more =>
            rw [htenth] at h
            obtain ⟨rfl, -⟩ := List.cons.inj h
            exact ih (n / 10) (by omega) (by omega) more htenth

/-- Digits are taken one by one up to what may follow a value. Induction on the digits. -/
theorem takeDigits_go (digits : List Char) (hrest : Follows rest) :
    ∀ (done : List Char) (pos : Position), (∀ c ∈ digits, c.isDigit = true) →
      ∃ pos', takeDigits.go (digits ++ rest) pos done = (done.reverse ++ digits, ⟨rest, pos'⟩) := by
  induction digits with
  | nil =>
      intro done pos _
      refine ⟨pos, ?_⟩
      rw [List.append_nil, List.nil_append]
      -- The first character that follows is no digit.
      cases rest with
      | nil => rfl
      | cons x tail => rcases hrest x tail rfl with rfl | rfl | rfl <;> rfl
  | cons d digits ih =>
      intro done pos h
      obtain ⟨hd, hdigits⟩ := List.forall_mem_cons.1 h
      obtain ⟨pos', hgo⟩ := ih (d :: done) (pos.past d) hdigits
      refine ⟨pos', ?_⟩
      rw [List.cons_append, takeDigits.go, if_pos hd, hgo, List.reverse_cons, List.append_assoc]
      rfl

/-- The digits of a number are taken up to what follows them. A zero may not be followed by
another digit, so it is a case of its own. -/
theorem readWholePart_toDigits (n : Nat) (hrest : Follows rest) (pos : Position) :
    ∃ pos', readWholePart ⟨Nat.toDigits 10 n ++ rest, pos⟩
      = .ok (Nat.toDigits 10 n, ⟨rest, pos'⟩) := by
  rcases Nat.eq_zero_or_pos n with rfl | hn
  · -- A zero may not be followed by another digit.
    rw [Nat.toDigits_zero]
    cases rest with
    | nil => exact ⟨pos.past '0', rfl⟩
    | cons x tail => rcases hrest x tail rfl with rfl | rfl | rfl <;> exact ⟨pos.past '0', rfl⟩
  · cases hdigits : Nat.toDigits 10 n with
    | nil => exact absurd hdigits Nat.toDigits_ne_nil
    | cons d more =>
        have hall : ∀ c ∈ d :: more, c.isDigit = true := hdigits ▸ isDigit_toDigits n
        obtain ⟨pos', hgo⟩ := takeDigits_go (d :: more) hrest [] pos hall
        refine ⟨pos', ?_⟩
        rw [List.cons_append]
        unfold readWholePart
        split
        · rename_i heq
          exact absurd heq (List.cons_ne_nil _ _)
        · rename_i heq
          -- The branch of a leading zero is not taken.
          have hzero : d = '0' := (List.cons.inj heq).1
          exact absurd (hzero ▸ hdigits) (toDigits_ne_zero_cons hn more)
        · rename_i heq
          obtain ⟨rfl, rfl⟩ := List.cons.inj heq
          rw [if_pos (List.forall_mem_cons.1 hall).1]
          exact congrArg Except.ok hgo

/-- Behind a value there is no fraction. Only a point begins one, and none of the three
characters that may stand there is a point. -/
theorem readFraction_of_follows (hrest : Follows rest) (pos : Position) :
    readFraction ⟨rest, pos⟩ = .ok (none, ⟨rest, pos⟩) := by
  cases rest with
  | nil => rfl
  | cons x tail => rcases hrest x tail rfl with rfl | rfl | rfl <;> rfl

/-- Behind a value there is no exponent. Only a letter begins one, and none of the three
characters that may stand there is a letter. -/
theorem readExponent_of_follows (hrest : Follows rest) (zero : Bool) (pos : Position) :
    readExponent zero ⟨rest, pos⟩ = .ok (none, ⟨rest, pos⟩) := by
  cases rest with
  | nil => rfl
  | cons x tail => rcases hrest x tail rfl with rfl | rfl | rfl <;> rfl

/-- A number is read from its digits, if it is the number that these digits stand for. The
reader takes all digits first and forms the number afterwards, so the two steps are two
lemmas. -/
theorem readsValue_number {rounding : Rounding} {negative : Bool} {n : Nat} {number : Number}
    (h : Number.ofParts? rounding negative (Nat.toDigits 10 n) none none = some number) :
    ReadsValue (readNumber rounding negative) (Nat.toDigits 10 n) number := by
  intro rest pos hrest
  obtain ⟨pos', hwhole⟩ := readWholePart_toDigits n hrest pos
  refine ⟨pos', ?_⟩
  show (readWholePart ⟨Nat.toDigits 10 n ++ rest, pos⟩ >>= _) = _
  rw [hwhole]
  show (readFraction ⟨rest, pos'⟩ >>= _) = _
  rw [readFraction_of_follows hrest]
  show (readExponent _ ⟨rest, pos'⟩ >>= _) = _
  rw [readExponent_of_follows hrest]
  simp only [bind, Except.bind, h]

/-- The digits of a number have its value. The reader's fold is the library's, with the
factors the other way round. -/
theorem digitsValue_toDigits (n : Nat) : digitsValue (Nat.toDigits 10 n) = n := by
  have hvalue : digitsValue (Nat.toDigits 10 n)
      = Nat.ofDigitChars 10 (Nat.toDigits 10 n) 0 := by
    rw [Nat.ofDigitChars_eq_foldl, digitsValue]
    congr 1
    funext k c
    rw [Nat.mul_comm]
    rfl
  rw [hvalue, Nat.ofDigitChars_ten_toDigits]

/-- The digits of a whole number stand for that number, with its sign. A number that has
neither fraction nor exponent and is in range is read as a whole one. -/
theorem ofParts?_whole (rounding : Rounding) (n : Whole) :
    Number.ofParts? rounding (decide (n.val < 0)) (Nat.toDigits 10 n.val.natAbs) none none
      = some (.whole n) := by
  have hsigned : (if decide (n.val < 0) then -(n.val.natAbs : Int) else n.val.natAbs) = n.val := by
    split
    · rename_i hneg
      have := of_decide_eq_true hneg
      omega
    · rename_i hneg
      have := mt decide_eq_true hneg
      omega
  -- A number below zero is no minus zero.
  have hplain : (!(decide (n.val < 0) && n.val.natAbs == 0)) = true := by
    simp only [Bool.not_eq_true', Bool.and_eq_false_iff, decide_eq_false_iff_not,
      beq_eq_false_iff_ne]
    omega
  simp only [Number.ofParts?, digitsValue_toDigits, hplain, hsigned, Payload.ofInt?_val,
    Option.isNone_none, Bool.and_self, if_true]

/-! ### The readers of numbers -/

/-- No blank, bracket or comma begins a value, since each value begins with a character of
its kind. -/
theorem beginsValue_of_kindOf? {x : Char} {tail : List Char} (h : kindOf? x ≠ none) :
    BeginsValue (x :: tail) := by
  refine ⟨x, tail, rfl, ?_, ?_, ?_⟩
  · rw [isBlank]
    simp only [Bool.or_eq_false_iff, beq_eq_false_iff_ne]
    refine ⟨⟨⟨?_, ?_⟩, ?_⟩, ?_⟩ <;> rintro rfl <;> exact h rfl
  · rintro rfl
    exact h rfl
  · rintro rfl
    exact h rfl

/-- Every printed value begins as a value does. Its first character tells its kind, and such
a character is no blank. -/
theorem beginsValue_chars (j : Json) : BeginsValue j.chars := by
  obtain ⟨x, tail, hchars, hkind⟩ := kindOf?_chars j
  rw [hchars]
  refine beginsValue_of_kindOf? fun hnone => ?_
  rw [hkind] at hnone
  cases hnone

/-- The text of a whole number is a minus sign and digits, or digits, and it is the number
that is read from these. -/
theorem reads_wholeChars (rounding : Rounding) (n : Whole) : ∃ d more, d.isDigit = true ∧
    ((n.val < 0 ∧ wholeChars n.val = '-' :: d :: more ∧
        ReadsValue (readNumber rounding true) (d :: more) (.whole n)) ∨
      (¬n.val < 0 ∧ wholeChars n.val = d :: more ∧
        ReadsValue (readNumber rounding false) (d :: more) (.whole n))) := by
  have hread := readsValue_number (ofParts?_whole rounding n)
  cases hdigits : Nat.toDigits 10 n.val.natAbs with
  | nil => exact absurd hdigits Nat.toDigits_ne_nil
  | cons d more =>
      refine ⟨d, more, isDigit_toDigits n.val.natAbs d (hdigits ▸ List.mem_cons_self), ?_⟩
      rw [hdigits] at hread
      rw [wholeChars, hdigits]
      -- The sign was taken off before the digits are read, so the reader is told about it.
      by_cases hneg : n.val < 0
      · rw [decide_eq_true hneg] at hread
        exact .inl ⟨hneg, if_pos hneg, hread⟩
      · rw [decide_eq_false hneg] at hread
        exact .inr ⟨hneg, if_neg hneg, hread⟩

/-- A digit is no blank, so no reader skips it. A blank begins no value, and a digit begins a
number. -/
theorem not_blank_of_isDigit {d : Char} (h : d.isDigit = true) : isBlank d = false := by
  have hkind : kindOf? d ≠ none := by
    rw [kindOf?_digit h]
    nofun
  have hbegins : BeginsValue [d] := beginsValue_of_kindOf? hkind
  obtain ⟨_, _, heq, hblank, -, -⟩ := hbegins
  rw [(List.cons.inj heq).1, hblank]

/-- A value that begins with a digit is read as a number. The other branches of the reader
ask for characters that are no digits. -/
theorem readValue_digit {d : Char} (hd : d.isDigit = true) (rounding : Rounding) (levels : Nat)
    (tail : List Char) (pos : Position) :
    readValue rounding levels ⟨d :: tail, pos⟩
      = (readNumber rounding false ⟨d :: tail, pos⟩).map
          fun read => (readValue.ofNumber read.1, read.2) := by
  have hblank : isBlank d = false := not_blank_of_isDigit hd
  have hother : ∀ {x : Char} {more : List Char}, x.isDigit = false → d :: tail ≠ x :: more := by
    intro x more hx heq
    rw [(List.cons.inj heq).1, hx] at hd
    cases hd
  rw [readValue.eq_def]
  simp only [skipBlanks_of_not_blank hblank]
  -- None of the characters that begin other values is a digit.
  split
  any_goals exact absurd ‹_› (hother rfl)
  · exact absurd ‹_› (List.cons_ne_nil _ _)
  · rename_i heq
    obtain ⟨rfl, rfl⟩ := List.cons.inj heq
    rw [if_pos hd]

/-- A whole number is read back. The reader of values takes the sign off and leaves the
digits to the reader of numbers. -/
theorem readsValue_whole (rounding : Rounding) (levels : Nat) (n : Whole) :
    ReadsValue (readValue rounding levels) (wholeChars n.val) (.whole n) := by
  intro rest pos hrest
  obtain ⟨d, more, hd, ⟨-, hchars, hreads⟩ | ⟨-, hchars, hreads⟩⟩ :=
    reads_wholeChars rounding n
  · -- A negative number: the minus sign is the first character.
    obtain ⟨pos', hread⟩ := hreads rest (pos.past '-') hrest
    refine ⟨pos', ?_⟩
    rw [hchars, readValue.eq_def]
    show (readNumber rounding true ⟨d :: more ++ rest, pos.past '-'⟩).map _ = _
    rw [hread]
    rfl
  · obtain ⟨pos', hread⟩ := hreads rest pos hrest
    refine ⟨pos', ?_⟩
    rw [hchars, List.cons_append, readValue_digit hd, ← List.cons_append, hread]
    rfl

/-- A whole number of 64 bits with a sign is read back by the reader that takes such numbers
only. Timestamps of proofs are read by it. -/
theorem readsValue_int64 {n : Int} (hlow : -9223372036854775808 ≤ n)
    (hhigh : n < 9223372036854775808) (levels : Nat) :
    ReadsValue (readInt64 levels) (wholeChars n) n := by
  intro rest pos hrest
  have haccept : ∀ c : Cursor, readInt64.accept (.whole ⟨n, hlow, by omega⟩, c) = .ok (n, c) :=
    fun _ => if_pos hhigh
  obtain ⟨d, more, hd, ⟨-, hchars, hreads⟩ | ⟨-, hchars, hreads⟩⟩ :=
    reads_wholeChars .stepwise ⟨n, hlow, by omega⟩
  · obtain ⟨pos', hread⟩ := hreads rest (pos.past '-') hrest
    refine ⟨pos', ?_⟩
    rw [hchars]
    show (readNumber .stepwise true ⟨d :: more ++ rest, pos.past '-'⟩ >>= readInt64.accept) = _
    rw [hread]
    exact haccept _
  · obtain ⟨pos', hread⟩ := hreads rest pos hrest
    refine ⟨pos', ?_⟩
    rw [hchars, List.cons_append, readInt64]
    simp only [skipBlanks_of_not_blank (not_blank_of_isDigit hd)]
    -- What begins with a digit does not begin with a minus sign.
    split
    · exact absurd ‹_› (List.cons_ne_nil _ _)
    · rename_i heq
      rw [(List.cons.inj heq).1] at hd
      exact absurd hd (by decide)
    · rename_i heq
      obtain ⟨rfl, rfl⟩ := List.cons.inj heq
      rw [if_pos hd]
      show (readNumber .stepwise false ⟨d :: more ++ rest, pos⟩ >>= readInt64.accept) = _
      rw [hread]
      exact haccept _

/-! ### Values -/

/-- A list is printed as its items with commas between them. The printer recurses on the
items and its equations are for the first one, while the reader is specified on the whole
list of parts; the induction needs the second item, before which the comma stands. -/
theorem chars_list (items : List Json) : chars (.list items) = listChars (items.map chars) := by
  have hitems : ∀ items : List Json,
      itemChars items = List.intercalate [','] (items.map chars) := by
    intro items
    induction items with
    | nil => rfl
    | cons item rest ih =>
        cases rest with
        | nil => exact (List.intercalate_singleton ..).symm
        | cons next rest =>
            rw [itemChars, ih]
            simp [List.intercalate_cons_cons]
  rw [chars, hitems]
  rfl

/-- An object is printed as its fields with commas between them. The induction is that of
`chars_list`, with the name and the colon in front of each value. -/
theorem chars_object (fields : List (String × Json)) :
    chars (.object fields) = objectChars (fields.map fun field => (field.1, field.2.chars)) := by
  have hfields : ∀ fields : List (String × Json), fieldChars fields
      = List.intercalate [','] ((fields.map fun field => (field.1, field.2.chars)).map
          fieldText) := by
    intro fields
    induction fields with
    | nil => rfl
    | cons field rest ih =>
        cases rest with
        | nil => exact (List.intercalate_singleton ..).symm
        | cons next rest =>
            rw [fieldChars, ih]
            -- A comma stands before the next field.
            simp [fieldText, List.intercalate_cons_cons]
  rw [chars, hfields]
  rfl

/-- Items are sorted each for itself. The recursion is written out in the definition because
it is nested in that on values. -/
theorem sortedItems_eq_map (items : List Json) : sortedItems items = items.map sorted := by
  induction items with
  | nil => rfl
  | cons item rest ih => rw [sortedItems, ih, List.map_cons]

/-- Printed fields are put into their places one after another, which is how they are sorted. -/
theorem fills_sortedFields {rounding : Rounding} {levels : Nat} (fields : Fields) (done : Fields)
    (h : ∀ field ∈ fields, ReadsValue (readValue rounding levels) field.2.chars field.2.sorted) :
    Fills (readValue.field (readValue rounding levels)) done
      (fields.map fun field => (field.1, field.2.chars)) (sortedFields fields done) := by
  induction fields generalizing done with
  | nil => exact .done done
  | cons field rest ih =>
      obtain ⟨hfirst, hrest⟩ := List.forall_mem_cons.1 h
      -- The first field is put among those that are done, and the others after it.
      refine .more ?_ (ih (done.insert field.1 field.2.sorted) hrest)
      intro after pos hafter
      obtain ⟨pos', hread⟩ := hfirst after (pos.past ':') hafter
      refine ⟨pos', ?_⟩
      show (readValue rounding levels ⟨field.2.chars ++ after, pos.past ':'⟩ >>= _) = _
      rw [hread]
      rfl

/-- The literal for nothing is read back. Its four characters are taken off one by one,
whatever follows them. -/
theorem readsValue_null (rounding : Rounding) (levels : Nat) :
    ReadsValue (readValue rounding levels) (chars .null) .null := by
  intro rest pos _
  refine ⟨(((pos.past 'n').past 'u').past 'l').past 'l', ?_⟩
  rw [readValue.eq_def]
  rfl

/-- The literals for truth values are read back. Each of the two has its own spelling, so
there are two cases. -/
theorem readsValue_bool (rounding : Rounding) (levels : Nat) (b : Bool) :
    ReadsValue (readValue rounding levels) (chars (.bool b)) (.bool b) := by
  intro rest pos _
  cases b with
  | true =>
      refine ⟨(((pos.past 't').past 'r').past 'u').past 'e', ?_⟩
      rw [readValue.eq_def]
      rfl
  | false =>
      refine ⟨((((pos.past 'f').past 'a').past 'l').past 's').past 'e', ?_⟩
      rw [readValue.eq_def]
      rfl

/-- A text is read back: its opening quote is passed, and the rest is what the reader of
texts takes. -/
theorem readsValue_text (rounding : Rounding) (levels : Nat) (s : String) :
    ReadsValue (readValue rounding levels) (chars (.text s)) (.text s) := by
  intro rest pos _
  obtain ⟨pos', htext⟩ := reads_readText s rest (pos.past '"')
  refine ⟨pos', ?_⟩
  rw [readValue.eq_def]
  show (readText ⟨(s.toList.flatMap escape ++ ['"']) ++ rest, pos.past '"'⟩).map _ = _
  rw [htext]
  rfl

/-- A list is read back on one more level than its items. The items are read by the reader of
the level below, which the hypothesis speaks of. -/
theorem readsValue_list {rounding : Rounding} {levels : Nat} {items : List Json}
    (h : ∀ item ∈ items, ReadsValue (readValue rounding levels) item.chars item.sorted) :
    ReadsValue (readValue rounding (levels + 1)) (chars (.list items)) (sorted (.list items)) := by
  intro rest pos hrest
  obtain ⟨pos', hread⟩ := readItems_list items (fun item _ => beginsValue_chars item) h
    rest (pos.past '[')
  refine ⟨pos', ?_⟩
  rw [chars_list, sorted, sortedItems_eq_map, readValue.eq_def]
  show (readItems (readValue rounding levels) ((listChars (items.map chars) ++ rest).length + 1)
    true ⟨List.intercalate [','] (items.map chars) ++ [']'] ++ rest, pos.past '['⟩).map _ = _
  rw [hread]
  rfl

/-- An object is read back on one more level than its values, its fields in order. The fields
come back sorted, because the reader puts each into its place, whatever their order in the
text. -/
theorem readsValue_object {rounding : Rounding} {levels : Nat} {fields : Fields}
    (h : ∀ field ∈ fields, ReadsValue (readValue rounding levels) field.2.chars field.2.sorted) :
    ReadsValue (readValue rounding (levels + 1)) (chars (.object fields))
      (sorted (.object fields)) := by
  intro rest pos hrest
  obtain ⟨pos', hread⟩ := readFields_objectChars (fills_sortedFields fields [] h)
    rest (pos.past '\x7b')
  refine ⟨pos'.past '\x7d', ?_⟩
  rw [chars_object, readValue.eq_def]
  -- The reader has one turn for each character that is left.
  show (readFields (readValue.field (readValue rounding levels))
    ((objectChars (fields.map fun field => (field.1, field.2.chars)) ++ rest).length + 1)
    true [] ⟨List.intercalate [','] ((fields.map fun field =>
      (field.1, field.2.chars)).map fieldText) ++ ['\x7d'] ++ rest, pos.past '\x7b'⟩).map _ = _
  rw [hread]
  rfl

/-- A value without floats is read back with its fields in order, if there are enough levels.
A bracket takes one level, and what stands in it is less deep by one. -/
theorem readsValue_sorted (rounding : Rounding) (levels : Nat) (j : Json) (hfloats : j.FloatFree)
    (hdepth : j.depth ≤ levels) : ReadsValue (readValue rounding levels) j.chars j.sorted := by
  induction levels using Nat.strongRecOn generalizing j with
  | ind levels ih =>
      cases j with
      | null => exact readsValue_null rounding levels
      | bool b => exact readsValue_bool rounding levels b
      | whole n => exact readsValue_whole rounding levels n
      | float x => exact absurd (.self _) (hfloats x)
      | text s => exact readsValue_text rounding levels s
      | list items =>
          obtain ⟨k, rfl⟩ : ∃ k, levels = k + 1 := ⟨levels - 1, by rw [depth] at hdepth; omega⟩
          refine readsValue_list fun item hitem =>
            ih k (Nat.lt_succ_self k) item (floatFree_list.1 hfloats item hitem) ?_
          have := depth_lt_of_mem_items hitem
          omega
      | object fields =>
          obtain ⟨k, rfl⟩ : ∃ k, levels = k + 1 := ⟨levels - 1, by rw [depth] at hdepth; omega⟩
          refine readsValue_object fun field hfield =>
            ih k (Nat.lt_succ_self k) field.2 (floatFree_object.1 hfloats field hfield) ?_
          have := depth_lt_of_mem_fields hfield
          omega

/-- A value without floats and with its fields in order is read back as it is. A float is
excluded because the reader rounds its digits in steps, which may end at a neighbour. -/
theorem readsValue_ordered (rounding : Rounding) {levels : Nat} {j : Json} (hordered : j.Ordered)
    (hfloats : j.FloatFree) (hdepth : j.depth ≤ levels) :
    ReadsValue (readValue rounding levels) j.chars j := by
  have h := readsValue_sorted rounding levels j hfloats hdepth
  rwa [sorted_of_ordered j hordered] at h

end Keyring.Json
