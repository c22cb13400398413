import Keyring.Proofs.Decimal.Notation
import Keyring.Proofs.Json.Text

/-!
# `Keyring.Proofs.Json.Printer`: a text is printed for one value

Two values printed in front of texts that no number could run into are the same
if the whole texts are, and so are the texts behind them. The first character
tells the kind of a value, a number ends where its characters end, a quoted text
is read back, and in lists and objects the commas and brackets show what is left.
The theorems:

* `kind_eq_of_chars`: the kind of a value shows at its first character.
* `chars_cancel`: nothing but the value itself is printed as it is.
* `chars_inj`: two values printed as the same characters are the same.
-/

set_option autoImplicit false

namespace Keyring.Json

open Decimal (Numeric isDigit_toDigits)

/-! ### Where a number ends -/

/-- A text that no number goes on with. -/
def Ends (rest : List Char) : Prop := ∀ c tail, rest = c :: tail → ¬ Numeric c

/-- A number ends where the text ends. There is no next character that could belong to it. -/
theorem ends_nil : Ends [] := fun _ _ heq => by cases heq

/-- A number ends before a character that is not numeric. A comma and the two closing
brackets are such characters. -/
theorem ends_cons {c : Char} (h : ¬ Numeric c) (tail : List Char) : Ends (c :: tail) :=
  fun _ _ heq => (List.cons.inj heq).1 ▸ h

/-- Numeric characters end where a text begins that no number goes on with. So two texts that
begin with such characters have the same ones in front. -/
theorem numeric_cancel {x y a b : List Char} (hx : ∀ c ∈ x, Numeric c) (hy : ∀ c ∈ y, Numeric c)
    (ha : Ends a) (hb : Ends b) (h : x ++ a = y ++ b) : x = y ∧ a = b := by
  induction x generalizing y with
  | nil =>
      cases y with
      | nil => exact ⟨rfl, h⟩
      | cons d y => exact absurd (hy d (List.mem_cons_self ..)) (ha d (y ++ b) h)
  | cons c x ih =>
      cases y with
      | nil => exact absurd (hx c (List.mem_cons_self ..)) (hb c (x ++ a) h.symm)
      | cons d y =>
          obtain ⟨rfl, hrest⟩ := List.cons.inj h
          obtain ⟨rfl, rfl⟩ := ih (List.forall_mem_cons.1 hx).2 (List.forall_mem_cons.1 hy).2 hrest
          exact ⟨rfl, rfl⟩

/-! ### Whole numbers -/

/-- Numbers with the same digits are the same, since the digits are read back. -/
theorem toDigits_inj {m n : Nat} (h : Nat.toDigits 10 m = Nat.toDigits 10 n) : m = n := by
  rw [← Nat.ofDigitChars_ten_toDigits (n := m), h, Nat.ofDigitChars_ten_toDigits]

/-- A whole number is digits with or without a sign before them. The digits are those of the
absolute value in both cases. -/
theorem wholeChars_cases (n : Int) :
    (n < 0 ∧ wholeChars n = '-' :: Nat.toDigits 10 n.natAbs) ∨
      (0 ≤ n ∧ wholeChars n = Nat.toDigits 10 n.natAbs) := by
  unfold wholeChars
  split
  · exact .inl ⟨‹_›, rfl⟩
  · exact .inr ⟨Int.not_lt.1 ‹_›, rfl⟩

/-- Whole numbers that are written alike are the same. A sign is no digit, so both have one
or neither has. -/
theorem wholeChars_inj {m n : Int} (h : wholeChars m = wholeChars n) : m = n := by
  have hminus : ∀ k : Nat, '-' ∉ Nat.toDigits 10 k := fun k =>
    Decimal.not_mem_of_isDigit rfl (isDigit_toDigits k)
  rcases wholeChars_cases m with ⟨hm, hmc⟩ | ⟨hm, hmc⟩ <;>
    rcases wholeChars_cases n with ⟨hn, hnc⟩ | ⟨hn, hnc⟩ <;> rw [hmc, hnc] at h
  · have := toDigits_inj (List.cons.inj h).2
    omega
  · exact absurd (h ▸ List.mem_cons_self ..) (hminus n.natAbs)
  · exact absurd (h ▸ List.mem_cons_self ..) (hminus m.natAbs)
  · have := toDigits_inj h
    omega

/-- A whole number is written with numeric characters only. So a number ends at the first
comma or bracket behind it. -/
theorem numeric_wholeChars (n : Int) : ∀ c ∈ wholeChars n, Numeric c := by
  have hdigits : ∀ c ∈ Nat.toDigits 10 n.natAbs, Numeric c :=
    fun c hc => .inl (isDigit_toDigits _ c hc)
  rcases wholeChars_cases n with ⟨-, h⟩ | ⟨-, h⟩ <;> rw [h]
  · exact List.forall_mem_cons.2 ⟨.inr (by decide), hdigits⟩
  · exact hdigits

/-- A whole number has no point and no exponent, nor any other mark but the sign. -/
theorem not_mem_wholeChars (n : Int) {mark : Char} (hdigit : mark.isDigit = false)
    (hmark : mark ≠ '-') : mark ∉ wholeChars n := by
  have h := Decimal.not_mem_of_isDigit hdigit (isDigit_toDigits n.natAbs)
  rcases wholeChars_cases n with ⟨-, heq⟩ | ⟨-, heq⟩ <;> rw [heq]
  · exact List.not_mem_cons_of_ne_of_not_mem hmark h
  · exact h

/-! ### The kind of a value -/

/-- What kind of value a value is; numbers are one kind. -/
inductive Kind where
  | null
  | bool
  | number
  | text
  | list
  | object

/-- The kind of a value. -/
def kind : Json → Kind
  | .null => .null
  | .bool _ => .bool
  | .whole _ | .float _ => .number
  | .text _ => .text
  | .list _ => .list
  | .object _ => .object

/-- The kind of the values that begin with a character. -/
def kindOf? (c : Char) : Option Kind :=
  if c.isDigit ∨ c = '-' then some .number
  else match c with
    | 'n' => some .null
    | 't' | 'f' => some .bool
    | '"' => some .text
    | '[' => some .list
    | '\x7b' => some .object
    | _ => none

/-- A digit begins a number. A number that begins with a sign is told by the sign. -/
theorem kindOf?_digit {c : Char} (h : c.isDigit = true) : kindOf? c = some .number :=
  if_pos (.inl h)

/-- The first character of a value shows its kind. The kinds are few and their first
characters different, which is what makes the printed form unambiguous. -/
theorem kindOf?_chars (j : Json) : ∃ c rest, j.chars = c :: rest ∧ kindOf? c = some j.kind := by
  have hdigits : ∀ digits : List Char, Decimal.Numeral digits → ∃ c rest, digits = c :: rest ∧
      kindOf? c = some .number := fun digits h => by
    obtain ⟨c, rest, heq, hdigit⟩ := h.first
    exact ⟨c, rest, heq, kindOf?_digit hdigit⟩
  cases j with
  | null => exact ⟨_, _, rfl, rfl⟩
  | bool b => cases b <;> exact ⟨_, _, rfl, rfl⟩
  | whole n =>
      rw [chars]
      rcases wholeChars_cases n.val with ⟨-, h⟩ | ⟨-, h⟩ <;> rw [h]
      · exact ⟨_, _, rfl, rfl⟩
      · exact hdigits _ (Decimal.numeral_of_digits Nat.toDigits_ne_nil (isDigit_toDigits _))
  | float x =>
      rw [chars, Decimal.Binary.chars_eq]
      -- Both kinds of numbers begin with a sign or with a digit.
      cases x.negative
      · exact hdigits _ (Decimal.Binary.numeral_unsigned .canonical x)
      · exact ⟨_, _, rfl, rfl⟩
  | text s => exact ⟨_, _, rfl, rfl⟩
  | list items => exact ⟨_, _, rfl, rfl⟩
  | object fields => exact ⟨_, _, rfl, rfl⟩

/-- Values of two kinds do not begin alike. The first character tells the kind, and it is the
first of both texts. It splits the comparison of two values into one comparison for each
kind. -/
theorem kind_eq_of_chars {v w : Json} {a b : List Char} (h : v.chars ++ a = w.chars ++ b) :
    v.kind = w.kind := by
  obtain ⟨c, rest, hv, hc⟩ := kindOf?_chars v
  obtain ⟨d, tail, hw, hd⟩ := kindOf?_chars w
  rw [hv, hw] at h
  rw [(List.cons.inj h).1, hd] at hc
  exact (Option.some.inj hc).symm

/-- No value begins with a character that is not the first of any kind, such as a comma or a
closing bracket. -/
theorem chars_append_ne_cons (j : Json) {c : Char} (hc : kindOf? c = none) {a rest : List Char} :
    j.chars ++ a ≠ c :: rest := fun h => by
  obtain ⟨d, tail, hj, hd⟩ := kindOf?_chars j
  rw [hj] at h
  rw [(List.cons.inj h).1, hc] at hd
  cases hd

/-! ### Texts and numbers -/

/-- Two quoted texts at the beginning of one text are the same. The reader of texts takes
them off, and it has one result. -/
theorem quoted_cancel {s t : String} {a b : List Char} (h : quoted s ++ a = quoted t ++ b) :
    s = t ∧ a = b :=
  (reads_readText s).cancel (reads_readText t) (List.cons.inj h).2

/-- Numbers of both kinds are written with numeric characters only. There are two
constructors of numbers, and the statement is about both. -/
theorem numeric_of_kind {j : Json} (h : j.kind = .number) : ∀ c ∈ j.chars, Numeric c := by
  cases j with
  | whole n => exact numeric_wholeChars n.val
  | float x => exact x.numeric_chars .canonical
  | _ => cases h

/-- A float shows a point or an exponent, and a whole number does not. So the two kinds of
numbers are never written alike. -/
theorem whole_chars_ne_float (n : Whole) (x : Decimal.Binary .double) :
    chars (.whole n) ≠ chars (.float x) := fun h => by
  have heq : wholeChars n.val = x.chars .canonical := h
  have hmarked : '.' ∈ x.chars .canonical ∨ 'e' ∈ x.chars .canonical :=
    Decimal.Binary.marked rfl x
  rw [← heq] at hmarked
  rcases hmarked with hmem | hmem
  · exact not_mem_wholeChars n.val rfl (by decide) hmem
  · exact not_mem_wholeChars n.val rfl (by decide) hmem

/-- Numbers with the same characters are the same, within each of the two kinds and between
them. -/
theorem number_inj {v w : Json} (hv : v.kind = .number) (hw : w.kind = .number)
    (h : v.chars = w.chars) : v = w := by
  cases v with
  | whole m =>
      cases w with
      | whole n =>
          obtain ⟨m, hm₁, hm₂⟩ := m
          obtain ⟨n, hn₁, hn₂⟩ := n
          obtain rfl : m = n := wholeChars_inj h
          rfl
      | float y => exact absurd h (whole_chars_ne_float m y)
      | _ => cases hw
  | float x =>
      cases w with
      | whole n => exact absurd h.symm (whole_chars_ne_float n x)
      | float y =>
          have hchars : x.chars .canonical = y.chars .canonical := h
          exact congrArg Json.float (Decimal.Binary.chars_inj (by decide) (by decide) hchars)
      | _ => cases hw
  | _ => cases hv

/-- Two numbers at the beginning of one text are the same, if each ends where a number may
end. -/
theorem number_cancel {v w : Json} (hv : v.kind = .number) (hw : w.kind = .number)
    {a b : List Char} (ha : Ends a) (hb : Ends b) (h : v.chars ++ a = w.chars ++ b) :
    v = w ∧ a = b := by
  obtain ⟨hchars, hrest⟩ := numeric_cancel (numeric_of_kind hv) (numeric_of_kind hw) ha hb h
  exact ⟨number_inj hv hw hchars, hrest⟩

/-! ### Lists and objects -/

/-- The characters after an item: the end of all items, or a comma and the items left. -/
def continued {α : Type} (print : List α → List Char) (close : Char) (left : List α)
    (rest : List Char) : List Char :=
  match left with
  | [] => close :: rest
  | _ :: _ => ',' :: (print left ++ close :: rest)

/-- A list that is open is its first item and what shows behind it: a comma and more items,
or the closing bracket. -/
theorem itemChars_cons (item : Json) (left : List Json) (rest : List Char) :
    itemChars (item :: left) ++ ']' :: rest = item.chars ++ continued itemChars ']' left rest := by
  cases left with
  | nil => rfl
  | cons next left =>
      rw [itemChars, List.append_assoc]
      rfl

/-- An object that is open is its first name, a colon, the value and what shows behind it. -/
theorem fieldChars_cons (name : String) (value : Json) (left : List (String × Json))
    (rest : List Char) : fieldChars ((name, value) :: left) ++ '\x7d' :: rest
      = quoted name ++ ':' :: (value.chars ++ continued fieldChars '\x7d' left rest) := by
  cases left with
  | nil =>
      rw [fieldChars, List.append_assoc]
      rfl
  | cons next left =>
      rw [fieldChars, List.append_assoc, List.append_assoc]
      rfl

section

variable {α : Type} {print : List α → List Char} {close : Char}

/-- Behind an item no number goes on: there stands a comma or a closing bracket. -/
theorem ends_continued (hclose : ¬ Numeric close) (left : List α) (rest : List Char) :
    Ends (continued print close left rest) := by
  cases left with
  | nil => exact ends_cons hclose _
  | cons => exact ends_cons (by decide) _

/-- Behind an item it shows whether there is another, and what the items left are printed as. -/
theorem continued_cancel (hnil : print [] = []) (hclose : close ≠ ',') {xs ys : List α}
    {a b : List Char} (h : continued print close xs a = continued print close ys b) :
    print xs ++ close :: a = print ys ++ close :: b := by
  cases xs with
  | nil =>
      cases ys with
      | nil =>
          rw [hnil]
          exact h
      | cons => exact absurd (List.cons.inj h).1 hclose
  | cons =>
      cases ys with
      | nil => exact absurd (List.cons.inj h).1.symm hclose
      | cons => exact (List.cons.inj h).2

end

/-- Brackets are moved to the ends of a text, which is the form that the cancellation needs. -/
theorem append_bracket (opening closing : Char) (inner rest : List Char) :
    (opening :: inner ++ [closing]) ++ rest = opening :: (inner ++ closing :: rest) := by
  simp

mutual

/-- Nothing but the value itself is printed as it is, at the beginning of a text that a value
may end before. The recursion is over the first value; its kind is that of the second. -/
theorem chars_cancel : (v w : Json) → {a b : List Char} → Ends a → Ends b →
    v.chars ++ a = w.chars ++ b → v = w ∧ a = b
  | .null, w, a, b, _, _, h => by
    have hkind := kind_eq_of_chars h
    cases w with
    | null => exact ⟨rfl, List.append_cancel_left h⟩
    | _ => cases hkind
  | .bool x, w, a, b, _, _, h => by
    have hkind := kind_eq_of_chars h
    cases w with
    | bool y =>
      cases x <;> cases y
      · exact ⟨rfl, List.append_cancel_left h⟩
      · exact absurd (List.cons.inj h).1 (by decide)
      · exact absurd (List.cons.inj h).1 (by decide)
      · exact ⟨rfl, List.append_cancel_left h⟩
    | _ => cases hkind
  | .whole _, _, _, _, ha, hb, h => number_cancel rfl (kind_eq_of_chars h).symm ha hb h
  | .float _, _, _, _, ha, hb, h => number_cancel rfl (kind_eq_of_chars h).symm ha hb h
  | .text s, w, a, b, _, _, h => by
    have hkind := kind_eq_of_chars h
    cases w with
    | text t =>
      obtain ⟨rfl, rfl⟩ := quoted_cancel h
      exact ⟨rfl, rfl⟩
    | _ => cases hkind
  | .list xs, w, a, b, _, _, h => by
    have hkind := kind_eq_of_chars h
    cases w with
    | list ys =>
      rw [chars, chars, append_bracket, append_bracket] at h
      obtain ⟨rfl, rfl⟩ := items_cancel xs ys (List.cons.inj h).2
      exact ⟨rfl, rfl⟩
    | _ => cases hkind
  | .object xs, w, a, b, _, _, h => by
    have hkind := kind_eq_of_chars h
    cases w with
    | object ys =>
      rw [chars, chars, append_bracket, append_bracket] at h
      obtain ⟨rfl, rfl⟩ := fields_cancel xs ys (List.cons.inj h).2
      exact ⟨rfl, rfl⟩
    | _ => cases hkind

/-- Two open lists that are printed alike have the same items. The induction goes along both
lists, and a list that ends first has a bracket where the other has a comma. -/
theorem items_cancel : (xs ys : List Json) → {a b : List Char} →
    itemChars xs ++ ']' :: a = itemChars ys ++ ']' :: b → xs = ys ∧ a = b
  | [], [], a, b, h => ⟨rfl, (List.cons.inj h).2⟩
  | [], y :: ys, a, b, h => by
    rw [itemChars_cons] at h
    exact absurd h.symm (chars_append_ne_cons y rfl)
  | x :: xs, [], a, b, h => by
    rw [itemChars_cons] at h
    exact absurd h (chars_append_ne_cons x rfl)
  | x :: xs, y :: ys, a, b, h => by
    rw [itemChars_cons, itemChars_cons] at h
    -- Behind both items stands a comma or the bracket, and a number ends before either.
    obtain ⟨rfl, hrest⟩ := chars_cancel x y (ends_continued (by decide) xs a)
      (ends_continued (by decide) ys b) h
    obtain ⟨rfl, rfl⟩ := items_cancel xs ys (continued_cancel rfl (by decide) hrest)
    exact ⟨rfl, rfl⟩

/-- Two open objects that are printed alike have the same fields, in the same order. -/
theorem fields_cancel : (xs ys : List (String × Json)) → {a b : List Char} →
    fieldChars xs ++ '\x7d' :: a = fieldChars ys ++ '\x7d' :: b → xs = ys ∧ a = b
  | [], [], a, b, h => ⟨rfl, (List.cons.inj h).2⟩
  | [], (_, _) :: _, _, _, h => by
    rw [fieldChars_cons] at h
    exact absurd (List.cons.inj h).1 (by decide)
  | (_, _) :: _, [], _, _, h => by
    rw [fieldChars_cons] at h
    exact absurd (List.cons.inj h).1 (by decide)
  | (n, x) :: xs, (m, y) :: ys, a, b, h => by
    rw [fieldChars_cons, fieldChars_cons] at h
    -- A quoted name ends at its quote, whatever follows.
    obtain ⟨rfl, hvalue⟩ := quoted_cancel h
    obtain ⟨rfl, hrest⟩ := chars_cancel x y (ends_continued (by decide) xs a)
      (ends_continued (by decide) ys b) (List.cons.inj hvalue).2
    obtain ⟨rfl, rfl⟩ := fields_cancel xs ys (continued_cancel rfl (by decide) hrest)
    exact ⟨rfl, rfl⟩

end

/-- Values that are printed as the same characters are the same. Nothing follows either text,
and a number ends where its text ends. The printer is therefore unambiguous for values with
sorted fields, which is what a signature relies on. -/
theorem chars_inj {v w : Json} (h : v.chars = w.chars) : v = w :=
  (chars_cancel v w ends_nil ends_nil (congrArg (· ++ []) h)).1

/-- Values with the same printed text are the same. The printer loses nothing of a value, its
zeros and the order of its fields included. -/
theorem render_inj {v w : Json} (h : v.render = w.render) : v = w :=
  chars_inj (String.ofList_injective h)

end Keyring.Json
