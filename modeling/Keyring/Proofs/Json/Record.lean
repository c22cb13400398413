import Keyring.Json.Record
import Keyring.Proofs.Json.Text

/-!
# `Keyring.Proofs.Json.Record`: printed records and lists are read back

A record is printed as an object with its fields in order, a list as its items
with commas between them. The theorems:

* `reads_record`: a record is read back from its printed fields, if each
  field's reader reads what was printed for it.
* `reads_list`: a list is read back from its printed items.
* `readAll_of_reads`: a whole text is read as the value that it was printed for.

Both loops run over parts that follow each other with a comma, so each has one
step lemma for a part and an induction over the parts. A step of a record's
loop fills one slot; `Fills` is the run of such steps.
-/

set_option autoImplicit false

namespace Keyring.Json

open Cursor

/-! ### Parts with commas between them -/

/-- All parts after the first follow a comma. In this form a list of parts can be taken apart
from the front. -/
theorem intercalate_comma (part : List Char) (parts : List (List Char)) :
    List.intercalate [','] (part :: parts) = part ++ parts.flatMap (',' :: ·) := by
  induction parts generalizing part with
  | nil => rw [List.intercalate_singleton, List.flatMap_nil, List.append_nil]
  | cons next parts ih =>
      rw [List.intercalate_cons_cons, ih next, List.flatMap_cons, List.append_assoc]
      rfl

/-- Behind a part stands another one after a comma, or the closing bracket. Both may follow a
value. -/
theorem follows_parts {close : Char} (hclose : close = ']' ∨ close = '\x7d')
    (parts : List (List Char)) (rest : List Char) :
    Follows (parts.flatMap (',' :: ·) ++ close :: rest) := by
  cases parts with
  | nil => exact follows_cons (.inr hclose) rest
  | cons part parts => exact follows_cons (.inl rfl) _

/-- Nothing is skipped in front of a character that is no blank, and the printer writes no
blanks. -/
theorem skipBlanks_of_not_blank {x : Char} (h : isBlank x = false) (rest : List Char)
    (pos : Position) : skipBlanks ⟨x :: rest, pos⟩ = ⟨x :: rest, pos⟩ := by
  show (if isBlank x then _ else _) = _
  rw [h]
  rfl

/-! ### Texts -/

/-- A quoted text is read as what `accept` makes of it. The reader takes the text first and
asks about it afterwards. -/
theorem reads_textAs {α : Type} {accept : String → Except String α} {s : String} {x : α}
    (h : accept s = .ok x) (expected : String) (levels : Nat) :
    Reads (readTextAs expected accept levels) (quoted s) x := by
  intro rest pos
  obtain ⟨pos', htext⟩ := reads_readText s rest (pos.past '"')
  refine ⟨pos', ?_⟩
  show (readText ⟨(s.toList.flatMap escape ++ ['"']) ++ rest, pos.past '"'⟩ >>= _) = _
  rw [htext]
  simp only [bind, Except.bind, h]

/-- A quoted text is read as itself. It is the case of a text that is taken as it is, without
a type that reads more into it. -/
theorem reads_string (s : String) (levels : Nat) : Reads (readString levels) (quoted s) s :=
  reads_textAs rfl _ levels

/-! ### Fields -/

/-- A field as it is printed. -/
def fieldText (part : String × List Char) : List Char := quoted part.1 ++ ':' :: part.2

/-- One turn over a printed field, after a comma unless it is the first, fills its slot. Once
the comma and the opening quote are passed, both kinds of turns are the same. -/
theorem readFields_field {σ : Type} {field : String → σ → Cursor → Except Fault (σ × Cursor)}
    {state state' : σ} {part : String × List Char}
    (h : ReadsValue (field part.1 state) (':' :: part.2) state') (first : Bool) (turns : Nat)
    {rest : List Char} (hrest : Follows rest) (pos : Position) :
    ∃ pos', readFields field (turns + 1) first state
        ⟨(if first then [] else [',']) ++ (fieldText part ++ rest), pos⟩
      = readFields field turns false state' ⟨rest, pos'⟩ := by
  obtain ⟨name, chars⟩ := part
  -- Once the comma and the opening quote are passed, both kinds of turns are the same.
  have hname : ∀ start : Position, ∃ pos',
      (readText ⟨name.toList.flatMap escape ++ ['"'] ++ (':' :: chars ++ rest), start⟩ >>=
          fun read => field read.1 state read.2 >>= fun filled =>
            readFields field turns false filled.1 filled.2)
        = readFields field turns false state' ⟨rest, pos'⟩ := by
    intro start
    obtain ⟨pos', htext⟩ := reads_readText name (':' :: chars ++ rest) start
    obtain ⟨pos'', hfield⟩ := h rest pos' hrest
    refine ⟨pos'', ?_⟩
    rw [htext]
    show (field name state ⟨':' :: chars ++ rest, pos'⟩ >>= _) = _
    rw [hfield]
    rfl
  have htext : fieldText (name, chars) ++ rest
      = '"' :: (name.toList.flatMap escape ++ ['"'] ++ (':' :: chars ++ rest)) := by
    simp only [fieldText, quoted, List.cons_append, List.append_assoc]
  rw [htext]
  cases first with
  | true => exact hname (pos.past '"')
  | false => exact hname ((pos.past ',').past '"')

/-- Slots are filled one after another by the printed fields. -/
inductive Fills {σ : Type} (field : String → σ → Cursor → Except Fault (σ × Cursor)) :
    σ → List (String × List Char) → σ → Prop
  | done (state : σ) : Fills field state [] state
  | more {state state' state'' : σ} {part : String × List Char}
      {parts : List (String × List Char)} :
      ReadsValue (field part.1 state) (':' :: part.2) state' → Fills field state' parts state'' →
      Fills field state (part :: parts) state''

/-- The fields after the first are read up to the closing brace. Induction on the way in
which they fill their slots, one turn for each. -/
theorem readFields_fills {σ : Type} {field : String → σ → Cursor → Except Fault (σ × Cursor)}
    {state state' : σ} {parts : List (String × List Char)} (h : Fills field state parts state') :
    ∀ (turns : Nat) (rest : List Char) (pos : Position), parts.length < turns →
      ∃ pos', readFields field turns false state
          ⟨(parts.map fieldText).flatMap (',' :: ·) ++ '\x7d' :: rest, pos⟩
        = .ok (state', ⟨'\x7d' :: rest, pos'⟩) := by
  induction h with
  | done state =>
      intro turns rest pos hturns
      obtain ⟨k, rfl⟩ : ∃ k, turns = k + 1 := ⟨turns - 1, by omega⟩
      exact ⟨pos, rfl⟩
  | more hfield _ ih =>
      rename_i part parts _
      intro turns rest pos hturns
      obtain ⟨k, rfl⟩ : ∃ k, turns = k + 1 := ⟨turns - 1, by omega⟩
      have hk : parts.length < k := by
        rw [List.length_cons] at hturns
        omega
      -- One turn takes the comma and the field; the other fields are left to the turns after it.
      obtain ⟨pos', hstep⟩ := readFields_field hfield false k
        (follows_parts (.inr rfl) (parts.map fieldText) rest) pos
      obtain ⟨pos'', hrest⟩ := ih k rest pos' hk
      refine ⟨pos'', ?_⟩
      rw [← hrest, ← hstep, List.map_cons, List.flatMap_cons, List.append_assoc]
      rfl

/-- The fields of an object are read up to the closing brace. The first field has no comma in
front of it; the induction is over those after it. -/
theorem readFields_object {σ : Type} {field : String → σ → Cursor → Except Fault (σ × Cursor)}
    {state state' : σ} {parts : List (String × List Char)} (h : Fills field state parts state')
    {turns : Nat} (hturns : parts.length < turns) (rest : List Char) (pos : Position) :
    ∃ pos', readFields field turns true state
        ⟨List.intercalate [','] (parts.map fieldText) ++ '\x7d' :: rest, pos⟩
      = .ok (state', ⟨'\x7d' :: rest, pos'⟩) := by
  obtain ⟨k, rfl⟩ : ∃ k, turns = k + 1 := ⟨turns - 1, by omega⟩
  -- The first field has no comma in front of it; the induction is over those after it.
  cases h with
  | done state => exact ⟨pos, rfl⟩
  | more hfield hfills =>
      rename_i part parts
      have hk : parts.length < k := by
        rw [List.length_cons] at hturns
        omega
      obtain ⟨pos', hstep⟩ := readFields_field hfield true k
        (follows_parts (.inr rfl) (parts.map fieldText) rest) pos
      obtain ⟨pos'', hrest⟩ := readFields_fills hfills k rest pos' hk
      refine ⟨pos'', ?_⟩
      rw [← hrest, ← hstep, List.map_cons, intercalate_comma, List.append_assoc]
      rfl

/-! ### Records -/

/-- Every slot is filled. -/
def Slots.full : {types : List Type} → Row types → Slots types
  | [], _ => ()
  | _ :: _, (x, row) => (some x, full row)

/-- The fields of a layout stand in order, each printed so that its reader reads it, and no
name stands twice. -/
inductive Layout.Spelled (levels : Nat) :
    {types : List Type} → Layout types → List (String × List Char) → Row types → Prop
  | done : Spelled levels .done [] ()
  | field {α : Type} {types : List Type} {first : Field α} {more : Layout types}
      {chars : List Char} {parts : List (String × List Char)} {x : α} {row : Row types} :
      ReadsValue (first.read levels) chars x → (∀ part ∈ parts, part.1 ≠ first.name) →
      Spelled levels more parts row →
      Spelled levels (.field first more) ((first.name, chars) :: parts) (x, row)

/-- Fields of other names leave a slot as it is, so the fields of the rest of a layout fill
their slots behind it. -/
theorem Fills.skip {α : Type} {types : List Type} {levels : Nat} {first : Field α}
    {more : Layout types} {slots slots' : Slots types} {parts : List (String × List Char)}
    (slot : Option α) (hparts : ∀ part ∈ parts, part.1 ≠ first.name)
    (h : Fills (fun name slots c => more.readNamed levels name slots c) slots parts slots') :
    Fills (fun name slots c => (Layout.field first more).readNamed levels name slots c)
      (slot, slots) parts (slot, slots') := by
  induction h with
  | done slots => exact .done _
  | more hfield _ ih =>
      rename_i slots slots' _ part parts _
      refine .more ?_ (ih fun part hpart => hparts part (List.mem_cons_of_mem _ hpart))
      intro rest pos hrest
      obtain ⟨pos', hread⟩ := hfield rest pos hrest
      refine ⟨pos', ?_⟩
      show (if part.1 = first.name then _ else
        (more.readNamed levels part.1 slots ⟨':' :: part.2 ++ rest, pos⟩ >>= _)) = _
      -- The name is not that of the slot in front, so the reader hands it to the rest of the
      -- layout.
      rw [if_neg (hparts part List.mem_cons_self), hread]
      rfl

/-- The printed fields of a layout fill all its slots. Its own name fills the first slot; the
later names are others and leave it filled. -/
theorem Layout.Spelled.fills {levels : Nat} {types : List Type} {layout : Layout types}
    {parts : List (String × List Char)} {row : Row types} (h : layout.Spelled levels parts row) :
    Fills (fun name slots c => layout.readNamed levels name slots c) (Slots.empty types) parts
      (Slots.full row) := by
  induction h with
  | done => exact .done _
  | field hread hnames _ ih =>
      rename_i types first more chars parts x row _
      -- Its own name fills the first slot; the later names are others and leave it filled.
      refine .more ?_ (ih.skip (some x) hnames)
      intro rest pos hrest
      obtain ⟨pos', hvalue⟩ := hread rest (pos.past ':') hrest
      refine ⟨pos', ?_⟩
      show (if first.name = first.name then
        (first.read levels ⟨chars ++ rest, pos.past ':'⟩ >>= _) else _) = _
      rw [if_pos rfl, hvalue]
      rfl

/-- Filled slots give the row that they were filled with, and no field is missing. -/
theorem Layout.collect_full {types : List Type} (layout : Layout types) (row : Row types) :
    layout.collect (Slots.full row) = .ok row := by
  induction layout with
  | done => rfl
  | field first more ih =>
      obtain ⟨x, row⟩ := row
      show (more.collect (Slots.full row)).map _ = _
      rw [ih]
      rfl

/-- Every part comes with a comma before it, so there are no more parts than characters. Lists
and objects are both printed in this way behind their first part. -/
theorem length_le_flatMap_comma (parts : List (List Char)) :
    parts.length ≤ (parts.flatMap (',' :: ·)).length := by
  induction parts with
  | nil => exact Nat.le_refl _
  | cons part parts ih =>
      rw [List.flatMap_cons, List.length_append, List.length_cons, List.length_cons]
      omega

/-- There are no more fields than characters that print them. The reader is given as many
turns as there are characters, so this shows that the turns suffice. -/
theorem length_le_intercalate (parts : List (String × List Char)) :
    parts.length ≤ (List.intercalate [','] (parts.map fieldText)).length := by
  cases parts with
  | nil => exact Nat.le_refl _
  | cons part parts =>
      have hpart : 0 < (fieldText part).length := Nat.succ_pos _
      have htail := length_le_flatMap_comma (parts.map fieldText)
      rw [List.length_map] at htail
      rw [List.map_cons, intercalate_comma, List.length_append, List.length_cons]
      omega

/-- The fields of an object are read up to the closing brace, with as many turns as there are
characters. The reader counts its turns by the text, and each field takes at least one
character. -/
theorem readFields_objectChars {σ : Type}
    {field : String → σ → Cursor → Except Fault (σ × Cursor)} {state state' : σ}
    {parts : List (String × List Char)} (h : Fills field state parts state') (rest : List Char)
    (pos : Position) :
    ∃ pos', readFields field ((objectChars parts ++ rest).length + 1) true state
        ⟨List.intercalate [','] (parts.map fieldText) ++ ['\x7d'] ++ rest, pos⟩
      = .ok (state', ⟨'\x7d' :: rest, pos'⟩) := by
  -- The reader counts its turns by the characters that are left, of which there are more than
  -- fields.
  have hturns : parts.length < (objectChars parts ++ rest).length + 1 := by
    have hparts : parts.length ≤ (List.intercalate [','] (parts.map fieldText)).length :=
      length_le_intercalate parts
    have hchars : objectChars parts
        = '\x7b' :: List.intercalate [','] (parts.map fieldText) ++ ['\x7d'] := rfl
    rw [hchars, List.length_append, List.length_append, List.length_cons]
    omega
  rw [List.append_assoc, List.singleton_append]
  exact readFields_object h hturns rest pos

/-- A record is read back from its printed fields: they fill its slots, and the slots give
its row. Records are described by their layout, so this one lemma serves wallets, sealed
keys, proofs and signed data. -/
theorem reads_record {types : List Type} {α : Type} {name : String} {layout : Layout types}
    {parts : List (String × List Char)} {row : Row types} {build : Row types → α} {x : α}
    {levels : Nat} (h : layout.Spelled levels parts row) (hbuild : build row = x) :
    Reads (readRecord name layout build (levels + 1)) (objectChars parts) x := by
  intro rest pos
  subst hbuild
  obtain ⟨pos', hfields⟩ := readFields_objectChars h.fills rest (pos.past '\x7b')
  refine ⟨pos'.past '\x7d', ?_⟩
  show (readFields _ ((objectChars parts ++ rest).length + 1) true (Slots.empty types)
    ⟨List.intercalate [','] (parts.map fieldText) ++ ['\x7d'] ++ rest, pos.past '\x7b'⟩ >>= _) = _
  rw [hfields]
  simp only [bind, Except.bind, layout.collect_full]
  rfl

/-! ### Lists -/

/-- The characters begin a value: with no blank, comma or bracket that would close a list. -/
def BeginsValue (chars : List Char) : Prop :=
  ∃ x rest, chars = x :: rest ∧ isBlank x = false ∧ x ≠ ',' ∧ x ≠ ']'

/-- The list goes on at the beginning of a value, after a comma or at the opening bracket. -/
theorem nextItem_of_beginsValue {chars : List Char} (h : BeginsValue chars) (first : Bool)
    (rest : List Char) (pos : Position) :
    ∃ pos', nextItem first ⟨(if first then [] else [',']) ++ (chars ++ rest), pos⟩
      = .ok (true, ⟨chars ++ rest, pos'⟩) := by
  obtain ⟨x, tail, rfl, hblank, hcomma, hbracket⟩ := h
  have hskip : ∀ pos, skipBlanks ⟨x :: (tail ++ rest), pos⟩ = ⟨x :: (tail ++ rest), pos⟩ :=
    skipBlanks_of_not_blank hblank _
  cases first with
  | true =>
      refine ⟨pos, ?_⟩
      show nextItem true ⟨x :: (tail ++ rest), pos⟩ = _
      simp only [nextItem, hskip, if_true]
      -- Neither the end of the text nor the closing bracket comes first.
      split
      · rename_i heq
        exact absurd heq (List.cons_ne_nil _ _)
      · rename_i heq
        exact absurd (List.cons.inj heq).1 hbracket
      · rfl
      · rfl
  | false =>
      refine ⟨pos.past ',', ?_⟩
      have hcommaSkip : skipBlanks ⟨',' :: x :: (tail ++ rest), pos⟩
          = ⟨',' :: x :: (tail ++ rest), pos⟩ :=
        skipBlanks_of_not_blank (by decide) _ _
      show nextItem false ⟨',' :: x :: (tail ++ rest), pos⟩ = _
      simp only [nextItem, hcommaSkip, next_cons, hskip, Bool.false_eq_true, if_false]
      split
      · rename_i heq
        exact absurd heq (List.cons_ne_nil _ _)
      · rename_i heq
        exact absurd (List.cons.inj heq).1 hbracket
      · rfl

/-- One turn over a printed item, after a comma unless it is the first, reads it and leaves
the rest to the next turn. -/
theorem readItems_item {α : Type} {item : Cursor → Except Fault (α × Cursor)} {chars : List Char}
    {x : α} (hbegins : BeginsValue chars) (h : ReadsValue item chars x) (first : Bool) (turns : Nat)
    {rest : List Char} (hrest : Follows rest) (pos : Position) :
    ∃ pos', readItems item (turns + 1) first
        ⟨(if first then [] else [',']) ++ (chars ++ rest), pos⟩
      = (readItems item turns false ⟨rest, pos'⟩).map fun (xs, c) => (x :: xs, c) := by
  obtain ⟨pos', hnext⟩ := nextItem_of_beginsValue hbegins first rest pos
  obtain ⟨pos'', hitem⟩ := h rest pos' hrest
  refine ⟨pos'', ?_⟩
  show (nextItem first _ >>= _) = _
  rw [hnext]
  show (item ⟨chars ++ rest, pos'⟩ >>= _) = _
  rw [hitem]
  show (readItems item turns false ⟨rest, pos''⟩ >>= _) = _
  -- Whether the later turns fail or not, the item is put in front of what they give.
  cases readItems item turns false ⟨rest, pos''⟩ with
  | error fault => rfl
  | ok read => rfl

/-- The items after the first are read up to and with the closing bracket. Induction on the
items, one turn for each. -/
theorem readItems_tail {α β : Type} {item : Cursor → Except Fault (α × Cursor)}
    {print : β → List Char} {value : β → α} (xs : List β)
    (hbegins : ∀ x ∈ xs, BeginsValue (print x))
    (h : ∀ x ∈ xs, ReadsValue item (print x) (value x)) :
    ∀ (turns : Nat) (rest : List Char) (pos : Position), xs.length < turns →
      ∃ pos', readItems item turns false
          ⟨(xs.map print).flatMap (',' :: ·) ++ ']' :: rest, pos⟩
        = .ok (xs.map value, ⟨rest, pos'⟩) := by
  induction xs with
  | nil =>
      intro turns rest pos hturns
      obtain ⟨k, rfl⟩ : ∃ k, turns = k + 1 := ⟨turns - 1, by omega⟩
      exact ⟨pos.past ']', rfl⟩
  | cons x xs ih =>
      intro turns rest pos hturns
      obtain ⟨hbeginsFirst, hbeginsRest⟩ := List.forall_mem_cons.1 hbegins
      obtain ⟨hfirst, hreads⟩ := List.forall_mem_cons.1 h
      obtain ⟨k, rfl⟩ : ∃ k, turns = k + 1 := ⟨turns - 1, by omega⟩
      have hk : xs.length < k := by
        rw [List.length_cons] at hturns
        omega
      -- One turn takes the comma and the item; the other items are left to the turns after it.
      obtain ⟨pos', hstep⟩ := readItems_item hbeginsFirst hfirst false k
        (follows_parts (.inl rfl) (xs.map print) rest) pos
      obtain ⟨pos'', hrest⟩ := ih hbeginsRest hreads k rest pos' hk
      refine ⟨pos'', ?_⟩
      rw [hrest] at hstep
      rw [List.map_cons, List.flatMap_cons, List.append_assoc]
      exact hstep

/-- There are fewer items than characters that print the list with its brackets. -/
theorem length_lt_listChars {β : Type} (print : β → List Char) (xs : List β) (rest : List Char) :
    xs.length < (listChars (xs.map print) ++ rest).length := by
  rw [listChars, List.length_append, List.length_append, List.length_cons, List.length_singleton]
  cases xs with
  | nil =>
      rw [List.length_nil]
      omega
  | cons x xs =>
      have htail := length_le_flatMap_comma (xs.map print)
      rw [List.length_map] at htail
      rw [List.map_cons, intercalate_comma, List.length_append, List.length_cons]
      omega

/-- The items of a list are read up to and with the closing bracket, with as many turns as
there are characters. Only that there are enough turns matters. -/
theorem readItems_list {α β : Type} {item : Cursor → Except Fault (α × Cursor)}
    {print : β → List Char} {value : β → α} (xs : List β)
    (hbegins : ∀ x ∈ xs, BeginsValue (print x))
    (h : ∀ x ∈ xs, ReadsValue item (print x) (value x)) (rest : List Char) (pos : Position) :
    ∃ pos', readItems item ((listChars (xs.map print) ++ rest).length + 1) true
        ⟨List.intercalate [','] (xs.map print) ++ [']'] ++ rest, pos⟩
      = .ok (xs.map value, ⟨rest, pos'⟩) := by
  have hlength := length_lt_listChars print xs rest
  -- Only that there are enough turns matters from here on.
  generalize (listChars (xs.map print) ++ rest).length = turns at hlength
  rw [List.append_assoc, List.singleton_append]
  cases xs with
  | nil => exact ⟨pos.past ']', rfl⟩
  | cons x xs =>
      obtain ⟨hbeginsFirst, hbeginsRest⟩ := List.forall_mem_cons.1 hbegins
      obtain ⟨hfirst, hreads⟩ := List.forall_mem_cons.1 h
      have hturns : xs.length < turns := by
        rw [List.length_cons] at hlength
        omega
      obtain ⟨pos', hstep⟩ := readItems_item hbeginsFirst hfirst true turns
        (follows_parts (.inl rfl) (xs.map print) rest) pos
      obtain ⟨pos'', hrest⟩ := readItems_tail xs hbeginsRest hreads turns rest pos' hturns
      refine ⟨pos'', ?_⟩
      rw [hrest] at hstep
      rw [List.map_cons, intercalate_comma, List.append_assoc]
      exact hstep

/-- A list is read back from its printed items. The items keep their own printer and their
own reader; the wallets of a pool are read by it. -/
theorem reads_list {α β : Type} {item : Reader α} {levels : Nat} {print : β → List Char}
    {value : β → α} (xs : List β) (hbegins : ∀ x ∈ xs, BeginsValue (print x))
    (h : ∀ x ∈ xs, ReadsValue (item levels) (print x) (value x)) :
    Reads (readListOf item (levels + 1)) (listChars (xs.map print)) (xs.map value) :=
  fun rest pos => readItems_list xs hbegins h rest (pos.past '[')

/-! ### Whole texts -/

/-- A whole text is read as the value that it was printed for: behind the value there is
nothing left. Blanks may stand there, but the printer puts none. -/
theorem readAll_of_reads {α : Type} {read : Reader α} {levels : Nat} {chars : List Char} {x : α}
    (h : ReadsValue (read levels) chars x) : readAll read levels (String.ofList chars) = .ok x := by
  obtain ⟨pos', hread⟩ := h [] .start follows_nil
  show (read levels ⟨(String.ofList chars).toList, .start⟩ >>= _) = _
  rw [String.toList_ofList, ← List.append_nil chars, hread]
  rfl

end Keyring.Json
