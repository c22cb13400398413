import Keyring.Json.Record
import Keyring.Proofs.Run

/-!
# `Keyring.Proofs.Json.Given`: where the values of a list of records come from

What holds of every value that one field's reader gives holds of that field in
every record that is read, whether the record was an object in any order or a
list, and of every record of a list. To state it, `Gives read x` says that the
reader gives `x` on some text, and no word is said about the text. The theorems:

* `accepted_of_gives`: a text field holds what its own check accepted.
* `Layout.given_of_gives`: the values of a record were given by the readers of
  its fields, or are their fallbacks.
* `gives_of_mem`: the items of a list were given by the reader of items.
* `gives_of_readAll`: and so was the value of a whole text.

An object is read by a loop that fills slots. Its invariant is that each filled
slot was given by its own field's reader; one turn keeps it, since a turn fills
one slot at most and passes over a field of another name.
-/

set_option autoImplicit false

namespace Keyring.Json

open Cursor

variable {α : Type}

/-- The reader gives this value on some text. -/
def Gives (read : Cursor → Except Fault (α × Cursor)) (x : α) : Prop :=
  ∃ c c', read c = .ok (x, c')

/-! ### Texts -/

/-- A text that was read as something was accepted as that. The other branches of the reader
end in a fault. So a property that the accepting function guarantees holds of everything that
is read; the times of a pool are such a case. -/
theorem accepted_of_gives {expected : String} {accept : String → Except String α} {levels : Nat}
    {x : α} (h : Gives (readTextAs expected accept levels) x) : ∃ s, accept s = .ok x := by
  obtain ⟨c, c', hread⟩ := h
  rw [readTextAs] at hread
  split at hread
  · cases hread
  · obtain ⟨⟨s, c''⟩, -, hnext⟩ := bind_eq_ok_iff.1 hread
    dsimp only at hnext
    split at hnext
    · rename_i y haccept
      cases hnext
      exact ⟨s, haccept⟩
    · cases hnext
  · cases hread

/-! ### Lists -/

/-- Each turn of the loop over items reads one of them, so by induction on the turns every item
of the result was read. -/
theorem gives_of_readItems {item : Cursor → Except Fault (α × Cursor)} {turns : Nat}
    {first : Bool} {c c' : Cursor} {xs : List α}
    (h : readItems item turns first c = .ok (xs, c')) : ∀ x ∈ xs, Gives item x := by
  induction turns generalizing first c xs with
  | zero => cases h
  | succ turns ih =>
      obtain ⟨⟨more, c₁⟩, -, h⟩ := bind_eq_ok_iff.1 h
      dsimp only at h
      split at h
      · -- There is one more item: it was read here, and the others later.
        obtain ⟨⟨x, c₂⟩, hitem, h⟩ := bind_eq_ok_iff.1 h
        obtain ⟨⟨rest, c₃⟩, hrest, h⟩ := bind_eq_ok_iff.1 h
        cases h
        exact List.forall_mem_cons.2 ⟨⟨c₁, c₂, hitem⟩, ih hrest⟩
      · cases h
        exact fun x hx => absurd hx List.not_mem_nil

/-- The items of a list were given by the reader of items, with the levels that are left
inside the list. The only branch that ends well is that of the opening bracket. -/
theorem gives_of_mem {item : Reader α} {levels : Nat} {xs : List α}
    (h : Gives (readListOf item levels) xs) : ∀ x ∈ xs, ∃ inner, Gives (item inner) x := by
  obtain ⟨c, c', hread⟩ := h
  rw [readListOf.eq_def] at hread
  dsimp only at hread
  split at hread
  · cases hread
  · cases levels with
    | zero => cases hread
    | succ inner => exact fun x hx => ⟨inner, gives_of_readItems hread x hx⟩
  · cases hread

/-! ### Records -/

/-- Each value was given by its own field's reader, or it is the fallback. -/
def Layout.Given (levels : Nat) : {types : List Type} → Layout types → Row types → Prop
  | _, .done, _ => True
  | _, .field first more, (x, row) =>
    (first.fallback = some x ∨ Gives (first.read levels) x) ∧ more.Given levels row

/-- Each slot that is filled holds a value that its own field's reader gave. -/
def Layout.GivenSlots (levels : Nat) : {types : List Type} → Layout types → Slots types → Prop
  | _, .done, _ => True
  | _, .field first more, (slot, slots) =>
    (∀ x, slot = some x → Gives (first.read levels) x) ∧ more.GivenSlots levels slots

variable {types : List Type} {levels : Nat}

/-- Before anything was read no slot is filled, so there is nothing that would have to be
given. -/
theorem Layout.givenSlots_empty (layout : Layout types) :
    layout.GivenSlots levels (Slots.empty types) := by
  induction layout with
  | done => trivial
  | field first more ih => exact ⟨nofun, ih⟩

/-- One field of an object keeps the slots given: it fills the slot of its name with what that
field's reader gave, or it is passed over. -/
theorem Layout.givenSlots_readNamed (layout : Layout types) {name : String}
    {slots slots' : Slots types} {c c' : Cursor} (hslots : layout.GivenSlots levels slots)
    (h : layout.readNamed levels name slots c = .ok (slots', c')) :
    layout.GivenSlots levels slots' := by
  induction layout with
  | done => trivial
  | field first more ih =>
      obtain ⟨slot, rest⟩ := slots
      obtain ⟨hslot, hrest⟩ := hslots
      rw [Layout.readNamed] at h
      split at h
      · split at h
        · cases h
        · -- The name is that of this slot, which was empty, and its value was read.
          obtain ⟨c₁, -, h⟩ := bind_eq_ok_iff.1 h
          obtain ⟨⟨x, c₂⟩, hread, h⟩ := bind_eq_ok_iff.1 h
          cases h
          refine ⟨fun y hy => ?_, hrest⟩
          cases hy
          exact ⟨c₁, _, hread⟩
      · -- The name belongs to a later slot or to none.
        obtain ⟨⟨rest', c₁⟩, hread, h⟩ := bind_eq_ok_iff.1 h
        cases h
        exact ⟨hslot, ih hrest hread⟩

/-- What every field keeps holds after the loop over the fields of an object. Induction on
the turns; a turn either ends the loop or reads one field. -/
theorem readFields_keeps {σ : Type} {field : String → σ → Cursor → Except Fault (σ × Cursor)}
    {P : σ → Prop}
    (hfield : ∀ {name state c state' c'}, P state → field name state c = .ok (state', c') →
      P state')
    {turns : Nat} {first : Bool} {state state' : σ} {c c' : Cursor} (hstate : P state)
    (h : readFields field turns first state c = .ok (state', c')) : P state' := by
  induction turns generalizing first state c with
  | zero => cases h
  | succ turns ih =>
      obtain ⟨⟨more, c₁⟩, -, h⟩ := bind_eq_ok_iff.1 h
      dsimp only at h
      split at h
      · obtain ⟨⟨name, c₂⟩, -, h⟩ := bind_eq_ok_iff.1 h
        obtain ⟨⟨next, c₃⟩, hnext, h⟩ := bind_eq_ok_iff.1 h
        exact ih (hfield hstate hnext) h
      · cases h
        exact hstate

/-- The row that is collected from given slots is given: a slot that was left empty gets its
field's fallback. -/
theorem Layout.given_of_collect (layout : Layout types) {slots : Slots types} {row : Row types}
    (hslots : layout.GivenSlots levels slots) (h : layout.collect slots = .ok row) :
    layout.Given levels row := by
  induction layout with
  | done => trivial
  | field first more ih =>
      obtain ⟨slot, rest⟩ := slots
      obtain ⟨hslot, hrest⟩ := hslots
      rw [Layout.collect] at h
      split at h
      · cases h
      · rename_i x hx
        cases hmore : more.collect rest with
        | error missing =>
            rw [hmore] at h
            cases h
        | ok tail =>
            rw [hmore] at h
            cases h
            refine ⟨?_, ih hrest hmore⟩
            -- The value is the fallback of an empty slot or what was read into it.
            cases slot with
            | none => exact .inl hx
            | some y =>
                cases hx
                exact .inr (hslot _ rfl)

/-- The row that is read from a list by position is given. Each value was read in its place,
or the list ended and the field has a fallback. -/
theorem Layout.given_of_readPositional {expected : String} (layout : Layout types) {index : Nat}
    {row : Row types} {c c' : Cursor}
    (h : layout.readPositional expected levels index c = .ok (row, c')) :
    layout.Given levels row := by
  induction layout generalizing index c with
  | done => trivial
  | field first more ih =>
      obtain ⟨⟨present, c₁⟩, -, h⟩ := bind_eq_ok_iff.1 h
      dsimp only at h
      split at h
      · -- The list has a value in this place.
        obtain ⟨⟨x, c₂⟩, hread, h⟩ := bind_eq_ok_iff.1 h
        obtain ⟨⟨tail, c₃⟩, htail, h⟩ := bind_eq_ok_iff.1 h
        cases h
        exact ⟨.inr ⟨c₁, c₂, hread⟩, ih htail⟩
      · split at h
        · cases h
        · -- The list has ended, and the field has a fallback.
          rename_i x hfallback
          obtain ⟨⟨tail, c₂⟩, htail, h⟩ := bind_eq_ok_iff.1 h
          cases h
          exact ⟨.inl hfallback, ih htail⟩

/-- A record that was read is built from given values, in both of its forms. A pool may come
with its records in either form, and neither is excluded. -/
theorem Layout.given_of_gives {name : String} {layout : Layout types} {build : Row types → α}
    {x : α} (h : Gives (readRecord name layout build levels) x) :
    ∃ inner row, layout.Given inner row ∧ build row = x := by
  obtain ⟨c, c', hread⟩ := h
  rw [readRecord.eq_def] at hread
  dsimp only at hread
  split at hread
  · cases hread
  · cases levels with
    | zero => cases hread
    | succ inner =>
        -- In brackets: a row by position.
        obtain ⟨⟨row, c₁⟩, hrow, hread⟩ := bind_eq_ok_iff.1 hread
        obtain ⟨c₂, -, hread⟩ := bind_eq_ok_iff.1 hread
        cases hread
        exact ⟨inner, row, layout.given_of_readPositional hrow, rfl⟩
  · cases levels with
    | zero => cases hread
    | succ inner =>
        -- In braces: slots by name, which start out empty.
        obtain ⟨⟨slots, c₁⟩, hslots, hread⟩ := bind_eq_ok_iff.1 hread
        have hgiven : layout.GivenSlots inner slots :=
          readFields_keeps (fun hstate hnext => layout.givenSlots_readNamed hstate hnext)
            layout.givenSlots_empty hslots
        dsimp only at hread
        split at hread
        · rename_i row hcollect
          cases hread
          exact ⟨inner, row, layout.given_of_collect hgiven hcollect, rfl⟩
        · cases hread
  · cases hread

/-! ### Whole texts -/

/-- The value of a whole text was given by the reader of that text: what follows the value
decides only about acceptance. From here on the position in the text plays no part. -/
theorem gives_of_readAll {read : Reader α} {text : String} {x : α}
    (h : readAll read levels text = .ok x) : Gives (read levels) x := by
  obtain ⟨⟨y, c⟩, hread, h⟩ := bind_eq_ok_iff.1 h
  dsimp only at h
  split at h
  · cases h
    exact ⟨_, c, hread⟩
  · cases h

end Keyring.Json
