import Keyring.Toml.Plain

/-!
# `Keyring.Toml.Document`: whole texts

A text is a row of lines: keys with values, and headings, each of which opens
a table for the keys that follow it. The open table stands apart until the
next heading or the end of the text closes it.

* `Toml.parse`: what a whole text means.
-/

set_option autoImplicit false

namespace Keyring.Toml

/-! ### Tables under headings -/

/-- Goes down tables along a path and alters the fields at its end, which `f` gets with
the origin of their table. Missing tables are made. -/
def descend (full : List Name) (isDotted : Bool) (f : Origin → Fields → Except Clash Fields) :
    (names : List Name) → (origin : Origin) → Fields → Except Clash Fields
  | [], origin, fields => f origin fields
  | (name, place) :: rest, _, fields =>
    alterField name (fun old =>
      match old with
      | none => do
        let made : Origin := if isDotted then .dotted else .heading
        .ok (place, .table made (← descend full isDotted f rest made []))
      | some (place, .tables (latest :: earlier)) => do
        .ok (place, .tables ((← descend full isDotted f rest .explicit latest) :: earlier))
      | some (place, .table origin inner) =>
        if isDotted && origin == .explicit then .error (.duplicate name none)
        else do .ok (place, .table origin (← descend full isDotted f rest origin inner))
      | some (_, value) =>
        .error (.throughValue (namesOf (full.take (full.length - rest.length))) value.kind)) fields

/-- The fields of the table at the end of a path, if there is one. -/
def fieldsAt : (names : List String) → Fields → Fields
  | [], fields => fields
  | name :: rest, fields =>
    match fields.lookup name with
    | some (_, .table _ inner) | some (_, .tables (inner :: _)) => fieldsAt rest inner
    | _ => []

/-- The closed tables, and the one that is open: its path, its place, whether it is one of
several under its name, and its fields. -/
structure Document where
  root : Fields
  path : List Name
  /-- The heading and what stands below it. -/
  place : Span
  isItem : Bool
  fields : Fields

namespace Document

/-- The document without text. -/
def empty : Document := ⟨[], [], ⟨[], []⟩, false, []⟩

/-- The clash of a heading with what stands at its path. -/
def headingClash (path : List Name) : Clash :=
  .duplicate (writtenName (lastName path)) (some (namesOf path.dropLast))

/-- All tables, with the open one among them. -/
def close (d : Document) : Except Clash Fields :=
  if d.path.isEmpty then .ok d.fields
  else
    descend d.path.dropLast false (fun _ fields =>
      alterField (lastName d.path) (fun old =>
        if d.isItem then
          match old with
          | none => .ok (d.place, .tables [d.fields])
          | some (first, .tables items) =>
            .ok (⟨first.start, d.place.stop⟩, .tables (d.fields :: items))
          | some _ => .error (headingClash d.path)
        else .ok (d.place, .table .explicit d.fields)) fields) d.path.dropLast .explicit d.root

/-- Puts a value under a key of the open table. -/
def put (d : Document) (key : List Name) (value : Placed) : Except Clash Document := do
  let path := key.dropLast
  let fields ← descend path true
    (fun origin fields =>
      putNew (lastName key) value (some (namesOf d.path)) (!path.isEmpty) (origin == .dotted)
        fields)
    path .explicit d.fields
  .ok { d with fields, place := ⟨d.place.start, value.1.stop⟩ }

/-- Opens the table of a heading, which may be implied by another one already; it then moves
to the end of the table that holds it. -/
def openTable (d : Document) (path : List Name) (heading : Span) : Except Clash Document := do
  let root ← d.close
  let inner := fieldsAt (namesOf path) root
  let root ← descend path.dropLast false (fun _ fields =>
    match fields.lookup (lastName path) with
    | none => .ok fields
    | some (_, .table .heading _) => .ok (fields.filter fun field => field.1 != lastName path)
    | some _ => .error (headingClash path)) path.dropLast .explicit root
  .ok ⟨root, path, heading, false, inner⟩

/-- Opens another table of a heading that may stand several times. -/
def openItem (d : Document) (path : List Name) (heading : Span) : Except Clash Document := do
  let root ← d.close
  let root ← descend path.dropLast false (fun _ fields =>
    match fields.lookup (lastName path) with
    | none | some (_, .tables _) => .ok fields
    | some _ => .error (headingClash path)) path.dropLast .explicit root
  .ok ⟨root, path, heading, true, []⟩

end Document

/-! ### Lines -/

/-- What comes of a clash in the text from `start` on. -/
def settle {α : Type} (start : List Char) : Except Clash α → Except Fault α
  | .ok x => .ok x
  | .error clash => refuse start clash.message

/-- Reads a key and its value up to the end of the line. -/
def readPair (d : Document) (text : List Char) : Except Fault (Document × List Char) := do
  let (key, rest) ← readKey text
  let start := skipSpaces (← skipEquals rest)
  let (value, stop) ← readValue maxLevels start
  let rest ← endFullLine stop
  .ok (← settle text (d.put key (⟨start, stop⟩, value)), rest)

/-- Reads a heading up to the end of the line. -/
def readHeading (d : Document) (text : List Char) : Except Fault (Document × List Char) :=
  labelled "table header"
    (match text with
    | '[' :: '[' :: inner => do
      let (path, rest) ← readKey inner
      let stop ← closing [']', ']'] rest
      let rest ← endFullLine stop
      .ok (← settle text (d.openItem path ⟨text, stop⟩), rest)
    | '[' :: inner@(_ :: _) => do
      let (path, rest) ← readKey inner
      let stop ← closing [']'] rest
      let rest ← endFullLine stop
      .ok (← settle text (d.openTable path ⟨text, stop⟩), rest)
    | _ => fault text)
where
  /-- Passes over the brackets that end a heading. -/
  closing (brackets text : List Char) : Except Fault (List Char) :=
    if brackets.isPrefixOf text then .ok (text.drop brackets.length)
    else expecting [ticked ".", ticked (String.ofList brackets)] (fault text)

/-- Reads lines to the end of the text; each turn reads one. -/
def readDocument : (turns : Nat) → Document → List Char → Except Fault Document
  | 0, _, text => fault text
  | turns + 1, d, text => do
    let text := skipSpaces text
    match text with
    | [] => .ok d
    | '#' :: _ => readDocument turns d (← endLine text)
    | '[' :: _ =>
      let (d, rest) ← readHeading d text
      readDocument turns d rest
    | c :: _ =>
      if c = '\n' ∨ c = '\x0d' then
        match newline? text with
        | some rest => readDocument turns d rest
        | none => fault text
      else
        let (d, rest) ← readPair d text
        readDocument turns d rest

/-- What a text means; a byte order mark before it is passed over. -/
def parse (text : String) : Except Fault Plain := do
  let chars := text.toList
  let chars := if chars.head? = some '\ufeff' then chars.tail else chars
  let d ← readDocument (chars.length + 1) .empty chars
  plainTable (← settle [] d.close)

end Keyring.Toml
