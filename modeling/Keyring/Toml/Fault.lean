/-!
# `Keyring.Toml.Fault`: why a TOML text is refused

A reader returns a value with the text that is left, or a fault. A fault marks
a part of the text: the place where the reader stood, or a value that cannot be
used. A fault that is not `final` lets another reading be tried. The message
shows the line, marks the part in it, and says what was being read and what
was expected there.
-/

set_option autoImplicit false

namespace Keyring.Toml

/-- A part of a text: the text from its start on, and the text after it. -/
structure Span where
  start : List Char
  stop : List Char
  deriving DecidableEq, Repr

/-- The part that a text begins with: one character, or nothing at the end. -/
def Span.point (text : List Char) : Span := ⟨text, text.tail⟩

/-- Why a text is refused, and the part of it that is to blame. -/
structure Fault where
  span : Span
  final : Bool
  /-- What was being read. -/
  label : Option String
  expected : List String
  reason : Option String
  deriving DecidableEq, Repr

/-- A fault of which nothing more is known. -/
def fault {α : Type} (rest : List Char) : Except Fault α :=
  .error ⟨.point rest, false, none, [], none⟩

/-- A fault for a reason that has words of its own. -/
def refuse {α : Type} (rest : List Char) (reason : String) : Except Fault α :=
  .error ⟨.point rest, false, none, [], some reason⟩

/-- The text after the first byte of a text. Within a longer character a place counts as the
one before it. -/
def pastByte : List Char → List Char
  | [] => []
  | c :: rest => if c.utf8Size = 1 then rest else c :: rest

/-- Makes faults final. -/
def committed {α : Type} (r : Except Fault α) : Except Fault α :=
  r.mapError fun f => { f with final := true }

/-- Says what is read; a label from within stands first. -/
def labelled {α : Type} (label : String) (r : Except Fault α) : Except Fault α :=
  r.mapError fun f => { f with label := f.label <|> some label }

/-- Says what would have been read. -/
def expecting {α : Type} (expected : List String) (r : Except Fault α) : Except Fault α :=
  r.mapError fun f => { f with expected := f.expected ++ expected }

/-- Another reading where the first one fails without being final. -/
def orTry {α : Type} (first : Except Fault α) (second : Unit → Except Fault α) : Except Fault α :=
  match first with
  | .ok x => .ok x
  | .error f => if f.final then .error f else second ()

/-! ### Wording -/

/-- A name of a character or a word that is expected. -/
def ticked (text : String) : String := "`" ++ text ++ "`"

/-- The lines of a text. -/
def linesOf : List Char → List (List Char)
  | [] => [[]]
  | c :: rest =>
    if c = '\n' then [] :: linesOf rest
    else
      match linesOf rest with
      | [] => [[c]]
      | line :: more => (c :: line) :: more

/-- The size of characters in bytes. -/
def byteSize (text : List Char) : Nat := (String.ofList text).utf8ByteSize

/-- The size of a part of a text in bytes. -/
def Span.byteSize (span : Span) : Nat := Toml.byteSize span.start - Toml.byteSize span.stop

/-- The line and the column, both from zero, of the place before `rest`. A place past the end
counts to the last line that has a character. Before a character beyond ASCII the column
counts bytes. -/
def placeOf (text rest : List Char) : Nat × Nat :=
  let before := text.take (text.length - rest.length)
  let lines := linesOf (if rest.isEmpty then before.dropLast else before)
  let line := lines.getLast?.getD []
  let column :=
    match rest with
    | [] => line.length + min before.length 1
    | c :: _ => if c.utf8Size = 1 then line.length else byteSize line
  (lines.length - 1, column)

/-- The text that a fault shows first: line, column, and the mark in the line. The mark ends
with the line. -/
def Fault.picture (text : String) (f : Fault) : String :=
  let (line, column) := placeOf text.toList f.span.start
  let content := (linesOf text.toList)[line]?.getD []
  let number := toString (line + 1)
  let margin := "".pushn ' ' (number.length + 1) ++ "|"
  let size := min f.span.byteSize (byteSize content - column)
  "TOML parse error at line " ++ number ++ ", column " ++ toString (column + 1) ++ "\n" ++
    margin ++ "\n" ++ number ++ " | " ++ String.ofList content ++ "\n" ++
    margin ++ "".pushn ' ' (column + 1) ++ "".pushn '^' (max size 1) ++ "\n"

/-- The wording of a fault in a text. -/
def Fault.message (text : String) (f : Fault) : String :=
  let parts := (f.label.map ("invalid " ++ ·)).toList ++
    (if f.expected.isEmpty then [] else ["expected " ++ ", ".intercalate f.expected]) ++
    f.reason.toList
  f.picture text ++ "\n".intercalate parts ++ "\n"

end Keyring.Toml
