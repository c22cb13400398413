import Keyring.Decimal.Real
import Keyring.Toml.Fault

/-!
# `Keyring.Toml.Lexeme`: blanks, strings, numbers and times

The parts of a TOML text that are not made of other values. Dates and times
are kept as texts in one form: `T` between date and time, no zeros at the end
of a fraction.
-/

set_option autoImplicit false

namespace Keyring.Toml

/-! ### Blanks -/

/-- Is the character a blank within a line? -/
def isSpace (c : Char) : Bool := c == ' ' || c == '\t'

/-- Passes over blanks within a line. -/
def skipSpaces (text : List Char) : List Char := text.dropWhile isSpace

/-- Passes over a line break. -/
def newline? : List Char → Option (List Char)
  | '\n' :: rest => some rest
  | '\x0d' :: '\n' :: rest => some rest
  | _ => none

/-- Passes over a line break where there has to be one. The fault stands after the byte that
begins none. -/
def newline (text : List Char) : Except Fault (List Char) :=
  match newline? text with
  | some rest => .ok rest
  | none => fault (pastByte text)

/-- May the character stand in a comment? -/
def isCommentChar (c : Char) : Bool := c == '\t' || (' ' ≤ c && c ≤ '~') || '\x80' ≤ c

/-- Passes over a comment, if one stands here. -/
def skipComment : List Char → List Char
  | '#' :: rest => rest.dropWhile isCommentChar
  | text => text

/-- Passes over a comment and the end of the line. -/
def endLine (text : List Char) : Except Fault (List Char) :=
  let text := skipComment text
  if text.isEmpty then .ok []
  else
    match newline? text with
    | some rest => .ok rest
    | none => fault text

/-- Passes over the end of a line that holds something. -/
def endFullLine (text : List Char) : Except Fault (List Char) :=
  expecting ["newline", ticked "#"] (endLine (skipSpaces text))

/-- Passes over blanks and line breaks; each turn passes over one break. -/
def skipBreaks : (turns : Nat) → List Char → List Char
  | 0, text => text
  | turns + 1, text =>
    let text := skipSpaces text
    match newline? text with
    | some rest => skipBreaks turns rest
    | none => text

/-- Passes over blanks, line breaks and comments; each turn passes over one break. A comment
ends with its line. -/
def skipLines : (turns : Nat) → List Char → Except Fault (List Char)
  | 0, text => .ok text
  | turns + 1, text =>
    let text := skipSpaces text
    match text with
    | c :: _ =>
      if c = '#' ∨ c = '\n' ∨ c = '\x0d' then do
        let rest ← newline (skipComment text)
        skipLines turns rest
      else .ok text
    | [] => .ok []

/-! ### Strings -/

/-- The value of a hexadecimal digit. -/
def hexValue? (c : Char) : Option Nat :=
  if c.isDigit then some (c.toNat - 48)
  else if 'a' ≤ c ∧ c ≤ 'f' then some (c.toNat - 87)
  else if 'A' ≤ c ∧ c ≤ 'F' then some (c.toNat - 55)
  else none

/-- Reads the digits of a character's number. -/
def readCode (width : Nat) (text : List Char) : Except Fault (Char × List Char) :=
  let digits := ((text.take width).takeWhile fun c => (hexValue? c).isSome).filterMap hexValue?
  let number := digits.foldl (fun n d => n * 16 + d) 0
  committed (labelled ("unicode " ++ toString width ++ "-digit hex code")
    (if digits.length ≠ width then fault text
    else if number.isValidChar then .ok (Char.ofNat number, text.drop width)
    else refuse text "value is out of range"))

/-- Reads what follows the backslash of an escape. An unknown escape is blamed on what
follows its first byte. -/
def readEscape : List Char → Except Fault (Char × List Char)
  | [] => fault []
  | c :: rest =>
    match c with
    | 'b' => .ok ('\x08', rest)
    | 'f' => .ok ('\x0c', rest)
    | 'n' => .ok ('\n', rest)
    | 'r' => .ok ('\x0d', rest)
    | 't' => .ok ('\t', rest)
    | '"' => .ok ('"', rest)
    | '\\' => .ok ('\\', rest)
    | 'u' => readCode 4 rest
    | 'U' => readCode 8 rest
    | _ =>
      committed (labelled "escape sequence"
        (expecting (["b", "f", "n", "r", "t", "u", "U", "\\", "\""].map ticked)
          (fault (pastByte (c :: rest)))))

/-- May the character stand in a string as it is, beside its quote and escapes? -/
def isPlain (c : Char) : Bool := c == '\t' || (' ' ≤ c && c ≤ '~') || '\x80' ≤ c

/-- Reads a string of one line after its opening quote; each turn reads one character. -/
def readBasic : (turns : Nat) → (done : List Char) → List Char → Except Fault (String × List Char)
  | 0, _, text => fault text
  | turns + 1, done, text =>
    match text with
    | '"' :: rest => .ok (String.ofList done.reverse, rest)
    | '\\' :: rest =>
      if rest.isEmpty then committed (labelled "basic string" (fault text))
      else do
        let (c, rest) ← readEscape rest
        readBasic turns (c :: done) rest
    | c :: rest =>
      if isPlain c then readBasic turns (c :: done) rest
      else committed (labelled "basic string" (fault text))
    | [] => committed (labelled "basic string" (fault text))

/-- Reads a string without escapes after its opening quote. -/
def readLiteral (text : List Char) : Except Fault (String × List Char) :=
  let body := text.takeWhile fun c => isPlain c && c != '\''
  match text.drop body.length with
  | '\'' :: rest => .ok (String.ofList body, rest)
  | rest => committed (labelled "literal string" (fault rest))

/-- The end of a string of many lines: three quotes, before which there may be up to two
that belong to the string. -/
def readClosing? (mark : Char) (text : List Char) : Option (List Char × List Char) :=
  let run := (text.takeWhile (· == mark)).take 5
  if 3 ≤ run.length then some (run.drop 3, text.drop run.length) else none

/-- Does something of a string of many lines stand here, other than a quote? -/
def isInside (escapes : Bool) (text : List Char) : Bool :=
  match text with
  | [] => false
  | c :: rest =>
    if escapes && c == '\\' then !rest.isEmpty else isPlain c || (newline? text).isSome

/-- Reads a string of many lines after its opening quotes; each turn reads one character, or
the one or two quotes before another character. -/
def readLong (mark : Char) (label : String) (escapes : Bool) :
    (turns : Nat) → (done : List Char) → List Char → Except Fault (String × List Char)
  | 0, _, text => fault text
  | turns + 1, done, text =>
    let broken : Except Fault (String × List Char) := committed (labelled label (fault text))
    match readClosing? mark text with
    | some (extra, rest) => .ok (String.ofList (done.reverse ++ extra), rest)
    | none =>
      let quotes := text.takeWhile (· == mark)
      let inside := text.drop quotes.length
      if !isInside escapes inside then broken
      else if !quotes.isEmpty then readLong mark label escapes turns (quotes ++ done) inside
      else
        match newline? text with
        | some rest => readLong mark label escapes turns ('\n' :: done) rest
        | none =>
          match text with
          | [] => broken
          | c :: rest =>
            if escapes && c == '\\' then
              match newline? (skipSpaces rest) with
              | some rest =>
                readLong mark label escapes turns done (skipBreaks (rest.length + 1) rest)
              | none => do
                let (c, rest) ← labelled label (readEscape rest)
                readLong mark label escapes turns (c :: done) rest
            else readLong mark label escapes turns (c :: done) rest

/-- Drops a line break right after the opening quotes. -/
def dropBreak (text : List Char) : List Char := (newline? text).getD text

/-- Reads a string of any kind. -/
def readString (text : List Char) : Except Fault (String × List Char) :=
  match text with
  | '"' :: '"' :: '"' :: rest =>
    readLong '"' "multiline basic string" true (rest.length + 1) [] (dropBreak rest)
  | '"' :: rest => readBasic (rest.length + 1) [] rest
  | '\'' :: '\'' :: '\'' :: rest =>
    readLong '\'' "multiline literal string" false (rest.length + 1) [] (dropBreak rest)
  | '\'' :: rest => readLiteral rest
  | _ => fault text

/-! ### Numbers -/

/-- Passes over a digit and more of them, with single underscores between; each turn passes
over one character. -/
def skipDigits (isDigit : Char → Bool) : (turns : Nat) → List Char → Except Fault (List Char)
  | 0, text => .ok text
  | turns + 1, text =>
    match text with
    | '_' :: c :: rest =>
      if isDigit c then skipDigits isDigit turns rest
      else committed (expecting ["digit"] (fault (c :: rest)))
    | ['_'] => committed (expecting ["digit"] (fault []))
    | c :: rest => if isDigit c then skipDigits isDigit turns rest else .ok text
    | [] => .ok []

/-- Passes over digits, of which there is one at least. -/
def skipDigits1 (isDigit : Char → Bool) (text : List Char) : Except Fault (List Char) :=
  match text with
  | c :: rest => if isDigit c then skipDigits isDigit rest.length rest else fault text
  | [] => fault []

/-- Passes over a sign. -/
def skipSign : List Char → List Char
  | '+' :: rest | '-' :: rest => rest
  | text => text

/-- Passes over a decimal number without zeros before it. -/
def skipDecimal (text : List Char) : Except Fault (List Char) :=
  labelled "integer"
    (match skipSign text with
    | '0' :: rest => .ok rest
    | text => skipDigits1 Char.isDigit text)

/-- The characters that were passed over, without underscores. -/
def passed (text rest : List Char) : List Char :=
  (text.take (text.length - rest.length)).filter (· != '_')

/-- Passes over an exponent. -/
def skipExponent (text : List Char) : Except Fault (List Char) :=
  match text with
  | c :: rest =>
    if c = 'e' ∨ c = 'E' then committed (skipDigits1 Char.isDigit (skipSign rest)) else fault text
  | [] => fault []

/-- Passes over a point and the digits after it. -/
def skipPart (text : List Char) : Except Fault (List Char) :=
  match text with
  | '.' :: rest => expecting ["digit"] (committed (skipDigits1 Char.isDigit rest))
  | _ => fault text

/-- Reads a word that stands for a number. -/
def readWord (text : List Char) : Except Fault (Decimal.Real .double × List Char) :=
  let (negative, rest) := Decimal.Real.splitSign text
  match rest with
  | 'i' :: 'n' :: 'f' :: rest => .ok (.infinite negative, rest)
  | 'n' :: 'a' :: 'n' :: rest => .ok (.nan, rest)
  | _ => fault rest

/-- Reads a float. -/
def readFloat (text : List Char) : Except Fault (Decimal.Real .double × List Char) :=
  labelled "floating-point number" (orTry decimal fun _ => readWord text)
where
  /-- Reads a float of digits, which is finite. -/
  decimal : Except Fault (Decimal.Real .double × List Char) := do
    let rest ← skipDecimal text
    let rest ← orTry (skipExponent rest) fun _ => do
      let rest ← skipPart rest
      orTry (skipExponent rest) fun _ => .ok rest
    match Decimal.Real.parse? .double (String.ofList (passed text rest)) with
    | some (.infinite false) | none => committed (fault text)
    | some x => .ok (x, rest)

/-- Reads a whole number of 64 bits with a sign. -/
def readInteger (text : List Char) : Except Fault (Int × List Char) :=
  match text with
  | '0' :: 'x' :: rest =>
    based 16 "hexadecimal integer" (fun c => (hexValue? c).isSome) rest
  | '0' :: 'o' :: rest => based 8 "octal integer" (fun c => '0' ≤ c && c ≤ '7') rest
  | '0' :: 'b' :: rest => based 2 "binary integer" (fun c => c == '0' || c == '1') rest
  | _ => do
    let rest ← skipDecimal text
    let (negative, digits) := Decimal.Real.splitSign (passed text rest)
    bounded text rest negative (value 10 digits)
where
  /-- The value of digits. -/
  value (base : Nat) (digits : List Char) : Nat :=
    (digits.filterMap hexValue?).foldl (fun n d => n * base + d) 0
  /-- The number, if it is in the range of 64 bits with a sign. -/
  bounded (text rest : List Char) (negative : Bool) (n : Nat) : Except Fault (Int × List Char) :=
    let n : Int := if negative then -n else n
    if 9223372036854775808 ≤ n then committed (refuse text "number too large to fit in target type")
    else if n < -9223372036854775808 then
      committed (refuse text "number too small to fit in target type")
    else .ok (n, rest)
  /-- Reads digits of a base. -/
  based (base : Nat) (label : String) (isDigit : Char → Bool) (digits : List Char) :
      Except Fault (Int × List Char) := do
    let rest ← committed (labelled label (skipDigits1 isDigit digits))
    bounded text rest false (value base (passed digits rest))

/-! ### Dates and times -/

/-- The number that decimal digits spell. -/
def numberOf (digits : List Char) : Nat := digits.foldl (fun n c => n * 10 + (c.toNat - 48)) 0

/-- Reads a number of so many digits in a range. -/
def readFixed (width low high : Nat) (text : List Char) : Except Fault (Nat × List Char) :=
  let digits := (text.take width).takeWhile Char.isDigit
  let n := numberOf digits
  if digits.length ≠ width then fault text
  else if low ≤ n ∧ n ≤ high then .ok (n, text.drop width)
  else refuse text "value is out of range"

/-- Passes over a character. -/
def skipChar (c : Char) (text : List Char) : Except Fault (List Char) :=
  if text.head? = some c then .ok text.tail else fault text

/-- Is the year a leap year? -/
def isLeap (year : Nat) : Bool := year % 4 == 0 && (year % 100 != 0 || year % 400 == 0)

/-- The number of days of a month. -/
def daysIn (year month : Nat) : Nat :=
  if month = 2 then (if isLeap year then 29 else 28)
  else if month = 4 ∨ month = 6 ∨ month = 9 ∨ month = 11 then 30
  else 31

/-- Passes over a date. -/
def skipDate (text : List Char) : Except Fault (List Char) := do
  let (year, text) ← readFixed 4 0 9999 text
  let text ← skipChar '-' text
  committed do
    let (month, text) ← readFixed 2 1 12 text
    let text ← skipChar '-' text
    let (day, rest) ← readFixed 2 1 31 text
    if daysIn year month < day then refuse text "value is out of range" else .ok rest

/-- The digits of a part of a second as they are kept: nine at most, without zeros at the end
and without a point that nothing follows. -/
def secondsPart (digits : List Char) : List Char :=
  let kept := ((digits.take 9).reverse.dropWhile (· == '0')).reverse
  if kept.isEmpty then [] else '.' :: kept

/-- An offset as it is kept; of none at all the sign is a plus. -/
def offsetChars (sign : Char) (hours minutes : Nat) (digits : List Char) : List Char :=
  (if hours = 0 ∧ minutes = 0 then '+' else sign) :: digits

/-- Reads a time as a text. -/
def readTime (text : List Char) : Except Fault (List Char × List Char) := do
  let (_, rest) ← readFixed 2 0 23 text
  let rest ← skipChar ':' rest
  committed do
    let (_, rest) ← readFixed 2 0 59 rest
    let rest ← skipChar ':' rest
    let (_, rest) ← readFixed 2 0 60 rest
    let clock := passed text rest
    match rest with
    | '.' :: part =>
      let digits := part.takeWhile Char.isDigit
      if digits.isEmpty then .ok (clock, rest)
      else .ok (clock ++ secondsPart digits, part.drop digits.length)
    | _ => .ok (clock, rest)

/-- Reads an offset as a text. -/
def readOffset (text : List Char) : Except Fault (List Char × List Char) :=
  labelled "time offset"
    (match text with
    | 'Z' :: rest | 'z' :: rest => .ok (['Z'], rest)
    | c :: rest =>
      if c = '+' ∨ c = '-' then committed do
        let (hours, rest') ← readFixed 2 0 23 rest
        let rest' ← skipChar ':' rest'
        let (minutes, rest') ← readFixed 2 0 59 rest'
        .ok (offsetChars c hours minutes (passed rest rest'), rest')
      else fault text
    | [] => fault [])

/-- Reads a date, a time, or both, as a text. -/
def readMoment (text : List Char) : Except Fault (String × List Char) :=
  orTry
    (labelled "date-time" do
      let rest ← skipDate text
      let date := passed text rest
      match rest with
      | c :: afterMark =>
        if c = 'T' ∨ c = 't' ∨ c = ' ' then
          match readTime afterMark with
          | .ok (time, rest) =>
            let (offset, rest) ← orTry (readOffset rest) fun _ => .ok ([], rest)
            .ok (String.ofList (date ++ 'T' :: time ++ offset), rest)
          | .error f => if f.final then .error f else .ok (String.ofList date, rest)
        else .ok (String.ofList date, rest)
      | [] => .ok (String.ofList date, []))
    fun _ => labelled "time" ((readTime text).map fun (time, rest) => (String.ofList time, rest))

end Keyring.Toml
