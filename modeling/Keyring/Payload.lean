import Keyring.Decimal.Real
import Keyring.Json.Canonical

/-!
# `Keyring.Payload`: what a caller wants signed

A payload is data as a program holds it: numbers of several widths, options,
variants, records, maps with keys that are no texts. Its JSON form turns
variants into objects of one field and numbers that JSON cannot hold into
`null`; a few payloads have none.

* `Payload.toJson`: the JSON form, or the cause why there is none.
* `Payload.ofJson`: a JSON value as a payload.
* `Payload.canonical`: the text that is signed.
-/

set_option autoImplicit false

namespace Keyring

/-- Data to be signed. -/
inductive Payload where
  | unit
  | none
  | some (p : Payload)
  | bool (b : Bool)
  | int (n : Int)
  | single (x : Decimal.Real .single)
  | double (x : Decimal.Real .double)
  | char (c : Char)
  | text (s : String)
  | bytes (b : List UInt8)
  | unitVariant (name : String)
  | newtype (p : Payload)
  | newtypeVariant (name : String) (p : Payload)
  | seq (items : List Payload)
  | tupleVariant (name : String) (items : List Payload)
  | map (entries : List (Payload × Payload))
  | record (fields : List (String × Payload))
  | recordVariant (name : String) (fields : List (String × Payload))
  deriving Inhabited

namespace Payload

/-- Why a payload has no JSON form. -/
inductive Error where
  /-- A whole number is outside the range that JSON keeps. -/
  | numberRange
  /-- A key of a map is no text and nothing that stands for one. -/
  | keyNotText
  /-- A key of a map is a float without a finite value. -/
  | keyNotFinite
  deriving DecidableEq, Repr

/-- The wording of an error. -/
def Error.message : Error → String
  | .numberRange => "number out of range"
  | .keyNotText => "key must be a string"
  | .keyNotFinite => "float key must be finite (got NaN or +/-inf)"

/-- The text that a payload is as a key of a map. -/
def keyText : Payload → Except Error String
  | .text s | .unitVariant s => .ok s
  | .char c => .ok (String.ofList [c])
  | .bool b => .ok (if b then "true" else "false")
  | .int n => .ok (String.ofList (Json.wholeChars n))
  | .single (.finite x) => .ok (x.render .narrowKey)
  | .double (.finite x) => .ok (x.render .canonical)
  | .single _ | .double _ => .error .keyNotFinite
  | .newtype p => keyText p
  | _ => .error .keyNotText

/-- A float of 64 bits as JSON. -/
def ofDouble : Decimal.Real .double → Json
  | .finite x => .float x
  | _ => .null

/-- A float of 32 bits as JSON. -/
def ofSingle : Decimal.Real .single → Json
  | .finite x => ((x.widen? .double).map Json.float).getD .null
  | _ => .null

/-- A byte as JSON. -/
def ofByte (b : UInt8) : Json := ((Whole.ofInt? b.toNat).map Json.whole).getD .null

/-- How a field is put among those before it. -/
abbrev Put := String → Json → Json.Fields → Json.Fields

mutual

/-- The JSON form, with `put` as the rule for the fields of objects. -/
def toJsonWith (put : Put) : Payload → Except Error Json
  | .unit | .none => .ok .null
  | .some p | .newtype p => toJsonWith put p
  | .bool b => .ok (.bool b)
  | .int n =>
    match Whole.ofInt? n with
    | .some n => .ok (.whole n)
    | .none => .error .numberRange
  | .single x => .ok (ofSingle x)
  | .double x => .ok (ofDouble x)
  | .char c => .ok (.text (String.ofList [c]))
  | .text s | .unitVariant s => .ok (.text s)
  | .bytes b => .ok (.list (b.map ofByte))
  | .newtypeVariant name p => do .ok (.object [(name, ← toJsonWith put p)])
  | .seq items => do .ok (.list (← itemsWith put items))
  | .tupleVariant name items => do .ok (.object [(name, .list (← itemsWith put items))])
  | .map entries => do .ok (.object (← entriesWith put entries []))
  | .record fields => do .ok (.object (← fieldsWith put fields []))
  | .recordVariant name fields => do
    .ok (.object [(name, .object (← fieldsWith put fields []))])

/-- The JSON forms of items. -/
def itemsWith (put : Put) : List Payload → Except Error (List Json)
  | [] => .ok []
  | item :: rest => do
    let first ← toJsonWith put item
    .ok (first :: (← itemsWith put rest))

/-- Puts the entries of a map among `done`. -/
def entriesWith (put : Put) : List (Payload × Payload) → Json.Fields → Except Error Json.Fields
  | [], done => .ok done
  | (key, value) :: rest, done => do
    let name ← keyText key
    let value ← toJsonWith put value
    entriesWith put rest (put name value done)

/-- Puts the fields of a record among `done`. -/
def fieldsWith (put : Put) : List (String × Payload) → Json.Fields → Except Error Json.Fields
  | [], done => .ok done
  | (name, value) :: rest, done => do
    let value ← toJsonWith put value
    fieldsWith put rest (put name value done)

end

/-- The JSON form, its objects in ascending order. -/
def toJson (p : Payload) : Except Error Json := toJsonWith Json.Fields.insert p

mutual

/-- The payload that a JSON value is. -/
def ofJson : Json → Payload
  | .null => .unit
  | .bool b => .bool b
  | .whole n => .int n.val
  | .float x => .double (.finite x)
  | .text s => .text s
  | .list items => .seq (ofItems items)
  | .object fields => .record (ofFields fields)

/-- The payloads that JSON values are. -/
def ofItems : List Json → List Payload
  | [] => []
  | item :: rest => ofJson item :: ofItems rest

/-- The payloads that the values of fields are. -/
def ofFields : List (String × Json) → List (String × Payload)
  | [] => []
  | (name, value) :: rest => (name, ofJson value) :: ofFields rest

end

/-- The text that is signed for a payload. -/
def canonical (p : Payload) : Except Error String := p.toJson.map Json.canonical

end Payload
end Keyring
