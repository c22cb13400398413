import Keyring.Proofs.Json.Reader
import Keyring.Proofs.Key.Signing
import Keyring.Session.Request

/-!
# `Keyring.Proofs.Session.Wire`: signed requests are read back

A request is sent as compact JSON. Who knows its shape reads it back as it was
sent. Who does not, reads a value with its fields in order, which has the same
canonical text and so the same signatures. The theorems:

* `Signed.reads_chars`: signed data is read back, however its data is.
* `Proof.reads_chars`: a proof is read back.
* `Proof.readsValue_wire`: a proof is read as a value with its fields in order.
* `Signed.requests_read_back`: all of this for the texts of whole requests.
-/

set_option autoImplicit false

namespace Keyring

open Json (Reads ReadsValue)

/-! ### Signed data -/

namespace Signed

variable {α β : Type}

/-- Signed data as a text. -/
def text (dataChars : α → List Char) (s : Signed α) : String := String.ofList (s.chars dataChars)

/-- Signed data is read back with its signature, as whatever its data is read as. The reader
of the data is a parameter, because proofs and plain values are read by different ones. -/
theorem reads_chars {readData : Json.Reader β} {dataChars : α → List Char} {s : Signed α} {x : β}
    {levels : Nat} (h : ReadsValue (readData levels) (dataChars s.data) x) :
    Reads (Signed.read readData (levels + 1)) (s.chars dataChars) ⟨x, s.signature⟩ :=
  Json.reads_record
    (.field h (by simp) (.field (Json.reads_string s.signature levels).value (by simp) .done)) rfl

/-- The text of signed data is read back as a whole. The record of data and signature takes
one level, which leaves 126 for the data. -/
theorem readAll_text {readData : Json.Reader β} {dataChars : α → List Char} {s : Signed α} {x : β}
    (h : ReadsValue (readData 126) (dataChars s.data) x) :
    Json.readAll (Signed.read readData) Json.maxLevels (s.text dataChars) = .ok ⟨x, s.signature⟩ :=
  Json.readAll_of_reads (reads_chars h).value

/-- Is the signature one of the data under a public key? -/
def VerifiedBy (key : String) (payload : α → Payload) (s : Signed α) : Prop :=
  Signing.verify key (payload s.data) s.signature = true

/-- What is read from the text of signed data is that data, and whatever signature was verified
before is verified after. -/
structure SurvivesWire (readData : Json.Reader α) (dataChars : α → List Char)
    (payload : α → Payload) (s : Signed α) : Prop where
  same : Json.readAll (Signed.read readData) Json.maxLevels (s.text dataChars) = .ok s
  verified : ∀ key read,
    Json.readAll (Signed.read readData) Json.maxLevels (s.text dataChars) = .ok read →
      s.VerifiedBy key payload → read.VerifiedBy key payload

/-- Signed data survives the wire if its data is read back. The check of the signature is
then a check of the same data, so it gives the same answer. -/
theorem SurvivesWire.of_reads {readData : Json.Reader α} {dataChars : α → List Char}
    {payload : α → Payload} {s : Signed α}
    (h : ReadsValue (readData 126) (dataChars s.data) s.data) :
    SurvivesWire readData dataChars payload s where
  same := readAll_text h
  verified key read hread hverified := by
    rw [readAll_text h] at hread
    rwa [← Except.ok.inj hread]

end Signed

/-! ### Proofs -/

namespace Proof

/-- The time of a proof is a number of 64 bits with a sign. -/
structure InRange (p : Proof) : Prop where
  low : -9223372036854775808 ≤ p.timestamp
  high : p.timestamp < 9223372036854775808

/-- The time of every proof that is made is in range, because points in time are. -/
theorem inRange_make (pair : KeyPair) (nonce : Bytes) (now : Instant) :
    (Proof.make pair nonce now).InRange := by
  have hlow := now.minDay_le
  have hhigh := now.le_maxDay
  have hsecond := now.second_lt
  simp only [Calendar.minDay, Calendar.maxDay] at hlow hhigh
  constructor
  · show -9223372036854775808 ≤ now.day * 86400 + now.second
    omega
  · show now.day * 86400 + now.second < 9223372036854775808
    omega

/-- A proof is read back, since its fields are texts and a time of 64 bits. The texts may
hold any characters, since quoting is undone by the reader. -/
theorem reads_chars {p : Proof} (h : p.InRange) (levels : Nat) :
    Reads (Proof.read (levels + 1)) p.chars p :=
  Json.reads_record
    (.field (Json.reads_string p.nonce levels).value (by simp)
      (.field (Json.reads_string p.publicHex levels).value (by simp)
        (.field (Json.readsValue_int64 h.low h.high levels) (by simp)
          (.field (Json.reads_string p.address levels).value (by simp) .done))))
    rfl

/-- The time of a proof as a whole number. -/
def wholeTime (p : Proof) (h : p.InRange) : Whole :=
  ⟨p.timestamp, h.low, Int.lt_trans h.high (by decide)⟩

/-- A proof as a value, its fields in the order in which they are sent. -/
def wire (p : Proof) (h : p.InRange) : Json :=
  .object [("nonce", .text p.nonce), ("publickey", .text p.publicHex),
    ("timestamp", .whole (p.wholeTime h)), ("address", .text p.address)]

/-- The characters that are signed for a proof: its fields in the order of their names. -/
def canonicalChars (p : Proof) : List Char :=
  Json.objectChars [("address", Json.quoted p.address), ("nonce", Json.quoted p.nonce),
    ("publickey", Json.quoted p.publicHex), ("timestamp", Json.wholeChars p.timestamp)]

variable {p : Proof} (h : p.InRange)

/-- A proof is sent as the value with its fields in the order of declaration. -/
theorem chars_wire : (p.wire h).chars = p.chars :=
  Json.chars_object _

/-- What is signed for a proof is the value that is sent for it. -/
theorem ofJson_wire : Payload.ofJson (p.wire h) = p.toPayload := rfl

/-- The canonical order of a proof's fields is that of their names. The program declares the
fields in another order, and the wire has them as they are declared. -/
theorem sorted_wire : (p.wire h).sorted
    = .object [("address", .text p.address), ("nonce", .text p.nonce),
        ("publickey", .text p.publicHex), ("timestamp", .whole (p.wholeTime h))] := by
  have hnames : ¬ "publickey" < "nonce" ∧ ¬ "timestamp" < "nonce" ∧ ¬ "timestamp" < "publickey" ∧
      "address" < "nonce" := by
    decide
  simp [wire, Json.sorted, Json.sortedFields, Json.Fields.insert, Entries.insert, hnames]

include h in
/-- The canonical text of a proof exists and is written down here, so it can be computed
without the printer. -/
theorem canonical_toPayload : p.toPayload.canonical = .ok (String.ofList p.canonicalChars) := by
  rw [← ofJson_wire h, Payload.canonical_ofJson]
  show Except.ok (p.wire h).sorted.render = _
  rw [sorted_wire, Json.render, Json.chars_object]
  rfl

/-- A proof has no float in it. Its timestamp is a whole number, so nothing in it is rounded
when it is read. -/
theorem floatFree_wire : (p.wire h).FloatFree := by
  simp [wire]

/-- A proof is read as a value with its fields in order. Its fields are texts and a whole
number, so one level is enough. -/
theorem readsValue_wire (rounding : Json.Rounding) (levels : Nat) :
    ReadsValue (Json.readValue rounding (levels + 1)) p.chars (p.wire h).sorted := by
  rw [← chars_wire h]
  refine Json.readsValue_sorted rounding (levels + 1) (p.wire h) (floatFree_wire h) ?_
  show 0 + 1 ≤ levels + 1
  omega

/-- The value that is read for a proof has the canonical text of that proof. -/
theorem canonical_sorted_wire :
    (Payload.ofJson (p.wire h).sorted).canonical = p.toPayload.canonical := by
  rw [← ofJson_wire h, Payload.canonical_ofJson, Payload.canonical_ofJson, Json.canonical_sorted]

end Proof

/-! ### Requests -/

/-- Signed requests survive the wire. A signed proof with any texts and any time of 64 bits, and
signed data without floats and at most 126 levels deep, its fields in order as a value holds them,
are read back from their texts as they were, so that a signature that was verified before is
verified after. A proof is read without its shape too. The value that is read has the canonical
text of the proof, with the fields in the order of their names, and the same signatures are
verified for it. -/
theorem Signed.requests_read_back :
    (∀ request : Signed Proof, request.data.InRange →
      request.SurvivesWire Proof.read Proof.chars Proof.toPayload) ∧
    (∀ request : Signed Json, request.data.Ordered → request.data.FloatFree →
      request.data.depth ≤ 126 →
      request.SurvivesWire (Json.readValue .stepwise) Json.chars Payload.ofJson) ∧
    ∀ request : Signed Proof, request.data.InRange → ∃ data : Json,
      Json.parse (String.ofList request.data.chars) = .ok data ∧
      Json.readAll (Signed.read (Json.readValue .stepwise)) Json.maxLevels
        (request.text Proof.chars) = .ok ⟨data, request.signature⟩ ∧
      request.data.toPayload.canonical = .ok (String.ofList request.data.canonicalChars) ∧
      (Payload.ofJson data).canonical = .ok (String.ofList request.data.canonicalChars) ∧
      ∀ key signature, Signing.verify key (.ofJson data) signature
        = Signing.verify key request.data.toPayload signature := by
  refine ⟨fun request h => ?_, fun request hordered hfloats hdepth => ?_, fun request h => ?_⟩
  · exact .of_reads (Proof.reads_chars h 125).value
  · exact .of_reads (Json.readsValue_ordered .stepwise hordered hfloats hdepth)
  · -- Read without its shape, the proof is the value with its fields sorted.
    have hcanonical := Proof.canonical_sorted_wire h
    refine ⟨(request.data.wire h).sorted, ?_, ?_, Proof.canonical_toPayload h, ?_, ?_⟩
    · exact Json.readAll_of_reads (Proof.readsValue_wire h .stepwise 126)
    · exact Signed.readAll_text (Proof.readsValue_wire h .stepwise 125)
    · rw [hcanonical, Proof.canonical_toPayload h]
    · intro key signature
      rw [Signing.verify, Signing.verify, hcanonical]

/-- A proof whose texts hold quotes, controls and characters outside of the first plane, before
1970, and data with an object in a list. -/
theorem Signed.requests_read_back_nested :
    Signed.SurvivesWire Proof.read Proof.chars Proof.toPayload
      ⟨⟨"\"\\\x00\n", "𝄞", -1, "é"⟩, "\t"⟩ ∧
    Signed.SurvivesWire (Json.readValue .stepwise) Json.chars Payload.ofJson
      ⟨.list [.object [("\x1f", .null), ("ö", .list [.bool true])],
        .whole ⟨-5, by decide, by decide⟩], "\uffff"⟩ ∧
    ∃ data, Json.parse (String.ofList (Proof.chars ⟨"\"\\\x00\n", "𝄞", -1, "é"⟩))
      = .ok data := by
  have hrange : Proof.InRange ⟨"\"\\\x00\n", "𝄞", -1, "é"⟩ := ⟨by decide, by decide⟩
  refine ⟨Signed.requests_read_back.1 _ hrange,
    Signed.requests_read_back.2.1 _ ?_ ?_ (by decide), ?_⟩
  · exact ⟨⟨by unfold Json.Fields.Ascending; decide, trivial, ⟨trivial, trivial⟩, trivial⟩,
      trivial, trivial⟩
  · simp
  · obtain ⟨data, hdata, -⟩ := Signed.requests_read_back.2.2 ⟨_, "\t"⟩ hrange
    exact ⟨data, hdata⟩

end Keyring
