import Keyring.Proofs.Entries
import Keyring.Proofs.Toml.Lexeme
import Keyring.Toml.Document

/-!
# `Keyring.Proofs.Toml.Document`: a document of texts is read back

A document is written as lines, each with a bare name and a text, and a heading
before the lines of a table. Reading keeps the places of all values, which the
meaning of a document does not show; so what stands under the names is compared
without places (`Holds`). The theorems:

* `readPair_line`: a line is read to its name and its text.
* `readDocument_lines`: lines are read into the open table one after another.
* `parse_document`: a document of lines and one table of lines is read back.
-/

set_option autoImplicit false

namespace Keyring.Toml

/-! ### Writing -/

/-- A name that needs no quotes. -/
def IsBareName (name : String) : Prop := name.toList ≠ [] ∧ ∀ c ∈ name.toList, isBare c = true

instance (name : String) : Decidable (IsBareName name) :=
  decidable_of_iff (name.toList ≠ [] ∧ name.toList.all isBare = true) (by
    rw [IsBareName, List.all_eq_true])

/-- A line with a name and a text. -/
def line (entry : String × String) : List Char :=
  entry.1.toList ++ ' ' :: '=' :: ' ' :: (quoted entry.2 ++ ['\n'])

/-- A line with the name of a table. -/
def heading (name : String) : List Char := '[' :: name.toList ++ [']', '\n']

/-- Lines, and a table of lines under its heading. -/
def document (entries : List (String × String)) (name : String) (inner : List (String × String)) :
    String :=
  String.ofList (entries.flatMap line ++ heading name ++ inner.flatMap line)

/-- The names of a document are bare, and none stands twice in one table. -/
structure Writable (entries : List (String × String)) (name : String)
    (inner : List (String × String)) : Prop where
  bare : ∀ entry ∈ entries, IsBareName entry.1
  bareName : IsBareName name
  bareInner : ∀ entry ∈ inner, IsBareName entry.1
  distinct : (entries.map Prod.fst ++ [name]).Nodup
  distinctInner : (inner.map Prod.fst).Nodup

/-! ### Names -/

/-- A bare character is no blank, and none that something else begins with. So the readers of
lines know a name by its first character. -/
theorem isBare_cases {c : Char} (h : isBare c = true) : isSpace c = false ∧ c ≠ '"' ∧ c ≠ '\'' ∧
    c ≠ '#' ∧ c ≠ '[' ∧ c ≠ '\n' ∧ c ≠ '\x0d' ∧ c ≠ '\ufeff' := by
  have hne : ∀ {other : Char}, isBare other = false → c ≠ other := by
    rintro other hother rfl
    exact absurd (h.symm.trans hother) nofun
  refine ⟨?_, hne rfl, hne rfl, hne rfl, hne rfl, hne rfl, hne rfl, hne rfl⟩
  rw [isSpace, beq_false_of_ne (hne rfl), beq_false_of_ne (hne rfl)]
  rfl

/-- Nothing is skipped in front of a character that is no blank. The writer puts no blanks in
front of what the reader looks for. -/
theorem skipSpaces_of_not_isSpace {c : Char} (h : isSpace c = false) (rest : List Char) :
    skipSpaces (c :: rest) = c :: rest := by
  rw [skipSpaces, List.dropWhile_cons_of_neg (by simp [h])]

/-- A bare name is read up to a character that is not bare. -/
theorem readName_bare {name : String} (hname : IsBareName name) {next : Char}
    (hnext : isBare next = false) (rest : List Char) :
    readName (name.toList ++ next :: rest)
      = .ok ((name, ⟨name.toList ++ next :: rest, next :: rest⟩), next :: rest) := by
  obtain ⟨hne, hbare⟩ := hname
  have htake : (name.toList ++ next :: rest).takeWhile isBare = name.toList := by
    rw [List.takeWhile_append_of_pos hbare, List.takeWhile_cons_of_neg (by simp [hnext]),
      List.append_nil]
  obtain ⟨c, tail, hchars⟩ := List.exists_cons_of_ne_nil hne
  -- A bare name begins with no quote of either kind, so it is read as it stands.
  obtain ⟨-, hquote, hapostrophe, -⟩ := isBare_cases (hbare c (hchars ▸ List.mem_cons_self))
  unfold readName
  split
  · rename_i heq
    rw [hchars] at heq
    exact absurd (List.cons.inj heq).1 hquote
  · rename_i heq
    rw [hchars] at heq
    exact absurd (List.cons.inj heq).1 hapostrophe
  · simp only [htake, List.isEmpty_eq_false_iff.2 hne, String.ofList_toList, List.drop_left]
    rfl

/-- A key of one bare name is read up to what follows it and the blanks there, unless a point
goes on with it. -/
theorem readKey_bare {name : String} (hname : IsBareName name) {next c : Char}
    {rest after : List Char} (hskip : skipSpaces (next :: rest) = c :: after)
    (hnext : isBare next = false) (hpoint : c ≠ '.') :
    readKey (name.toList ++ next :: rest)
      = .ok ([(name, ⟨name.toList ++ next :: rest, next :: rest⟩)], c :: after) := by
  have hstart : skipSpaces (name.toList ++ next :: rest) = name.toList ++ next :: rest := by
    obtain ⟨first, tail, hchars⟩ := List.exists_cons_of_ne_nil hname.1
    have hfirst := (isBare_cases (hname.2 first (hchars ▸ List.mem_cons_self))).1
    rw [hchars]
    exact skipSpaces_of_not_isSpace hfirst _
  -- What follows the name is no point, so there is one name.
  have hnames : readNames ((name.toList ++ next :: rest).length + 1) (name.toList ++ next :: rest)
      = .ok ([(name, ⟨name.toList ++ next :: rest, next :: rest⟩)], c :: after) := by
    rw [readNames, hstart, readName_bare hname hnext]
    dsimp only [bind, Except.bind]
    rw [hskip]
    split
    · rename_i heq
      exact absurd (List.cons.inj heq).1 hpoint
    · rfl
  rw [readKey, hnames]
  rfl

/-! ### Fields -/

/-- The fields have these names and texts; where they stand in the text does not matter. -/
def Holds (fields : Fields) (entries : List (String × String)) : Prop :=
  fields.map (fun field => (field.1, field.2.2))
    = entries.map fun entry => (entry.1, Value.text entry.2)

/-- Fields with texts have the names of these texts. So whether a name is new can be told
from the texts. -/
theorem Holds.names {fields : Fields} {entries : List (String × String)}
    (h : Holds fields entries) : fields.map Prod.fst = entries.map Prod.fst := by
  have hnames := congrArg (List.map Prod.fst) h
  rw [List.map_map, List.map_map] at hnames
  exact hnames

/-- The value of a new name goes to the end. The induction goes past the fields that are
there, none of which has the name. -/
theorem alterField_new {name : String} {fields : Fields} (h : name ∉ fields.map Prod.fst)
    {f : Option Placed → Except Clash Placed} {value : Placed} (hvalue : f none = .ok value) :
    alterField name f fields = .ok (fields ++ [(name, value)]) := by
  induction fields with
  | nil =>
      rw [alterField, hvalue]
      rfl
  | cons field rest ih =>
      obtain ⟨hfirst, hrest⟩ := not_or.1 (mt List.mem_cons.2 h)
      rw [alterField, if_neg (Ne.symm hfirst), ih hrest]
      rfl

/-- A text under a new name goes to the end of the open table. A name that was there would be
a clash. -/
theorem put_new {d : Document} {name : String} (h : name ∉ d.fields.map Prod.fst)
    (keyPlace place : Span) (s : String) :
    d.put [(name, keyPlace)] (place, .text s)
      = .ok { d with fields := d.fields ++ [(name, place, .text s)],
                     place := ⟨d.place.start, place.stop⟩ } := by
  have hfields : putNew name (place, .text s) (some (namesOf d.path)) false false d.fields
      = .ok (d.fields ++ [(name, place, .text s)]) := by
    rw [putNew]
    exact alterField_new h rfl
  show (putNew name _ (some (namesOf d.path)) false false d.fields >>= _) = _
  rw [hfields]
  rfl

/-- A document has become another one by these texts at the end of its open table. -/
structure Document.Grows (d d' : Document) (entries : List (String × String)) : Prop where
  root : d'.root = d.root
  path : d'.path = d.path
  isItem : d'.isItem = d.isItem
  fields : ∃ more, d'.fields = d.fields ++ more ∧ Holds more entries

/-- A document grows by nothing. The induction over the lines starts here. -/
theorem Document.Grows.refl (d : Document) : d.Grows d [] :=
  ⟨rfl, rfl, rfl, [], (List.append_nil _).symm, rfl⟩

/-- A document grows by one list of lines after the other. Its root and its path are left
alone by both. -/
theorem Document.Grows.trans {d d' d'' : Document} {entries more : List (String × String)}
    (h : d.Grows d' entries) (h' : d'.Grows d'' more) : d.Grows d'' (entries ++ more) := by
  obtain ⟨fields, hfields, hholds⟩ := h.fields
  obtain ⟨fields', hfields', hholds'⟩ := h'.fields
  refine ⟨h'.root.trans h.root, h'.path.trans h.path, h'.isItem.trans h.isItem,
    fields ++ fields', ?_, ?_⟩
  · rw [hfields', hfields, List.append_assoc]
  · rw [Holds, List.map_append, List.map_append, hholds, hholds']

/-- A document has the names of the lines that it grew by. So a line with a new name is no
clash. -/
theorem Document.Grows.names {d d' : Document} {entries : List (String × String)}
    (h : d.Grows d' entries) :
    d'.fields.map Prod.fst = d.fields.map Prod.fst ++ entries.map Prod.fst := by
  obtain ⟨more, hfields, hholds⟩ := h.fields
  rw [hfields, List.map_append, hholds.names]

/-! ### Lines -/

/-- A line with a new name is read into the open table, up to the next line. The name, the
sign and the value are taken off one by one, with the blanks that the writer puts between
them. -/
theorem readPair_line {d : Document} {name : String} (hname : IsBareName name)
    (hnew : name ∉ d.fields.map Prod.fst) (s : String) (rest : List Char) :
    ∃ d', readPair d (line (name, s) ++ rest) = .ok (d', rest) ∧ d.Grows d' [(name, s)] := by
  have hline : line (name, s) ++ rest
      = name.toList ++ ' ' :: '=' :: ' ' :: (quoted s ++ '\n' :: rest) := by
    simp [line]
  have hskip : skipSpaces (' ' :: '=' :: ' ' :: (quoted s ++ '\n' :: rest))
      = '=' :: ' ' :: (quoted s ++ '\n' :: rest) := rfl
  have hkey := readKey_bare hname hskip rfl (by decide)
  have hspaces : skipSpaces (' ' :: (quoted s ++ '\n' :: rest)) = quoted s ++ '\n' :: rest := rfl
  have hvalue : readValue maxLevels (quoted s ++ '\n' :: rest)
      = .ok (.text s, '\n' :: rest) := by
    show (readString (quoted s ++ '\n' :: rest)).map _ = _
    rw [readString_quoted s (by decide)]
    rfl
  -- The places are only for messages; the new field has the text.
  let place : Span := ⟨quoted s ++ '\n' :: rest, '\n' :: rest⟩
  refine ⟨{ d with fields := d.fields ++ [(name, place, .text s)],
                   place := ⟨d.place.start, place.stop⟩ },
    ?_, rfl, rfl, rfl, [(name, place, .text s)], rfl, rfl⟩
  rw [hline, readPair, hkey]
  show (readValue maxLevels (skipSpaces (' ' :: (quoted s ++ '\n' :: rest))) >>= _) = _
  rw [hspaces, hvalue]
  show (settle _ (d.put _ _) >>= _) = _
  rw [put_new hnew]
  rfl

/-- A line is read in one turn, which knows it by the first character of its name. -/
theorem readDocument_line {d : Document} {name : String} (hname : IsBareName name)
    (hnew : name ∉ d.fields.map Prod.fst) (s : String) (turns : Nat) (rest : List Char) :
    ∃ d', readDocument (turns + 1) d (line (name, s) ++ rest) = readDocument turns d' rest ∧
      d.Grows d' [(name, s)] := by
  obtain ⟨d', hpair, hgrows⟩ := readPair_line hname hnew s rest
  refine ⟨d', ?_, hgrows⟩
  obtain ⟨c, tail, hchars⟩ := List.exists_cons_of_ne_nil hname.1
  obtain ⟨hspace, -, -, hcomment, hbracket, hbreak, hreturn, -⟩ :=
    isBare_cases (hname.2 c (hchars ▸ List.mem_cons_self))
  have hstart : line (name, s) ++ rest
      = c :: (tail ++ ' ' :: '=' :: ' ' :: (quoted s ++ '\n' :: rest)) := by
    simp [line, hchars]
  rw [hstart] at hpair ⊢
  -- The name begins no comment, no heading and no empty line.
  rw [readDocument.eq_def]
  simp only [skipSpaces_of_not_isSpace hspace]
  rw [if_neg (not_or.2 ⟨hbreak, hreturn⟩), hpair]
  rfl

/-- Lines with new names are read into the open table one after another, each in one turn.
Induction on the lines. The invariant is that the names of the table and those that are still
to come are all different. -/
theorem readDocument_lines (d : Document) {entries : List (String × String)}
    (hbare : ∀ entry ∈ entries, IsBareName entry.1)
    (hnew : (d.fields.map Prod.fst ++ entries.map Prod.fst).Nodup) (turns : Nat)
    (rest : List Char) :
    ∃ d', readDocument (entries.length + turns) d (entries.flatMap line ++ rest)
        = readDocument turns d' rest ∧ d.Grows d' entries := by
  induction entries generalizing d with
  | nil => exact ⟨d, by rw [List.length_nil, Nat.zero_add]; rfl, .refl d⟩
  | cons entry entries ih =>
      obtain ⟨name, s⟩ := entry
      obtain ⟨hname, hrest⟩ := List.forall_mem_cons.1 hbare
      have hfresh : name ∉ d.fields.map Prod.fst := fun hmem =>
        (List.nodup_append.1 hnew).2.2 name hmem name List.mem_cons_self rfl
      obtain ⟨d', hline, hgrows⟩ := readDocument_line hname hfresh s (entries.length + turns)
        (entries.flatMap line ++ rest)
      -- The names that are left are still new to the table that has grown.
      have hnew' : (d'.fields.map Prod.fst ++ entries.map Prod.fst).Nodup := by
        rw [hgrows.names, List.append_assoc]
        exact hnew
      obtain ⟨d'', hlines, hgrows'⟩ := ih d' hrest hnew'
      refine ⟨d'', ?_, hgrows.trans hgrows'⟩
      rw [List.flatMap_cons, List.append_assoc, List.length_cons, Nat.succ_add, hline, hlines]

/-! ### Tables -/

/-- The table of a new name is opened without fields, after the lines of the document. -/
theorem openTable_new {d : Document} (hpath : d.path = []) {name : String}
    (hnew : name ∉ d.fields.map Prod.fst) (place place' : Span) :
    d.openTable [(name, place)] place' = .ok ⟨d.fields, [(name, place)], place', false, []⟩ := by
  have hmissing : d.fields.lookup name = none := Entries.lookup_eq_none_of_not_mem hnew
  have hclose : d.close = .ok d.fields := by
    rw [Document.close, hpath]
    rfl
  have hnames : namesOf [(name, place)] = [name] := rfl
  have hlast : lastName [(name, place)] = name := rfl
  have hinner : fieldsAt [name] d.fields = [] := by rw [fieldsAt, hmissing]
  rw [Document.openTable, hclose, hnames, hlast]
  dsimp only [bind, Except.bind, List.dropLast, descend]
  rw [hmissing, hinner]

/-- The heading of a new name is read in one turn, and the lines that follow go into its
table. -/
theorem readDocument_heading {d : Document} (hpath : d.path = []) {name : String}
    (hname : IsBareName name) (hnew : name ∉ d.fields.map Prod.fst) (turns : Nat)
    (rest : List Char) :
    ∃ place place', readDocument (turns + 1) d (heading name ++ rest)
      = readDocument turns ⟨d.fields, [(name, place)], place', false, []⟩ rest := by
  have hchars : heading name ++ rest = '[' :: (name.toList ++ ']' :: '\n' :: rest) := by
    simp [heading]
  have hskip : skipSpaces (']' :: '\n' :: rest) = ']' :: '\n' :: rest := rfl
  have hkey := readKey_bare hname hskip rfl (by decide)
  let place : Span := ⟨name.toList ++ ']' :: '\n' :: rest, ']' :: '\n' :: rest⟩
  let place' : Span := ⟨'[' :: (name.toList ++ ']' :: '\n' :: rest), '\n' :: rest⟩
  refine ⟨place, place', ?_⟩
  have hheading : readHeading d ('[' :: (name.toList ++ ']' :: '\n' :: rest))
      = .ok (⟨d.fields, [(name, place)], place', false, []⟩, rest) := by
    obtain ⟨c, tail, hcons⟩ := List.exists_cons_of_ne_nil hname.1
    obtain ⟨-, -, -, -, hbracket, -⟩ := isBare_cases (hname.2 c (hcons ▸ List.mem_cons_self))
    rw [readHeading.eq_def]
    -- The name does not begin with another bracket, nor is it missing.
    split
    · rename_i heq
      rw [hcons] at heq
      exact absurd (List.cons.inj (List.cons.inj heq).2).1 hbracket
    · rename_i heq
      rw [← (List.cons.inj heq).2, hkey]
      show labelled _ (settle _ (d.openTable _ _) >>= _) = _
      rw [openTable_new hpath hnew]
      rfl
    · rename_i hnone
      exact (hnone c (tail ++ ']' :: '\n' :: rest) (by rw [hcons]; rfl)).elim
  rw [hchars]
  show (readHeading d ('[' :: (name.toList ++ ']' :: '\n' :: rest)) >>= _) = _
  rw [hheading]
  rfl

/-- A document whose open table has a name of its own is closed with that table at the end. -/
theorem close_new {d : Document} {name : String} {place : Span} (hpath : d.path = [(name, place)])
    (hitem : d.isItem = false) (hnew : name ∉ d.root.map Prod.fst) :
    d.close = .ok (d.root ++ [(name, d.place, .table .explicit d.fields)]) := by
  rw [Document.close, hpath, hitem]
  exact alterField_new hnew rfl

/-! ### Meaning -/

/-- A table without the name that is set apart for moments means its fields. -/
theorem plainTable_eq {fields : Fields} (h : momentName ∉ fields.map Prod.fst) :
    plainTable fields = (plainFields fields).map .table := by
  cases fields with
  | nil => rfl
  | cons field rest =>
      obtain ⟨name, place, value⟩ := field
      have hname : name ≠ momentName := fun heq => h (heq ▸ List.mem_cons_self)
      rw [plainTable, if_neg hname, plainFields]
      cases value.plain with
      | error f => rfl
      | ok x => cases plainFields rest <;> rfl

/-- Fields with texts mean these texts, whatever follows them. The induction goes along the
fields, each of which is a plain text. -/
theorem Holds.plainFields_append {fields more : Fields} {entries : List (String × String)}
    {plain : List (String × Plain)} (h : Holds fields entries)
    (hmore : plainFields more = .ok plain) :
    plainFields (fields ++ more)
      = .ok (entries.map (fun entry => (entry.1, .text entry.2)) ++ plain) := by
  induction fields generalizing entries with
  | nil =>
      obtain rfl := List.map_eq_nil_iff.1 h.symm
      exact hmore
  | cons field rest ih =>
      obtain ⟨entry, entries, rfl, hfield, hrest⟩ := List.map_eq_cons_iff.1 h.symm
      obtain ⟨name, place, value⟩ := field
      obtain ⟨rfl, rfl⟩ := Prod.mk.inj hfield
      show (plainFields (rest ++ more) >>= _) = _
      rw [ih hrest.symm]
      rfl

/-- Fields with texts mean these texts. Nothing follows them here. -/
theorem Holds.plainFields {fields : Fields} {entries : List (String × String)}
    (h : Holds fields entries) :
    Toml.plainFields fields = .ok (entries.map fun entry => (entry.1, .text entry.2)) := by
  have hfields := h.plainFields_append (rfl : Toml.plainFields [] = .ok [])
  rwa [List.append_nil, List.append_nil] at hfields

/-- A bare name is not the one that is set apart for moments, which has a character that is
not bare. -/
theorem momentName_not_mem {names : List String} (h : ∀ name ∈ names, IsBareName name) :
    momentName ∉ names := fun hmem =>
  absurd ((h momentName hmem).2 '$' (by decide)) (by decide)

/-- Lines are at least as long as they are many, so the turns that are counted by characters
are enough. -/
theorem length_le_lines (entries : List (String × String)) :
    entries.length ≤ (entries.flatMap line).length := by
  induction entries with
  | nil => exact Nat.le_refl _
  | cons entry entries ih =>
      have hline : 0 < (line entry).length := by
        rw [line, List.length_append, List.length_cons]
        omega
      rw [List.flatMap_cons, List.length_append, List.length_cons]
      omega

/-- The fields of a document with one table at the end mean their texts and the table. -/
theorem Holds.plainTable {fields innerFields : Fields} {entries inner : List (String × String)}
    (h : Holds fields entries) (hinner : Holds innerFields inner)
    (hbare : ∀ entry ∈ entries, IsBareName entry.1) {name : String} (hname : IsBareName name)
    (hbareInner : ∀ entry ∈ inner, IsBareName entry.1) (place : Span) :
    Toml.plainTable (fields ++ [(name, place, .table .explicit innerFields)])
      = .ok (.table (entries.map (fun entry => (entry.1, .text entry.2)) ++
          [(name, .table (inner.map fun entry => (entry.1, .text entry.2)))])) := by
  have htable : Toml.plainTable innerFields
      = .ok (.table (inner.map fun entry => (entry.1, .text entry.2))) := by
    rw [plainTable_eq, hinner.plainFields]
    · rfl
    · rw [hinner.names]
      exact momentName_not_mem (List.forall_mem_map.2 hbareInner)
  -- The field at the end is the table, whose own fields are plain texts.
  have hlast : Toml.plainFields [(name, place, .table .explicit innerFields)]
      = .ok [(name, .table (inner.map fun entry => (entry.1, .text entry.2)))] := by
    show (Toml.plainTable innerFields >>= _) = _
    rw [htable]
    rfl
  rw [plainTable_eq, h.plainFields_append hlast]
  · rfl
  · rw [List.map_append, h.names]
    refine momentName_not_mem fun other hother => ?_
    rcases List.mem_append.1 hother with hmem | hmem
    · exact List.forall_mem_map.2 hbare other hmem
    · rw [List.mem_singleton.1 hmem]
      exact hname

/-- A document does not begin with a byte order mark, which the reader would take off. -/
theorem head?_document {entries : List (String × String)}
    (hbare : ∀ entry ∈ entries, IsBareName entry.1) (name : String) (rest : List Char) :
    (entries.flatMap line ++ (heading name ++ rest)).head? ≠ some '\ufeff' := by
  cases entries with
  | nil => exact fun h => absurd (Option.some.inj h) (by decide)
  | cons entry entries =>
      obtain ⟨hne, hchars⟩ := hbare entry List.mem_cons_self
      obtain ⟨c, tail, hcons⟩ := List.exists_cons_of_ne_nil hne
      obtain ⟨-, -, -, -, -, -, -, hmark⟩ := isBare_cases (hchars c (hcons ▸ List.mem_cons_self))
      simpa [line, hcons] using hmark

/-- Lines and a table of lines are read in as many turns as there are lines. The table is
still open at the end. The lines before the heading go to the root and those behind it to
the table, and each takes one turn. -/
theorem readDocument_document {entries inner : List (String × String)} {name : String}
    (h : Writable entries name inner) {turns : Nat}
    (hturns : entries.length + inner.length + 1 < turns) :
    ∃ d place, readDocument turns .empty
        (entries.flatMap line ++ (heading name ++ inner.flatMap line)) = .ok d ∧
      d.path = [(name, place)] ∧ d.isItem = false ∧ Holds d.root entries ∧
        Holds d.fields inner := by
  obtain ⟨hdistinct, -, hnew⟩ := List.nodup_append.1 h.distinct
  obtain ⟨k, rfl⟩ : ∃ k, turns = entries.length + (inner.length + (k + 1) + 1) :=
    ⟨turns - entries.length - inner.length - 2, by omega⟩
  -- First the lines in front of the heading, then the heading, then the lines behind it.
  obtain ⟨d, hread, hgrows⟩ := readDocument_lines .empty h.bare hdistinct
    (inner.length + (k + 1) + 1) (heading name ++ inner.flatMap line)
  have hnames : d.fields.map Prod.fst = entries.map Prod.fst := hgrows.names
  have hfresh : name ∉ d.fields.map Prod.fst := fun hmem =>
    hnew name (hnames ▸ hmem) name (List.mem_singleton_self name) rfl
  obtain ⟨place, place', hheading⟩ := readDocument_heading hgrows.path h.bareName hfresh
    (inner.length + (k + 1)) (inner.flatMap line)
  obtain ⟨d', hreadInner, hgrowsInner⟩ := readDocument_lines
    ⟨d.fields, [(name, place)], place', false, []⟩ h.bareInner h.distinctInner (k + 1) []
  rw [List.append_nil] at hreadInner
  obtain ⟨fields, hfields, hholds⟩ := hgrows.fields
  obtain ⟨innerFields, hinnerFields, hholdsInner⟩ := hgrowsInner.fields
  refine ⟨d', place, ?_, hgrowsInner.path, hgrowsInner.isItem, ?_, ?_⟩
  · rw [hread, hheading, hreadInner]
    rfl
  · rw [hgrowsInner.root, hfields]
    exact hholds
  · rw [hinnerFields]
    exact hholdsInner

/-- A document of lines and one table of lines is read back: it means their names and texts.
So for every layer of settings there is a file in this form that gives it. -/
theorem parse_document {entries inner : List (String × String)} {name : String}
    (h : Writable entries name inner) :
    parse (document entries name inner)
      = .ok (.table (entries.map (fun entry => (entry.1, .text entry.2)) ++
          [(name, .table (inner.map fun entry => (entry.1, .text entry.2)))])) := by
  have hchars : (document entries name inner).toList
      = entries.flatMap line ++ (heading name ++ inner.flatMap line) := by
    rw [document, String.toList_ofList, List.append_assoc]
  -- A line has characters, so there are enough turns.
  have hturns : entries.length + inner.length + 1
      < (entries.flatMap line ++ (heading name ++ inner.flatMap line)).length + 1 := by
    have hlines := length_le_lines entries
    have hlinesInner := length_le_lines inner
    have hheading : 0 < (heading name).length := Nat.succ_pos _
    simp only [List.length_append]
    omega
  obtain ⟨d, place, hread, hpath, hitem, hroot, hfields⟩ :=
    readDocument_document h hturns
  -- Closing the table puts it under a name that the root does not have.
  have hnew : name ∉ d.root.map Prod.fst := by
    intro hmem
    rw [hroot.names] at hmem
    exact (List.nodup_append.1 h.distinct).2.2 name hmem name (List.mem_singleton_self name) rfl
  rw [parse, hchars]
  simp only [if_neg (head?_document h.bare name _), hread]
  show (settle [] d.close >>= Toml.plainTable) = _
  rw [close_new hpath hitem hnew]
  exact hroot.plainTable hfields h.bare h.bareName h.bareInner _

end Keyring.Toml
