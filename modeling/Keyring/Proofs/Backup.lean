import Mathlib.Data.List.Basic
import Keyring.Backup
import Keyring.Proofs.Cipher.Gcm
import Keyring.Proofs.Key.Sealed
import Keyring.Proofs.Text.Split

/-!
# `Keyring.Proofs.Backup`: the texts that are backups

A text is a backup of a private key if and only if it is one that the export of
that key writes, up to the case of its digits. The theorems:

* `import?_eq_some_iff`: the equivalence, for the vector that the backup begins
  with.
* `import?_join`: what a backup with another second half holds.
* `import?_iff_exported`: both, for backups with vectors drawn from a source.

Two facts carry the proofs. A backup is cut at its only separator, because
digits are no colons (`splitLast?_join`), and the two halves of a backup
determine the vector and the text (`body_injective`).
-/

set_option autoImplicit false

namespace Keyring.Backup

/-! ### Halves -/

/-- Two halves with the separator between them. -/
def join (bodyHex codeHex : String) : String := bodyHex ++ String.ofList separator ++ codeHex

/-- The bytes that the first half of a backup spells. -/
def body? (backup : String) : Option Bytes :=
  (Text.splitLast? separator backup.toList).bind fun halves =>
    Hex.decode? (String.ofList halves.1)

/-- The plain text of a backup. -/
def Domain.plain (d : Domain) (text : String) : Bytes :=
  Bytes.ofText (String.ofList (d.lead ++ text.toList))

/-- The bytes of the first half: vector, tag and ciphertext. -/
def body (d : Domain) (iv : Bytes) (text : String) : Bytes :=
  let blob := Gcm.encrypt (secretCipher d.secret) iv (d.plain text)
  iv ++ blob.tag ++ blob.masked

/-- A backup is the digits of its two halves. The model writes the separator between them in
the same way, so this holds by definition. -/
theorem exportWith_eq_join (d : Domain) (iv : Bytes) (text : String) :
    exportWith d iv text
      = join (Hex.encode (body d iv text)) (Hex.encode (d.code (d.plain text))) :=
  rfl

/-- The characters of two halves: those of the first, three colons, and those of the second. -/
theorem toList_join (bodyHex codeHex : String) :
    (join bodyHex codeHex).toList = bodyHex.toList ++ separator ++ codeHex.toList := by
  rw [join, String.toList_append, String.toList_append, String.toList_ofList]

/-! ### Colons -/

/-- Only a colon is a colon in lower case. The characters that change are letters, and they
change into letters. -/
theorem lowerChar_eq_colon_iff (c : Char) : Hex.lowerChar c = ':' ↔ c = ':' := by
  constructor
  · intro h
    unfold Hex.lowerChar at h
    split at h
    -- A letter becomes a letter, and the colon is none.
    · rename_i hdigit
      have hnat := congrArg Char.toNat h
      rw [Hex.toNat_ofNat_of_le (by omega)] at hnat
      have hcolon : ':'.toNat = 58 := rfl
      omega
    · exact h
  · rintro rfl
    rfl

/-- No digit is a colon, so a half of digits never contains a piece of the separator. -/
theorem colon_not_mem_encode (bytes : Bytes) : ':' ∉ (Hex.encode bytes).toList := fun h =>
  absurd (Hex.mem_digits_of_mem_encode h) (by decide)

/-- A text that in lower case is digits has no colon, since a colon would still be one in
lower case. -/
theorem colon_not_mem_of_lower {text : String} {bytes : Bytes}
    (h : Hex.lower text = Hex.encode bytes) : ':' ∉ text.toList := by
  intro hmem
  refine colon_not_mem_encode bytes ?_
  rw [← h, Hex.lower, String.toList_ofList]
  exact List.mem_map.2 ⟨':', hmem, rfl⟩

/-- Halves are taken to lower case each by itself: the separator does not change. -/
theorem lower_join (bodyHex codeHex : String) :
    Hex.lower (join bodyHex codeHex) = join (Hex.lower bodyHex) (Hex.lower codeHex) := by
  apply String.toList_inj.1
  rw [toList_join, Hex.lower, String.toList_ofList, toList_join, List.map_append, List.map_append,
    Hex.lower, Hex.lower, String.toList_ofList, String.toList_ofList]
  rfl

/-- A text that in lower case has two halves has two halves itself. The text is cut at the
same places, and what stands there is three colons, because nothing but a colon becomes a
colon. -/
theorem exists_join_of_lower {text bodyHex codeHex : String}
    (h : Hex.lower text = join bodyHex codeHex) :
    ∃ before after, text = join before after ∧ Hex.lower before = bodyHex ∧
      Hex.lower after = codeHex := by
  have hchars : text.toList.map Hex.lowerChar
      = bodyHex.toList ++ separator ++ codeHex.toList := by
    rw [← toList_join, ← h, Hex.lower, String.toList_ofList]
  obtain ⟨front, after, htext, hfront, hafter⟩ := List.map_eq_append_iff.1 hchars
  obtain ⟨before, middle, rfl, hbefore, hmiddle⟩ := List.map_eq_append_iff.1 hfront
  -- Nothing but a colon becomes a colon.
  have hcolons : middle = separator := by
    have hlength := congrArg List.length hmiddle
    rw [List.length_map] at hlength
    refine List.eq_replicate_iff.2 ⟨hlength, ?_⟩
    intro c hc
    have hmem : Hex.lowerChar c ∈ List.replicate 3 ':' := by
      rw [show List.replicate 3 ':' = separator from rfl, ← hmiddle]
      exact List.mem_map_of_mem hc
    exact (lowerChar_eq_colon_iff c).1 (List.eq_of_mem_replicate hmem)
  refine ⟨String.ofList before, String.ofList after, ?_, ?_, ?_⟩
  · apply String.toList_inj.1
    rw [htext, toList_join, String.toList_ofList, String.toList_ofList, hcolons]
  · rw [Hex.lower, String.toList_ofList, hbefore, String.ofList_toList]
  · rw [Hex.lower, String.toList_ofList, hafter, String.ofList_toList]

/-- Halves are cut apart if the second one has no colon: the last separator is then the one
between them. The second half is written in hexadecimal digits, so the condition holds of
everything that is exported. -/
theorem splitLast?_join {bodyHex codeHex : String} (h : ':' ∉ codeHex.toList) :
    Text.splitLast? separator (join bodyHex codeHex).toList
      = some (bodyHex.toList, codeHex.toList) := by
  rw [toList_join]
  refine Text.splitLast?_append (by decide) _ ?_
  intro c hc hcolon
  have : c = ':' := by
    simpa only [separator, List.mem_cons, List.not_mem_nil, or_false, or_self] using hcolon
  exact h (this ▸ hc)

/-- Halves are the same if the first ones have no colon, because the first colon of either
text is then the first one of its separator. -/
theorem join_inj {bodyHex codeHex bodyHex' codeHex' : String} (hbody : ':' ∉ bodyHex.toList)
    (hbody' : ':' ∉ bodyHex'.toList) (h : join bodyHex codeHex = join bodyHex' codeHex') :
    bodyHex = bodyHex' ∧ codeHex = codeHex' := by
  have hchars := congrArg String.toList h
  rw [toList_join, toList_join, List.append_assoc, List.append_assoc] at hchars
  have hsplit : bodyHex.toList ++ ':' :: (':' :: ':' :: codeHex.toList)
      = bodyHex'.toList ++ ':' :: (':' :: ':' :: codeHex'.toList) := hchars
  -- The first colon of either text is the first one of its separator.
  have htake := congrArg (List.takeWhile (· ≠ ':')) hsplit
  have htakeWhile : ∀ (xs rest : List Char), ':' ∉ xs →
      (xs ++ ':' :: rest).takeWhile (· ≠ ':') = xs := by
    intro xs rest hxs
    rw [List.takeWhile_append_of_pos, List.takeWhile_cons_of_neg (by decide), List.append_nil]
    intro x hx
    exact decide_eq_true fun heq => hxs (heq ▸ hx)
  rw [htakeWhile _ _ hbody, htakeWhile _ _ hbody'] at htake
  rw [htake] at hsplit
  have hrest := List.append_cancel_left hsplit
  exact ⟨String.toList_inj.1 htake,
    String.toList_inj.1 (List.cons.inj (List.cons.inj (List.cons.inj hrest).2).2).2⟩

/-! ### Contents -/

/-- Different texts have different plain texts: the lead of a domain is the same in front of
both. -/
theorem plain_injective {d : Domain} {text other : String} (h : d.plain text = d.plain other) :
    text = other := by
  have hchars := String.ofList_injective (Bytes.ofText_injective h)
  exact String.toList_inj.1 (List.append_cancel_left hchars)

/-- Vector, tag and ciphertext are cut out of a first half again, since the first two have
fixed lengths. -/
theorem cut_append {iv tag : Bytes} (hiv : iv.length = Gcm.ivLength)
    (htag : tag.length = Gcm.tagLength) (masked : Bytes) :
    (iv ++ tag ++ masked).take Gcm.ivLength = iv ∧
      ((iv ++ tag ++ masked).drop Gcm.ivLength).take Gcm.tagLength = tag ∧
      (iv ++ tag ++ masked).drop (Gcm.ivLength + Gcm.tagLength) = masked := by
  rw [List.append_assoc, ← List.drop_drop, ← hiv, List.drop_left, ← htag, List.drop_left]
  exact ⟨List.take_left, List.take_left, rfl⟩

/-- The vector is the beginning of a first half. So a backup tells which vector it was
written with. -/
theorem take_body {iv : Bytes} (hiv : iv.length = Gcm.ivLength) (d : Domain) (text : String) :
    (body d iv text).take Gcm.ivLength = iv :=
  (cut_append hiv (Gcm.length_tag_encrypt (length_secretCipher _) _ _) _).1

/-- The parts of a first half open to a plain text exactly if it is that plain text's. The
three parts that are cut out make up all of the bytes, so nothing else can be in a half that
opens. -/
theorem decrypt?_cut_iff (d : Domain) (bytes plain : Bytes) :
    Gcm.decrypt? (secretCipher d.secret) (bytes.take Gcm.ivLength)
        ⟨bytes.drop (Gcm.ivLength + Gcm.tagLength), (bytes.drop Gcm.ivLength).take Gcm.tagLength⟩
      = some plain ↔
      ∃ iv, iv.length = Gcm.ivLength ∧ bytes = iv ++
        (Gcm.encrypt (secretCipher d.secret) iv plain).tag ++
        (Gcm.encrypt (secretCipher d.secret) iv plain).masked := by
  have hopen := Gcm.decrypt?_eq_some_iff (length_secretCipher d.secret) (bytes.take Gcm.ivLength)
    ⟨bytes.drop (Gcm.ivLength + Gcm.tagLength), (bytes.drop Gcm.ivLength).take Gcm.tagLength⟩ plain
  refine hopen.trans ⟨?_, ?_⟩
  · rintro ⟨hiv, hblob⟩
    refine ⟨bytes.take Gcm.ivLength, hiv, ?_⟩
    -- The three parts that were cut out make up all of the bytes.
    rw [← hblob, List.append_assoc, ← List.drop_drop, List.take_append_drop,
      List.take_append_drop]
  · rintro ⟨iv, hiv, rfl⟩
    obtain ⟨hvector, htag, hmasked⟩ := cut_append hiv
      (Gcm.length_tag_encrypt (length_secretCipher d.secret) iv plain)
      (Gcm.encrypt (secretCipher d.secret) iv plain).masked
    rw [hvector, htag, hmasked]
    refine ⟨hiv, ?_⟩
    cases Gcm.encrypt (secretCipher d.secret) iv plain
    rfl

/-- A first half determines its vector and its text: the vector is its beginning, and the
half opens to one plain text only. This is what lets the code in the second half speak for
one text only. -/
theorem body_injective {d : Domain} {iv iv' : Bytes} {text text' : String}
    (hiv : iv.length = Gcm.ivLength) (hiv' : iv'.length = Gcm.ivLength)
    (h : body d iv text = body d iv' text') : iv = iv' ∧ text = text' := by
  have hvector : iv = iv' := by
    rw [← take_body hiv d text, h, take_body hiv']
  -- One first half opens to one plain text only.
  have hopen := (decrypt?_cut_iff d (body d iv text) (d.plain text)).2 ⟨iv, hiv, rfl⟩
  have hopen' := (decrypt?_cut_iff d (body d iv text) (d.plain text')).2 ⟨iv', hiv', h⟩
  rw [hopen] at hopen'
  exact ⟨hvector, plain_injective (Option.some.inj hopen')⟩

/-- A plain text holds a text after its lead exactly if it is that text's. Bytes that are no
text are none of a text's, and what stands behind the lead is the rest. -/
theorem eq_plain_iff (d : Domain) (plain : Bytes) (text : String) :
    ((Bytes.toText? plain).bind fun t => Text.dropStart? d.lead t.toList) = some text.toList ↔
      plain = d.plain text := by
  constructor
  · intro h
    obtain ⟨t, ht, hdrop⟩ := Option.bind_eq_some_iff.1 h
    have hchars := (Text.dropStart?_eq_some_iff _ _ _).1 hdrop
    rw [Domain.plain, ← hchars, String.ofList_toList, Bytes.ofText_of_toText? ht]
  · rintro rfl
    rw [Domain.plain, Bytes.toText?_ofText]
    show Text.dropStart? d.lead (String.ofList (d.lead ++ text.toList)).toList = _
    rw [String.toList_ofList]
    exact (Text.dropStart?_eq_some_iff _ _ _).2 rfl

/-! ### Backups -/

/-- What a backup of two halves holds, once both are bytes. The importer goes through six
steps, each of which may end it; the code is compared before anything is decrypted. -/
theorem import?_eq_some_iff_halves (d : Domain) (backup text : String) :
    (import? d backup = some text) ↔
      ∃ bodyHex codeHex iv, Text.splitLast? separator backup.toList = some (bodyHex, codeHex) ∧
        iv.length = Gcm.ivLength ∧
        Hex.decode? (String.ofList bodyHex) = some (body d iv text) ∧
        Hex.decode? (String.ofList codeHex) = some (d.code (d.plain text)) := by
  constructor
  -- The importer goes through six steps, each of which may end it.
  · intro h
    obtain ⟨⟨bodyHex, codeHex⟩, hsplit, h⟩ := Option.bind_eq_some_iff.1 h
    obtain ⟨bytes, hbody, h⟩ := Option.bind_eq_some_iff.1 h
    obtain ⟨code, hcode, h⟩ := Option.bind_eq_some_iff.1 h
    obtain ⟨plain, hopen, h⟩ := Option.bind_eq_some_iff.1 h
    obtain ⟨t, ht, h⟩ := Option.bind_eq_some_iff.1 h
    obtain ⟨key, hkey, h⟩ := Option.bind_eq_some_iff.1 h
    split at h
    · rename_i hsame
      obtain rfl := Option.some.inj h
      have hplain : plain = d.plain (String.ofList key) := by
        refine (eq_plain_iff d plain _).1 (Option.bind_eq_some_iff.2 ⟨t, ht, ?_⟩)
        rw [String.toList_ofList]
        exact hkey
      subst hplain
      obtain ⟨iv, hiv, hbytes⟩ := (decrypt?_cut_iff d bytes _).1 hopen
      refine ⟨bodyHex, codeHex, iv, hsplit, hiv, ?_, ?_⟩
      · rw [hbody, hbytes, body]
      · rw [hcode, hsame]
    · exact absurd h nofun
  · rintro ⟨bodyHex, codeHex, iv, hsplit, hiv, hbody, hcode⟩
    have hopen := (decrypt?_cut_iff d (body d iv text) (d.plain text)).2 ⟨iv, hiv, rfl⟩
    obtain ⟨t, ht, hkey⟩ := Option.bind_eq_some_iff.1 ((eq_plain_iff d _ text).2 rfl)
    refine Option.bind_eq_some_iff.2 ⟨(bodyHex, codeHex), hsplit, ?_⟩
    refine Option.bind_eq_some_iff.2 ⟨_, hbody, ?_⟩
    refine Option.bind_eq_some_iff.2 ⟨_, hcode, ?_⟩
    refine Option.bind_eq_some_iff.2 ⟨_, hopen, ?_⟩
    refine Option.bind_eq_some_iff.2 ⟨t, ht, ?_⟩
    refine Option.bind_eq_some_iff.2 ⟨_, hkey, ?_⟩
    rw [if_pos rfl, String.ofList_toList]

/-- A backup holds a text exactly if in lower case it is the backup of that text with the
vector that it begins with. The only freedom is in the case of the digits, which reading them
forgets. -/
theorem import?_eq_some_iff (d : Domain) (backup text : String) :
    (import? d backup = some text) ↔
      ∃ iv, iv.length = Gcm.ivLength ∧ (body? backup).map (·.take Gcm.ivLength) = some iv ∧
        Hex.lower backup = exportWith d iv text := by
  rw [import?_eq_some_iff_halves]
  constructor
  · rintro ⟨bodyHex, codeHex, iv, hsplit, hiv, hbody, hcode⟩
    -- The vector stands at the beginning of the body, and the two halves are hex of either case.
    refine ⟨iv, hiv, ?_, ?_⟩
    · rw [body?, hsplit]
      show (Hex.decode? (String.ofList bodyHex)).map _ = _
      rw [hbody]
      exact congrArg some (take_body hiv d text)
    · have hbackup : backup = join (String.ofList bodyHex) (String.ofList codeHex) := by
        apply String.toList_inj.1
        rw [Text.eq_append_of_splitLast? hsplit, toList_join, String.toList_ofList,
          String.toList_ofList]
      rw [hbackup, lower_join, (Hex.decode?_eq_some_iff _ _).1 hbody,
        (Hex.decode?_eq_some_iff _ _).1 hcode, exportWith_eq_join]
  · rintro ⟨iv, hiv, -, hlower⟩
    -- To take a text to lower case moves no colon, so the backup has two halves as well.
    rw [exportWith_eq_join] at hlower
    obtain ⟨before, after, rfl, hbefore, hafter⟩ := exists_join_of_lower hlower
    refine ⟨before.toList, after.toList, iv, splitLast?_join (colon_not_mem_of_lower hafter), hiv,
      ?_, ?_⟩
    · rw [String.ofList_toList, Hex.decode?_eq_some_iff, hbefore]
    · rw [String.ofList_toList, Hex.decode?_eq_some_iff, hafter]

/-- The first half of a written backup is read back, whatever stands in the second half, as
long as it has no colon. -/
theorem body?_join (d : Domain) (iv : Bytes) (text : String) {codeHex : String}
    (h : ':' ∉ codeHex.toList) :
    body? (join (Hex.encode (body d iv text)) codeHex) = some (body d iv text) := by
  rw [body?, splitLast?_join h, Option.bind_some, String.ofList_toList, Hex.decode?_encode]

/-- A written first half with any other second half holds the text if the second half spells
the code, and nothing otherwise. A second half with a separator of its own is refused too:
the text is cut at the last one, and what precedes it is then no row of digits. -/
theorem import?_join (d : Domain) {iv : Bytes} (hiv : iv.length = Gcm.ivLength)
    (text other : String) : import? d (join (Hex.encode (body d iv text)) other)
      = if Hex.lower other = Hex.encode (d.code (d.plain text)) then some text else none := by
  have hlower : Hex.lower (join (Hex.encode (body d iv text)) other)
      = join (Hex.encode (body d iv text)) (Hex.lower other) := by
    rw [lower_join, Hex.lower_encode]
  by_cases hcode : Hex.lower other = Hex.encode (d.code (d.plain text))
  · rw [if_pos hcode]
    refine (import?_eq_some_iff _ _ _).2 ⟨iv, hiv, ?_, ?_⟩
    · rw [body?_join d iv text (colon_not_mem_of_lower hcode)]
      exact congrArg some (take_body hiv d text)
    · rw [hlower, hcode, exportWith_eq_join]
  -- Any text that came out would be the one that went in, and then the code would be its code.
  · rw [if_neg hcode, Option.eq_none_iff_forall_ne_some]
    intro text' h
    obtain ⟨iv', hiv', -, hexport⟩ := (import?_eq_some_iff _ _ _).1 h
    rw [hlower, exportWith_eq_join] at hexport
    obtain ⟨hbody, hother⟩ := join_inj (colon_not_mem_encode _) (colon_not_mem_encode _) hexport
    obtain ⟨-, rfl⟩ := body_injective hiv hiv' (Hex.encode_injective hbody)
    exact hcode hother

/-! ### Vectors from a source -/

/-- What was exported is imported: the code that was written is the one that is computed. -/
theorem import?_exportText (d : Domain) (e : Entropy) (text : String) :
    (import? d (exportText d e text).1) = some text := by
  show import? d (exportWith d (e.draw Gcm.ivLength).1 text) = some text
  rw [exportWith_eq_join, import?_join d (Entropy.draw_length _ _), if_pos (Hex.lower_encode _)]

/-- The export accepts exactly what it emits. A backup holds a text if and only if in lower case
it is what exporting that text writes with the vector that the backup begins with. What was
exported is therefore imported again, and it is refused with any other code. -/
theorem import?_iff_exported (d : Domain) :
    (∀ backup text : String, import? d backup = some text ↔
      ∃ e : Entropy, (body? backup).map (·.take Gcm.ivLength) = some (e.draw Gcm.ivLength).1 ∧
        Hex.lower backup = (exportText d e text).1) ∧
    (∀ (e : Entropy) (text : String), import? d (exportText d e text).1 = some text) ∧
    (∀ (e : Entropy) (text : String), ∃ bodyHex : String,
      (exportText d e text).1 = join bodyHex (Hex.encode (d.code (d.plain text))) ∧
      ∀ other : String, import? d (join bodyHex other)
        = if Hex.lower other = Hex.encode (d.code (d.plain text)) then some text else none) := by
  have hexport : ∀ (e : Entropy) (text : String),
      (exportText d e text).1 = exportWith d (e.draw Gcm.ivLength).1 text := fun _ _ => rfl
  refine ⟨?_, ?_, ?_⟩
  · intro backup text
    rw [import?_eq_some_iff]
    constructor
    · rintro ⟨iv, hiv, hbody, hlower⟩
      -- Some source of bytes draws the vector that the backup begins with.
      obtain ⟨e, hdraw⟩ := Entropy.exists_draw_eq hiv
      refine ⟨e, ?_, ?_⟩
      · rw [hbody, hdraw]
      · rw [hexport, hdraw, hlower]
    · rintro ⟨e, hbody, hlower⟩
      exact ⟨_, Entropy.draw_length _ _, hbody, hlower⟩
  · exact import?_exportText d
  · intro e text
    exact ⟨_, rfl, import?_join d (Entropy.draw_length _ _) text⟩

end Keyring.Backup
