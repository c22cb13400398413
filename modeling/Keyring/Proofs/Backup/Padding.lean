import Keyring.Key.Pair
import Keyring.Proofs.Backup

/-!
# `Keyring.Proofs.Backup.Padding`: backups under another padding

The key of the cipher and the key of the code come from the secret alone, so
two domains with one secret write the same backup of the same plain text
(`exportWith_congr`), and a backup of one opens in the other. There the plain
text is only tested for the lead of the other padding. The theorems:

* `import?_exportWith_of_secret`: what comes out is what follows that lead.
* `import?_repadded`: a backup is refused under another padding exactly if the
  other padding and the separator are no start of its own padding and the
  separator. Else something comes out, but it is no private key.
* `import?_repadded_nested`: it can come out.

So a rotation of the padding does not end the old backups when the old padding
begins with the new one and a separator.
-/

set_option autoImplicit false

namespace Keyring.Backup

section
variable {d new : Domain}

/-- An export draws its vector from the source and depends on the source through it alone. -/
theorem exportText_fst (d : Domain) (e : Entropy) (text : String) :
    (exportText d e text).1 = exportWith d (e.draw Gcm.ivLength).1 text := rfl

/-- A backup depends on the padding through its plain text only. Neither of the two keys is
derived from the padding. So whatever holds of one domain's backups holds of the other's, as
soon as the plain texts are the same. -/
theorem exportWith_congr (hsecret : new.secret = d.secret) {text text' : String}
    (hplain : new.plain text' = d.plain text) (iv : Bytes) :
    exportWith new iv text' = exportWith d iv text := by
  rw [exportWith_eq_join, exportWith_eq_join, body, body, Domain.code, Domain.code, hplain,
    hsecret]

/-- A first half determines its plain text, whichever padding it was written under, because
it is opened under the secret, which is the same. -/
theorem plain_eq_of_body_eq (hsecret : new.secret = d.secret) {iv iv' : Bytes}
    {text text' : String} (hiv : iv.length = Gcm.ivLength) (hiv' : iv'.length = Gcm.ivLength)
    (h : body d iv text = body new iv' text') : new.plain text' = d.plain text := by
  have hopen := (decrypt?_cut_iff d (body d iv text) (d.plain text)).2 ⟨iv, hiv, rfl⟩
  have hopen' := (decrypt?_cut_iff new (body d iv text) (new.plain text')).2 ⟨iv', hiv', h⟩
  rw [hsecret, hopen] at hopen'
  exact (Option.some.inj hopen').symm

/-- A domain with the same secret reads a backup as a text with the same plain text. So where
one plain text is split in two ways, by two leads, both readings succeed. -/
theorem import?_exportWith_eq_some_iff (hsecret : new.secret = d.secret) {iv : Bytes}
    (hiv : iv.length = Gcm.ivLength) (text text' : String) :
    (import? new (exportWith d iv text) = some text') ↔ new.plain text' = d.plain text := by
  constructor
  · intro h
    obtain ⟨iv', hiv', -, hexport⟩ := (import?_eq_some_iff _ _ _).1 h
    rw [exportWith_eq_join, lower_join, Hex.lower_encode, Hex.lower_encode,
      exportWith_eq_join] at hexport
    obtain ⟨hbody, -⟩ := join_inj (colon_not_mem_encode _) (colon_not_mem_encode _) hexport
    exact plain_eq_of_body_eq hsecret hiv hiv' (Hex.encode_injective hbody)
  · intro h
    rw [← exportWith_congr hsecret h, exportWith_eq_join, import?_join new hiv,
      if_pos (Hex.lower_encode _)]

/-- What a domain with the same secret reads in a backup is what follows its own lead in the
plain text. The plain text begins with the old lead, and the importer asks only for the new
one. -/
theorem import?_exportWith_of_secret (hsecret : new.secret = d.secret) {iv : Bytes}
    (hiv : iv.length = Gcm.ivLength) (text : String) : import? new (exportWith d iv text)
      = (Text.dropStart? new.lead (d.lead ++ text.toList)).map String.ofList := by
  refine Option.ext fun text' => ?_
  rw [import?_exportWith_eq_some_iff hsecret hiv, Option.map_eq_some_iff, Domain.plain,
    Domain.plain]
  constructor
  · intro h
    have hchars := String.ofList_injective (Bytes.ofText_injective h)
    exact ⟨text'.toList, (Text.dropStart?_eq_some_iff _ _ _).2 hchars.symm, String.ofList_toList⟩
  · rintro ⟨rest, hrest, rfl⟩
    rw [(Text.dropStart?_eq_some_iff _ _ _).1 hrest, String.toList_ofList]

/-- A lead ends in a colon. What is cut off a text of digits can then not end within the
digits. -/
theorem Domain.lead_eq_concat (d : Domain) :
    d.lead = (d.padding.toList ++ [':', ':']) ++ [':'] := by
  rw [List.append_assoc]
  rfl

/-- In a backup of digits the other lead is found in the old lead or nowhere: it ends in a
colon, so it cannot reach into the digits. -/
theorem import?_exportText_of_digits (hsecret : new.secret = d.secret) (e : Entropy)
    {key : String} {bytes : Bytes} (hkey : Hex.decode? key = some bytes) :
    (import? new (exportText d e key).1)
      = ((Text.dropStart? new.lead d.lead).map (· ++ key.toList)).map String.ofList := by
  have hcolon : ':' ∉ key.toList := colon_not_mem_of_lower ((Hex.decode?_eq_some_iff _ _).1 hkey)
  rw [exportText_fst, import?_exportWith_of_secret hsecret (Entropy.draw_length _ _),
    new.lead_eq_concat, Text.dropStart?_append_of_not_mem _ _ hcolon]

/-! ### What comes out -/

/-- What is left of a lead after another one ends as the lead does. It is not empty, because
leads are as different as their paddings. -/
theorem Domain.colon_mem_rest (hpadding : new.padding ≠ d.padding) {rest : List Char}
    (h : d.lead = new.lead ++ rest) : ':' ∈ rest := by
  rcases List.eq_nil_or_concat rest with rfl | ⟨front, c, rfl⟩
  -- Leads are as different as their paddings.
  · rw [List.append_nil] at h
    exact absurd (String.toList_inj.1 (List.append_cancel_right h)).symm hpadding
  · rw [d.lead_eq_concat, List.concat_eq_append, ← List.append_assoc] at h
    obtain ⟨-, hlast⟩ := List.append_inj' h rfl
    rw [List.concat_eq_append, ← List.singleton_inj.1 hlast]
    exact List.mem_append_right _ (List.mem_singleton_self _)

/-- No private key has a colon in its text, since a colon is no hexadecimal digit. Which
error is raised depends on the other characters. -/
theorem exists_ofHex_eq_error_of_colon {text : String} (h : ':' ∈ text.toList) :
    ∃ reason, KeyPair.ofHex text = .error reason := by
  cases hbytes : Hex.decode text with
  | error reason =>
      refine ⟨.secretHex reason, ?_⟩
      rw [KeyPair.ofHex, Secret.ofHex, hbytes]
      rfl
  | ok bytes => exact absurd h (colon_not_mem_of_lower ((Hex.decode_eq_ok_iff _ _).1 hbytes))

/-- The padding separates backups only as far as the texts before the key do. Take the backup of
hexadecimal digits in one domain, and another domain with the same secret and another padding.
The backup is refused if and only if the other lead is no start of the lead it was written with.
If it is not refused, then the rest of the old lead comes out in front of the digits, and the
whole is read as no private key. -/
theorem import?_repadded (hsecret : new.secret = d.secret) (hpadding : new.padding ≠ d.padding)
    (e : Entropy) {key : String} {bytes : Bytes} (hkey : Hex.decode? key = some bytes) :
    (import? new (exportText d e key).1 = none ↔ ¬ new.lead <+: d.lead) ∧
    ∀ text, import? new (exportText d e key).1 = some text →
      ∃ rest, d.lead = new.lead ++ rest ∧ text.toList = rest ++ key.toList ∧
        ∃ reason, KeyPair.ofHex text = .error reason := by
  rw [import?_exportText_of_digits hsecret e hkey]
  constructor
  · rw [Option.map_eq_none_iff, Option.map_eq_none_iff, Text.dropStart?_eq_none_iff]
  · intro text htext
    obtain ⟨chars, hchars, rfl⟩ := Option.map_eq_some_iff.1 htext
    obtain ⟨rest, hrest, rfl⟩ := Option.map_eq_some_iff.1 hchars
    have hlead := (Text.dropStart?_eq_some_iff _ _ _).1 hrest
    -- What is left of the old lead has a colon in it, which no private key has.
    refine ⟨rest, hlead, String.toList_ofList, exists_ofHex_eq_error_of_colon ?_⟩
    rw [String.toList_ofList]
    exact List.mem_append_left _ (Domain.colon_mem_rest hpadding hlead)

end

/-! ### Two paddings -/

/-- The text of the least private key. -/
def oneHex : String := String.ofList (List.replicate 63 '0' ++ ['1'])

/-- A domain with the usual padding. -/
def usual : Domain := ⟨"secret", "wallet-vault-export"⟩

/-- The usual padding exchanged for a text of its own. -/
def exchanged : Domain := ⟨"secret", "another-domain"⟩

/-- The usual padding lengthened by a separator and a year. -/
def lengthened : Domain := ⟨"secret", "wallet-vault-export:::2023"⟩

/-- A backup is refused under a padding that is no start of the old one. This is the usual
case, in which the two domains are separate. The backup is well formed, and its code is
right; it is the plain text that does not begin as it should. -/
theorem import?_repadded_apart :
    (import? exchanged (exportText usual (Entropy.ofBytes []) oneHex).1) = none := by
  have hsecret : exchanged.secret = usual.secret := rfl
  have hpadding : exchanged.padding ≠ usual.padding := by decide
  have hkey : Hex.decode? oneHex = some (Bytes.ofNat 32 1) := by decide +kernel
  exact (import?_repadded hsecret hpadding _ hkey).1.2 (by decide)

/-- The lengthened padding is no domain of its own: what was exported under it comes out under the
usual padding, with the year in front. -/
theorem import?_repadded_nested :
    usual.secret = lengthened.secret ∧ usual.padding ≠ lengthened.padding ∧
    oneHex.length = 64 ∧ Secret.ofHex oneHex = .ok ⟨1, by decide, by decide⟩ ∧
    (import? usual (exportText lengthened (Entropy.ofBytes []) oneHex).1)
      = some (String.ofList ("2023:::".toList ++ oneHex.toList)) := by
  have hsecret : usual.secret = lengthened.secret := rfl
  refine ⟨hsecret, by decide, by decide, by decide +kernel, ?_⟩
  rw [exportText_fst, import?_exportWith_eq_some_iff hsecret (Entropy.draw_length _ _),
    Domain.plain, Domain.plain, String.toList_ofList]
  rfl

end Keyring.Backup
