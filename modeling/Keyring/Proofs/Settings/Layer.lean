import Keyring.Proofs.Entries
import Keyring.Settings.Load
import Mathlib.Logic.Function.Basic

/-!
# `Keyring.Proofs.Settings.Layer`: settings laid over settings

A layer says which settings a source gives. Fields give a layer if they hold its
texts, each under its name, and nothing else; the parts of the domain may stand
in a table of their own or under their full names. The theorems:

* `Tree.Holds.lay`: to lay such fields over a value puts the settings of the layer in
  place and keeps all others, whichever tables stand there already.
* `ofTree_eq_ok_iff`, `exists_ofTree_eq_error_iff`: what is read from a value that
  holds a layer, and when nothing is.
-/

set_option autoImplicit false

namespace Keyring.Settings

/-! ### Layers -/

/-- A part of the domain of the backups. -/
inductive DomainPart where
  | secret
  | padding
  deriving DecidableEq, Repr

/-- The name of a part in the table of the domain. -/
def DomainPart.name : DomainPart → String
  | .secret => "system_secret"
  | .padding => "padding"

/-- A setting. -/
inductive Setting where
  | poolKey
  | domain (part : DomainPart)
  deriving DecidableEq, Repr

namespace Setting

/-- The full name of a setting. -/
def name : Setting → String
  | .poolKey => "pool_key"
  | .domain .secret => "export.system_secret"
  | .domain .padding => "export.padding"

/-- The steps that lead to a setting. -/
def steps : Setting → List Step
  | .poolKey => [.child "pool_key"]
  | .domain part => [.child "export", .child part.name]

/-- The text of a setting that no source gives, if it may be left out. -/
def default? : Setting → Option String
  | .poolKey => some defaultPoolKey
  | .domain .secret => none
  | .domain .padding => some Backup.Domain.defaultPadding

end Setting

/-- The text of a setting. -/
def text (settings : Settings) : Setting → String
  | .poolKey => settings.poolKey
  | .domain .secret => settings.domain.secret
  | .domain .padding => settings.domain.padding

/-- Settings with the same texts are the same: they have no fields but these three. -/
theorem ext_text {settings settings' : Settings} (h : ∀ a, settings.text a = settings'.text a) :
    settings = settings' := by
  obtain ⟨poolKey, secret, padding⟩ := settings
  obtain ⟨poolKey', secret', padding'⟩ := settings'
  obtain rfl : poolKey = poolKey' := h .poolKey
  obtain rfl : secret = secret' := h (.domain .secret)
  obtain rfl : padding = padding' := h (.domain .padding)
  rfl

/-- The settings that a source gives. -/
abbrev Layer := Setting → Option String

namespace Layer

/-- A layer with settings put in place one after another. -/
def extend (layer : Layer) (given : List (Setting × String)) : Layer :=
  given.foldl (fun layer a => Function.update layer a.1 (some a.2)) layer

/-- A layer with another one over it. -/
def under (lower upper : Layer) : Layer := fun a => upper a <|> lower a

/-- A layer over one without settings is as it was. A file that is missing is such a lower
layer. -/
theorem none_under (upper : Layer) : Layer.under (fun _ => none) upper = upper := by
  funext a
  simp [under]

/-- The first of the settings that are put in place is put there first, so that a later one
of the same name would replace it. -/
theorem extend_cons (layer : Layer) (a : Setting × String) (given : List (Setting × String)) :
    layer.extend (a :: given) = Layer.extend (Function.update layer a.1 (some a.2)) given := rfl

/-- Settings are put in place one list after the other. The later one counts where both name
a setting. -/
theorem extend_append (layer : Layer) (given more : List (Setting × String)) :
    layer.extend (given ++ more) = (layer.extend given).extend more := by
  simp [extend]

/-- A setting that is not among those put in place stays as it is. -/
theorem extend_of_not_mem (layer : Layer) {given : List (Setting × String)} {a : Setting}
    (h : a ∉ given.map Prod.fst) : layer.extend given a = layer a := by
  induction given generalizing layer with
  | nil => rfl
  | cons first given ih =>
      obtain ⟨hfirst, hrest⟩ := not_or.1 (mt List.mem_cons.2 h)
      rw [extend_cons, ih _ hrest, Function.update_of_ne hfirst]

/-- Settings that are all different make a layer of their own over what was there. Their
order does not matter then. -/
theorem extend_eq_under (layer : Layer) {given : List (Setting × String)}
    (h : (given.map Prod.fst).Nodup) :
    layer.extend given = layer.under fun a => given.lookup a := by
  induction given generalizing layer with
  | nil => rfl
  | cons first given ih =>
      obtain ⟨setting, s⟩ := first
      obtain ⟨hnew, hrest⟩ := List.nodup_cons.1 h
      rw [extend_cons, ih _ hrest]
      funext a
      by_cases ha : a = setting
      · subst ha
        simp [under, Entries.lookup_eq_none_of_not_mem hnew]
      · simp [under, Entries.lookup_entry, ha]

end Layer

/-! ### Fields that give a layer -/

/-- How a kind of value holds a text and a table. -/
structure Form (α : Type) where
  text : String → α
  table : List (String × α) → α

namespace Form

/-- Values of JSON texts. -/
def json : Form Json := ⟨.text, .object⟩

/-- Values of TOML texts. -/
def toml : Form Toml.Plain := ⟨.text, .table⟩

/-- Values from a source. -/
def tree (origin : Option String) : Form Tree :=
  ⟨fun s => .scalar origin (.text s), .table origin⟩

end Form

/-- Fields that hold these settings as texts, in this order, and nothing else. -/
inductive Spells {α : Type} (form : Form α) :
    List (String × α) → List (Setting × String) → Prop
  | nil : Spells form [] []
  /-- A setting under its full name. -/
  | setting (a : Setting) (s : String) {fields : List (String × α)}
      {given : List (Setting × String)} (h : Spells form fields given) :
      Spells form ((a.name, form.text s) :: fields) ((a, s) :: given)
  /-- Parts of the domain in a table of their own. -/
  | domain (parts : List (DomainPart × String)) {fields : List (String × α)}
      {given : List (Setting × String)} (h : Spells form fields given) :
      Spells form
        (("export", form.table (parts.map fun part => (part.1.name, form.text part.2))) :: fields)
        (parts.map (fun part => (.domain part.1, part.2)) ++ given)

/-- Fields hold the settings of a layer, each once, and nothing else. -/
def Gives {α : Type} (form : Form α) (fields : List (String × α)) (layer : Layer) : Prop :=
  ∃ given, Spells form fields given ∧ (given.map Prod.fst).Nodup ∧ layer = fun a => given.lookup a

/-- Settings as fields under their full names. -/
def namedFields {α : Type} (form : Form α) (given : List (Setting × String)) : List (String × α) :=
  given.map fun a => (a.1.name, form.text a.2)

section
variable {α β : Type} {form : Form α} {form' : Form β}

/-- The fields that are named for some settings spell these settings. Each is spelled by its
path in one name, with no table. -/
theorem spells_namedFields (form : Form α) (given : List (Setting × String)) :
    Spells form (namedFields form given) given := by
  induction given with
  | nil => exact .nil
  | cons a given ih => exact .setting a.1 a.2 ih

/-- Fields that stand one after the other spell the settings of both. The induction is on how
the first fields spell their settings. -/
theorem Spells.append {fields more : List (String × α)} {given given' : List (Setting × String)}
    (h : Spells form fields given) (h' : Spells form more given') :
    Spells form (fields ++ more) (given ++ given') := by
  induction h with
  | nil => exact h'
  | setting a s _ ih => exact .setting a s ih
  | domain parts _ ih =>
      rw [List.cons_append, List.append_assoc]
      exact .domain parts ih

/-- Settings are found again when each value is exchanged for its like in another form. Texts
must become texts and tables tables. -/
theorem Spells.map (f : α → β) (htext : ∀ s, f (form.text s) = form'.text s)
    (htable : ∀ fields, f (form.table fields) = form'.table (fields.map (Prod.map id f)))
    {fields : List (String × α)} {given : List (Setting × String)} (h : Spells form fields given) :
    Spells form' (fields.map (Prod.map id f)) given := by
  induction h with
  | nil => exact .nil
  | setting a s _ ih =>
      rw [List.map_cons, Prod.map_apply, htext]
      exact .setting a s ih
  | domain parts _ ih =>
      -- The parts of the table are texts too.
      have hparts : (parts.map fun part => (part.1.name, form.text part.2)).map (Prod.map id f)
          = parts.map fun part => (part.1.name, form'.text part.2) := by
        simp [htext]
      rw [List.map_cons, Prod.map_apply, htable, hparts]
      exact .domain parts ih

end

/-! ### Values that hold a layer -/

namespace Tree

/-- A value that is a text, or is missing as the text is. -/
inductive Shows : Option Tree → Option String → Prop
  | missing : Shows none none
  | text (origin : Option String) (s : String) : Shows (some (.scalar origin (.text s))) (some s)

/-- A table with the parts of the domain as a layer has them. It may be missing where the layer has
none of them. -/
inductive HoldsDomain (layer : Layer) : Option Tree → Prop
  | missing (h : ∀ part, layer (.domain part) = none) : HoldsDomain layer none
  | table {origin : Option String} {fields : Fields}
      (h : ∀ part : DomainPart, Shows (fields.lookup part.name) (layer (.domain part))) :
      HoldsDomain layer (some (.table origin fields))

/-- A value has the settings of a layer in their places and no others. -/
structure Holds (layer : Layer) (tree : Tree) : Prop where
  poolKey : Shows (tree.field? "pool_key") (layer .poolKey)
  domain : HoldsDomain layer (tree.field? "export")

/-- No setting stands in a table without fields, which is what the sources are laid over. -/
theorem holds_empty : Holds (fun _ => none) (.table none []) := ⟨.missing, .missing fun _ => rfl⟩

/-! ### One field -/

/-- A field that is altered is looked up under its name in lower case, and every other field
is as it was. -/
theorem lookup_alterField (name : String) (f : Option Tree → Tree) (fields : Fields)
    (other : String) : (alterField name f fields).lookup other
      = if other = foldName name then some (f (fields.lookup (foldName name)))
        else fields.lookup other := by
  induction fields with
  | nil => simp [alterField, Entries.lookup_entry]
  | cons field rest ih =>
      obtain ⟨first, value⟩ := field
      by_cases hfirst : first = foldName name
      · -- The field is here; a second one of this name further on is never looked up.
        subst hfirst
        simp only [alterField, Entries.lookup_entry, if_true]
        split <;> rfl
      · -- The field is further on, and this one stays as it is.
        simp only [alterField, if_neg hfirst, Entries.lookup_entry, ih, Ne.symm hfirst, if_false]
        by_cases hother : other = first
        · simp [hother, hfirst]
        · simp [hother]

/-- A field that is altered shows under its name alone. A value that is no table becomes one
with that field. -/
theorem field?_alter (name : String) (f : Option Tree → Tree) (old : Tree) (other : String) :
    (old.alter name f).field? other
      = if other = foldName name then some (f (old.field? (foldName name)))
        else old.field? other := by
  cases old with
  | table origin fields => exact lookup_alterField name f fields other
  | scalar origin x => exact lookup_alterField name f [] other
  | list origin items => exact lookup_alterField name f [] other

/-- The name of the pool's key is in lower case, so it is looked up as it stands. -/
theorem foldName_poolKey : foldName "pool_key" = "pool_key" := by decide +kernel

/-- The name of the domain's table is in lower case. So the table is found under this name in
whatever letters a file has it. -/
theorem foldName_export : foldName "export" = "export" := by decide +kernel

/-- The names of the domain's parts are in lower case. There are two of them, and both are
computed. -/
theorem foldName_part (part : DomainPart) : foldName part.name = part.name := by
  cases part <;> decide +kernel

/-- The path of each setting is read from its name, by computation. The names have one step
or two, divided by a point. -/
theorem ofText_name (a : Setting) : KeyPath.ofText a.name = a.steps := by
  rcases a with _ | _ | _ <;> decide +kernel

/-- The path of the domain's table is read from its name. It has one step and is the first
step of the paths of both parts. -/
theorem ofText_export : KeyPath.ofText "export" = [.child "export"] := by decide +kernel

/-! ### The domain -/

variable {layer : Layer} {tree old : Tree}

/-- The domain of a layer depends on its parts alone, and not on the key of the pool. -/
theorem HoldsDomain.congr {layer' : Layer} {value : Option Tree} (h : HoldsDomain layer value)
    (hparts : ∀ part, layer' (.domain part) = layer (.domain part)) :
    HoldsDomain layer' value := by
  cases h with
  | missing h => exact .missing fun part => (hparts part).trans (h part)
  | table h => exact .table fun part => (hparts part).symm ▸ h part

/-- A missing table may be exchanged for an empty one: either way no part is given. -/
theorem HoldsDomain.getD {value : Option Tree} (h : HoldsDomain layer value) :
    HoldsDomain layer (some (value.getD (.table none []))) := by
  cases h with
  | missing h => exact .table fun part => (h part).symm ▸ .missing
  | table h => exact .table h

/-- A part that is laid over the domain changes that part alone. The field is found again
under its own name, and another part has another name. -/
theorem HoldsDomain.put (h : HoldsDomain layer (some old)) (part : DomainPart)
    (origin : Option String) (s : String) :
    HoldsDomain (Function.update layer (.domain part) (some s))
      (some (put part.name (.scalar origin (.text s)) old)) := by
  cases h with
  | table h =>
      refine .table fun other => ?_
      rw [lookup_alterField, foldName_part]
      by_cases hother : other = part
      · subst hother
        rw [if_pos rfl, Function.update_self]
        exact .text origin s
      · -- There are two parts, with different names.
        have hname : other.name ≠ part.name := by
          cases other <;> cases part <;> first | exact absurd rfl hother | decide
        have hsetting : Setting.domain other ≠ .domain part := fun heq =>
          hother (Setting.domain.inj heq)
        rw [if_neg hname, Function.update_of_ne hsetting]
        exact h other

/-- Parts that are laid over the domain one by one are put in place there. Induction on the
parts. -/
theorem HoldsDomain.ontoAll (origin : Option String) (parts : List (DomainPart × String))
    (h : HoldsDomain layer (some old)) :
    HoldsDomain (layer.extend (parts.map fun part => (.domain part.1, part.2)))
      (some (ontoAll (parts.map fun part => (part.1.name, .scalar origin (.text part.2)))
        old)) := by
  induction parts generalizing layer old with
  | nil => exact h
  | cons part parts ih =>
      rw [List.map_cons, List.map_cons, Tree.ontoAll, Layer.extend_cons]
      exact ih (h.put part.1 origin part.2)

/-! ### Sources -/

/-- A setting that is laid over a value changes that setting alone, wherever it stands in the
tree. -/
theorem Holds.set (h : Holds layer tree) (a : Setting) (origin : Option String) (s : String) :
    Holds (Function.update layer a (some s)) (set (.scalar origin (.text s)) a.steps tree) := by
  cases a with
  | poolKey =>
      have hne : ∀ part, Setting.domain part ≠ .poolKey := nofun
      constructor
      · show Shows ((tree.alter "pool_key" _).field? "pool_key") _
        rw [field?_alter, foldName_poolKey, if_pos rfl, Function.update_self]
        exact .text origin s
      · show HoldsDomain _ ((tree.alter "pool_key" _).field? "export")
        rw [field?_alter, foldName_poolKey, if_neg (by decide)]
        exact h.domain.congr fun part => Function.update_of_ne (hne part) ..
  | domain part =>
      have hne : Setting.poolKey ≠ .domain part := nofun
      constructor
      · show Shows ((tree.alter "export" _).field? "pool_key") _
        rw [field?_alter, foldName_export, if_neg (by decide), Function.update_of_ne hne]
        exact h.poolKey
      · show HoldsDomain _ ((tree.alter "export" _).field? "export")
        rw [field?_alter, foldName_export, if_pos rfl]
        -- Nothing gives way to a table as an empty table would be altered.
        have hput : Tree.set (.scalar origin (.text s)) [.child part.name]
              ((tree.field? "export").getD nothing)
            = put part.name (.scalar origin (.text s))
                ((tree.field? "export").getD (.table none [])) := by
          cases tree.field? "export" <;> rfl
        rw [hput]
        exact h.domain.getD.put part origin s

/-- A table of parts that is laid over a value is merged into the domain that stands there.
The parts that it does not have are kept. -/
theorem Holds.put_domain (h : Holds layer tree) (parts : List (DomainPart × String))
    (origin : Option String) :
    Holds (layer.extend (parts.map fun part => (.domain part.1, part.2)))
      (put "export" (.table origin
        (parts.map fun part => (part.1.name, .scalar origin (.text part.2)))) tree) := by
  -- The parts belong to the domain, so the other setting is not among them.
  have hpoolKey : Setting.poolKey ∉
      (parts.map fun part => (Setting.domain part.1, part.2)).map Prod.fst := by
    simp
  constructor
  · show Shows ((tree.alter "export" _).field? "pool_key") _
    rw [field?_alter, foldName_export, if_neg (by decide),
      Layer.extend_of_not_mem layer hpoolKey]
    exact h.poolKey
  · show HoldsDomain _ ((tree.alter "export" _).field? "export")
    rw [field?_alter, foldName_export, if_pos rfl]
    exact h.domain.getD.ontoAll origin parts

/-- To lay the fields of a source over a value puts the settings in place that the source
gives and keeps all others. Induction on what the fields spell. A setting that is spelled by
a path and one that is spelled in a table end up at the same place of the tree. -/
theorem Holds.lay {origin : Option String} {fields : Fields} {given : List (Setting × String)}
    (hfields : Spells (.tree origin) fields given) (h : Holds layer tree) :
    Holds (layer.extend given) (lay fields tree) := by
  induction hfields generalizing layer tree with
  | nil => exact h
  | setting a s _ ih =>
      show Holds _ (Tree.lay _ (Tree.set _ (KeyPath.ofText a.name) tree))
      rw [ofText_name]
      exact ih (h.set a origin s)
  | domain parts _ ih =>
      show Holds _ (Tree.lay _ (Tree.set _ (KeyPath.ofText "export") tree))
      rw [ofText_export, Layer.extend_append]
      exact ih (h.put_domain parts origin)

end Tree

/-! ### Reading -/

section
variable {layer : Layer} {tree : Tree}

/-- The text at a place is read, if there is one, and a missing one is no fault. -/
theorem textField?_eq (path : String) (tree : Tree) {name : String} {text : Option String}
    (h : Tree.Shows (tree.field? name) text) : textField? path name tree = .ok text := by
  unfold textField?
  generalize tree.field? name = value at h ⊢
  cases h with
  | missing => rfl
  | text origin s => rfl

/-- The domain is read from its parts, of which the secret may not be missing. The padding
has a default. -/
theorem domainOf_eq {value : Tree} (h : Tree.HoldsDomain layer (some value)) :
    domainOf value
      = match layer (.domain .secret) with
        | none => .error (.missing "system_secret")
        | some secret =>
          .ok ⟨secret, (layer (.domain .padding)).getD Backup.Domain.defaultPadding⟩ := by
  cases h with
  | table h =>
      rename_i origin fields
      have hsecret := textField?_eq "export.system_secret" (.table origin fields) (h .secret)
      have hpadding := textField?_eq "export.padding" (.table origin fields) (h .padding)
      simp only [DomainPart.name] at hsecret hpadding
      simp only [domainOf, hsecret, hpadding]
      cases layer (.domain .secret) <;> rfl

/-- Settings are read where a secret is given, with defaults for the others. -/
theorem ofTree_eq_ok (h : tree.Holds layer) {secret : String}
    (hsecret : layer (.domain .secret) = some secret) :
    ofTree tree = .ok ⟨(layer .poolKey).getD defaultPoolKey, secret,
      (layer (.domain .padding)).getD Backup.Domain.defaultPadding⟩ := by
  have hpoolKey : textField? "pool_key" "pool_key" tree = .ok (layer .poolKey) :=
    textField?_eq "pool_key" tree h.poolKey
  have hdomain := h.domain
  -- Without the table there is no secret.
  cases hvalue : tree.field? "export" with
  | none =>
      rw [hvalue] at hdomain
      cases hdomain with
      | missing hnone => exact absurd (hsecret.symm.trans (hnone .secret)) nofun
  | some value =>
      rw [hvalue] at hdomain
      have hread := domainOf_eq hdomain
      rw [hsecret] at hread
      simp only [ofTree, hvalue, hread, hpoolKey]
      rfl

/-- Without a secret nothing is read: it is missing, or its table is. -/
theorem ofTree_eq_error (h : tree.Holds layer) (hsecret : layer (.domain .secret) = none) :
    ofTree tree = .error (.missing "export") ∨ ofTree tree = .error (.missing "system_secret") := by
  have hpoolKey : textField? "pool_key" "pool_key" tree = .ok (layer .poolKey) :=
    textField?_eq "pool_key" tree h.poolKey
  have hdomain := h.domain
  cases hvalue : tree.field? "export" with
  | none =>
      -- There is no table, so the table is what is missing.
      left
      simp only [ofTree, hvalue, hpoolKey]
      rfl
  | some value =>
      -- The table is there and lacks the secret.
      right
      rw [hvalue] at hdomain
      have hread := domainOf_eq hdomain
      rw [hsecret] at hread
      simp only [ofTree, hvalue, hread]
      rfl

/-- The settings that are read from a layer have its texts, or their defaults. -/
theorem some_text_of_layer {secret : String} (hsecret : layer (.domain .secret) = some secret)
    (a : Setting) :
    some (Settings.text ⟨(layer .poolKey).getD defaultPoolKey, secret,
      (layer (.domain .padding)).getD Backup.Domain.defaultPadding⟩ a)
        = (layer a <|> a.default?) := by
  rcases a with _ | _ | _
  · cases layer .poolKey <;> rfl
  · rw [hsecret]
    rfl
  · cases layer (.domain .padding) <;> rfl

/-- What is read has for each setting the text of the layer, or its default. The secret has
no default, so the condition cannot be met without one. So what is loaded is determined by
the layer alone, and not by how the tree came to hold it. -/
theorem ofTree_eq_ok_iff (h : tree.Holds layer) (settings : Settings) :
    ofTree tree = .ok settings ↔ ∀ a, some (settings.text a) = (layer a <|> a.default?) := by
  cases hsecret : layer (.domain .secret) with
  | none =>
      constructor
      · intro hread
        rcases ofTree_eq_error h hsecret with herror | herror <;>
          exact absurd (hread.symm.trans herror) nofun
      · intro htexts
        -- A text for the secret would need one in the layer or a default, and there is neither.
        have htext := htexts (.domain .secret)
        rw [hsecret] at htext
        exact absurd htext nofun
  | some secret =>
      rw [ofTree_eq_ok h hsecret, Except.ok.injEq]
      constructor
      · rintro rfl a
        exact some_text_of_layer hsecret a
      · intro htexts
        -- Settings are the same if their texts are.
        refine ext_text fun a => Option.some.inj ?_
        rw [some_text_of_layer hsecret, htexts a]

/-- Reading fails for a missing secret alone. The other settings have defaults. -/
theorem exists_ofTree_eq_error_iff (h : tree.Holds layer) :
    (∃ e, ofTree tree = .error e) ↔ layer (.domain .secret) = none := by
  constructor
  · rintro ⟨e, herror⟩
    rw [Option.eq_none_iff_forall_ne_some]
    intro secret hsecret
    exact absurd ((ofTree_eq_ok h hsecret).symm.trans herror) nofun
  · intro hsecret
    rcases ofTree_eq_error h hsecret with herror | herror <;> exact ⟨_, herror⟩

end
end Keyring.Settings
