import Keyring.Proofs.Json.Reader
import Keyring.Proofs.Settings.Source
import Keyring.Proofs.Toml.Document

/-!
# `Keyring.Proofs.Settings.Load`: settings are merged one by one

Any choice of texts can come from a file: each layer is written here as a JSON
text and as a TOML text, with the parts of the domain in a table. The theorems:

* `jsonGives_jsonText`, `tomlGives_tomlText`: the texts of a layer give it.
* `load_layered`: each setting is the text that the last source gives for it,
  whatever that source gives for the others; only a missing secret is an error.
-/

set_option autoImplicit false

namespace Keyring.Settings

/-! ### Files for a layer -/

namespace Layer

/-- The parts of the domain in a layer. -/
def parts (layer : Layer) : List (DomainPart × String) :=
  Entries.given [.padding, .secret] fun part => layer (.domain part)

/-- The key of the pool as a field, if the layer has one. -/
def poolFields {α : Type} (form : Form α) (layer : Layer) : List (String × α) :=
  namedFields form (Entries.given [.poolKey] layer)

/-- The table of the domain as a field. -/
def domainField {α : Type} (form : Form α) (layer : Layer) : String × α :=
  ("export", form.table (layer.parts.map fun part => (part.1.name, form.text part.2)))

/-- A layer as a JSON value. -/
def toJson (layer : Layer) : Json := .object (layer.domainField .json :: layer.poolFields .json)

/-- A layer as a JSON text. -/
def jsonText (layer : Layer) : String := layer.toJson.render

/-- A layer as a TOML text. -/
def tomlText (layer : Layer) : String :=
  Toml.document ((Entries.given [.poolKey] layer).map fun a => (a.1.name, a.2)) "export"
    (layer.parts.map fun part => (part.1.name, part.2))

end Layer

section
variable {α : Type} {form : Form α} {layer : Layer}

/-- The field of the pool's key spells it, if the layer has one. -/
theorem spells_poolFields (form : Form α) (layer : Layer) :
    Spells form (layer.poolFields form) (Entries.given [.poolKey] layer) :=
  spells_namedFields form _

/-- The table of the domain spells the parts that the layer has. It is the way to spell them
that files use; variables spell each part by its path. -/
theorem spells_domainField (form : Form α) (layer : Layer) :
    Spells form [layer.domainField form]
      (Entries.given [.domain .padding, .domain .secret] layer) := by
  have h := Spells.domain layer.parts (.nil : Spells form [] [])
  rwa [Layer.parts, Entries.map_given, List.append_nil] at h

/-- Fields that hold all settings of a layer, in any order, give it. -/
theorem gives_of_spells (order : List Setting) {fields : List (String × α)}
    (h : Spells form fields (Entries.given order layer)) (hdistinct : order.Nodup)
    (hall : ∀ a, a ∈ order) : Gives form fields layer := by
  refine ⟨Entries.given order layer, h, ?_, ?_⟩
  · rw [Entries.fst_given]
    exact hdistinct.filter _
  · funext a
    rw [Entries.lookup_given, if_pos (hall a)]

end

/-! ### JSON -/

namespace Layer

/-- The JSON value of a layer has its names ascending, because they are written in that order
and some may be left out. -/
theorem ordered_toJson (layer : Layer) : layer.toJson.Ordered := by
  have hparts := Entries.names_given DomainPart.name Json.text [.padding, .secret]
    fun part => layer (.domain part)
  have hpool := Entries.names_given Setting.name Json.text [.poolKey] layer
  have hdomain : (layer.domainField .json).2.Ordered := by
    refine ⟨List.pairwise_map.1 (List.Pairwise.sublist hparts (by decide)), ?_⟩
    exact Json.orderedFields_of_forall (List.forall_mem_map.2 fun _ _ => trivial)
  refine ⟨List.pairwise_map.1 (List.Pairwise.sublist (hpool.cons_cons "export") (by decide)), ?_⟩
  exact ⟨hdomain, Json.orderedFields_of_forall (List.forall_mem_map.2 fun _ _ => trivial)⟩

/-- The JSON value of a layer has texts only. So it is read back as it is, without a
rounding. -/
theorem floatFree_toJson (layer : Layer) : layer.toJson.FloatFree := by
  rw [toJson, Json.floatFree_object]
  refine List.forall_mem_cons.2 ⟨Json.floatFree_object.2 ?_, ?_⟩
  · exact List.forall_mem_map.2 fun _ _ => Json.floatFree_text _
  · exact List.forall_mem_map.2 fun _ _ => Json.floatFree_text _

/-- The JSON value of a layer is an object with one object in it. -/
theorem depth_toJson (layer : Layer) : layer.toJson.depth ≤ 2 := by
  refine Json.depth_object_le (List.forall_mem_cons.2 ⟨Json.depth_object_le ?_, ?_⟩)
  · exact List.forall_mem_map.2 fun _ _ => Nat.le_refl 0
  · exact List.forall_mem_map.2 fun _ _ => Nat.zero_le 1

end Layer

/-- The JSON text of a layer is read as its value. It is two levels deep at most. -/
theorem parse_jsonText (layer : Layer) : Json.parse layer.jsonText = .ok layer.toJson :=
  Json.readAll_of_reads (Json.readsValue_ordered .stepwise layer.ordered_toJson
    layer.floatFree_toJson (layer.depth_toJson.trans (by decide)))

/-- The JSON text of a layer gives it. So every layer can stand in a JSON file. The theorem
on loading is therefore about all layers and not only about those that happen to come from
some text. -/
theorem jsonGives_jsonText (layer : Layer) : JsonGives layer.jsonText layer := by
  refine ⟨_, parse_jsonText layer, ?_⟩
  refine gives_of_spells ([.domain .padding, .domain .secret] ++ [.poolKey]) ?_ (by decide)
    fun a => ?_
  · rw [Entries.given_append]
    exact (spells_domainField .json layer).append (spells_poolFields .json layer)
  · rcases a with _ | _ | _ <;> decide

/-! ### TOML -/

/-- The name of the pool's key may stand in a TOML text without quotes. -/
theorem isBareName_poolKey : Toml.IsBareName Setting.poolKey.name := by decide +kernel

/-- So may the name of the domain's table. Its letters need no quotes. -/
theorem isBareName_export : Toml.IsBareName "export" := by decide +kernel

/-- So may the names of the domain's parts. There are two of them, and both are computed. -/
theorem isBareName_part (part : DomainPart) : Toml.IsBareName part.name := by
  cases part <;> decide +kernel

/-- The names of a layer may stand in a TOML text: they are bare and all different. -/
theorem writable_layer (layer : Layer) :
    Toml.Writable ((Entries.given [.poolKey] layer).map fun a => (a.1.name, a.2)) "export"
      (layer.parts.map fun part => (part.1.name, part.2)) := by
  -- The names of the settings that are given are some of all names, in their order.
  have hpool := Entries.names_given Setting.name id [.poolKey] layer
  have hparts := Entries.names_given DomainPart.name id [.padding, .secret]
    fun part => layer (.domain part)
  constructor
  case bare =>
    intro entry hentry
    have hname := hpool.subset (List.mem_map_of_mem hentry)
    rw [List.mem_singleton.1 hname]
    exact isBareName_poolKey
  case bareName => exact isBareName_export
  case bareInner => exact List.forall_mem_map.2 fun part _ => isBareName_part part.1
  case distinct => exact List.Pairwise.sublist (hpool.append_right ["export"]) (by decide)
  case distinctInner => exact List.Pairwise.sublist hparts (by decide)

/-- The TOML text of a layer is read as its fields. The pool's fields come before the first
heading, because what comes after it belongs to that table. -/
theorem parse_tomlText (layer : Layer) : Toml.parse layer.tomlText
    = .ok (.table (layer.poolFields .toml ++ [layer.domainField .toml])) := by
  rw [Layer.tomlText, Toml.parse_document (writable_layer layer)]
  simp [Layer.poolFields, Layer.domainField, namedFields, Form.toml]

/-- The TOML text of a layer gives it. So every layer can stand in a TOML file. The pool's
key stands above the heading of the table, as the format asks for. -/
theorem tomlGives_tomlText (layer : Layer) : TomlGives layer.tomlText layer := by
  refine ⟨_, parse_tomlText layer, ?_⟩
  refine gives_of_spells ([.poolKey] ++ [.domain .padding, .domain .secret]) ?_ (by decide)
    fun a => ?_
  · rw [Entries.given_append]
    exact (spells_poolFields .toml layer).append (spells_domainField .toml layer)
  · rcases a with _ | _ | _ <;> decide

/-! ### All sources -/

/-- Every layer is given by a JSON file and by a TOML file. Whatever layers the two files and the
environment give, each setting that is loaded is the text of the last source that gives this
setting, or its default, whichever other settings that source gives; and nothing is loaded exactly
where no source gives the secret. -/
theorem load_layered :
    (∀ layer : Layer, JsonGives layer.jsonText layer ∧ TomlGives layer.tomlText layer) ∧
    ∀ (s : Sources) (base overrides environment : Layer),
      FileGives s "default" base → FileGives s "local" overrides →
      VariablesGive s.environment environment →
      (∀ settings : Settings, load s = .ok settings ↔
        ∀ a, some (settings.text a) = (environment a <|> overrides a <|> base a <|> a.default?)) ∧
      ((∃ e, load s = .error e) ↔
        environment (.domain .secret) = none ∧ overrides (.domain .secret) = none ∧
          base (.domain .secret) = none) := by
  refine ⟨fun layer => ⟨jsonGives_jsonText layer, tomlGives_tomlText layer⟩, ?_⟩
  intro s base overrides environment hbase hoverrides henvironment
  obtain ⟨tree, hcollect, hholds⟩ := collect_holds hbase hoverrides henvironment
  -- Loading is reading the tree that was collected, and the tree holds the three layers together.
  have hload : load s = ofTree tree := by rw [load, hcollect]
  rw [hload]
  constructor
  · intro settings
    rw [ofTree_eq_ok_iff hholds]
    simp [Layer.under, Option.or_assoc]
  · rw [exists_ofTree_eq_error_iff hholds]
    simp [Layer.under]

/-- A default file with all settings, a local file with a secret, and an environment with an empty
padding. -/
def mixedSources : Sources where
  files := [
    ("default.json", "\x7b\"export\":\x7b\"padding\":\"pad\",\"system_secret\":\"old\"\x7d," ++
      "\"pool_key\":\"pool\"\x7d"),
    ("local.toml", "[export]\nsystem_secret = \"new\"\n")]
  environment := [("PATH", "/bin"), ("WALLET_VAULT_EXPORT__PADDING", "")]

/-- The settings of the default file. -/
def mixedDefault : Layer
  | .poolKey => some "pool"
  | .domain .secret => some "old"
  | .domain .padding => some "pad"

/-- The secret of the local file. -/
def mixedLocal : Layer
  | .domain .secret => some "new"
  | _ => none

/-- The padding of the environment. -/
def mixedEnvironment : Layer
  | .domain .padding => some ""
  | _ => none

/-- The secret of the local file is taken with an empty padding and with the key of the pool
from the default file. -/
theorem load_layered_mixed : FileGives mixedSources "default" mixedDefault ∧
    FileGives mixedSources "local" mixedLocal ∧
    VariablesGive mixedSources.environment mixedEnvironment ∧
    load mixedSources = .ok ⟨"pool", "new", ""⟩ := by
  obtain ⟨hfiles, hload⟩ := load_layered
  have hdefault : FileGives mixedSources "default" mixedDefault := by
    have htext : mixedDefault.jsonText = "\x7b\"export\":\x7b\"padding\":\"pad\"," ++
        "\"system_secret\":\"old\"\x7d,\"pool_key\":\"pool\"\x7d" := by
      decide +kernel
    exact .json rfl rfl rfl (htext ▸ (hfiles mixedDefault).1)
  have hlocal : FileGives mixedSources "local" mixedLocal := by
    have htext : mixedLocal.tomlText = "[export]\nsystem_secret = \"new\"\n" := by
      decide +kernel
    exact .toml rfl rfl rfl (htext ▸ (hfiles mixedLocal).2)
  -- One variable is for a setting and the other is foreign.
  have hvariables : VariablesGive mixedSources.environment mixedEnvironment := by
    refine ⟨by decide, ?_, fun a => ?_⟩
    · refine List.forall_mem_cons.2 ⟨.inl (by decide +kernel), ?_⟩
      exact List.forall_mem_cons.2 ⟨.inr ⟨.domain .padding, rfl⟩, nofun⟩
    · rcases a with _ | _ | _ <;> decide
  refine ⟨hdefault, hlocal, hvariables, ?_⟩
  refine ((hload _ _ _ _ hdefault hlocal hvariables).1 _).2 fun a => ?_
  rcases a with _ | _ | _ <;> rfl

end Keyring.Settings
