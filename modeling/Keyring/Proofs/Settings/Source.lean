import Keyring.Proofs.Settings.Layer
import Keyring.Proofs.Text.Split
import Mathlib.Data.List.Nodup

/-!
# `Keyring.Proofs.Settings.Source`: layers from files and variables

A file gives a layer if its text is an object or a table whose fields give it,
and the environment does if each variable that is meant for settings has the
name of one of them. The theorems:

* `FileGives.readFile`: a file that gives a layer is read to fields that give it.
* `VariablesGive.readVariables`: so are the variables, each of which counts once.
* `collect_holds`: the sources together hold, for each setting, what the last of
  them gives.
-/

set_option autoImplicit false

namespace Keyring.Settings

/-! ### Files -/

/-- A text gives a layer as JSON. -/
def JsonGives (text : String) (layer : Layer) : Prop :=
  ∃ fields, Json.parse text = .ok (.object fields) ∧ Gives .json fields layer

/-- A text gives a layer as TOML. -/
def TomlGives (text : String) (layer : Layer) : Prop :=
  ∃ fields, Toml.parse text = .ok (.table fields) ∧ Gives .toml fields layer

/-- The one file of a base name, which is JSON or TOML by its ending, gives a layer. Where there is
no file, no setting is given. -/
inductive FileGives (s : Sources) (base : String) : Layer → Prop
  | missing (hplain : s.files.lookup base = none) (hjson : s.files.lookup (base ++ ".json") = none)
      (htoml : s.files.lookup (base ++ ".toml") = none) : FileGives s base fun _ => none
  | json {text : String} {layer : Layer} (hplain : s.files.lookup base = none)
      (hjson : s.files.lookup (base ++ ".json") = some text)
      (htoml : s.files.lookup (base ++ ".toml") = none) (h : JsonGives text layer) :
      FileGives s base layer
  | toml {text : String} {layer : Layer} (hplain : s.files.lookup base = none)
      (hjson : s.files.lookup (base ++ ".json") = none)
      (htoml : s.files.lookup (base ++ ".toml") = some text) (h : TomlGives text layer) :
      FileGives s base layer

/-- The fields of a JSON object are taken over one by one. The recursion is written out in
the definition because it is nested in that on values. -/
theorem Tree.ofFields_eq_map (origin : String) (fields : List (String × Json)) :
    ofFields origin fields = fields.map (Prod.map id (ofJson origin)) := by
  induction fields with
  | nil => rfl
  | cons field rest ih =>
      rw [ofFields, ih]
      rfl

/-- The fields of a TOML table are taken over one by one. It is the same recursion as for
JSON, over the values of the other reader. -/
theorem Tree.ofTomlFields_eq_map (origin : String) (fields : List (String × Toml.Plain)) :
    ofTomlFields origin fields = fields.map (Prod.map id (ofToml origin)) := by
  induction fields with
  | nil => rfl
  | cons field rest ih =>
      rw [ofTomlFields, ih]
      rfl

/-- The fields of a JSON text that gives a layer give it as well, with the file as their
origin. -/
theorem JsonGives.readJson {text : String} {layer : Layer} (h : JsonGives text layer)
    (name : String) :
    ∃ fields, Settings.readJson name text = .ok fields ∧
      Gives (.tree (some (folder ++ name))) fields layer := by
  obtain ⟨fields, hparse, given, hfields, hnodup, hlayer⟩ := h
  refine ⟨Tree.ofFields (folder ++ name) fields, ?_, given, ?_, hnodup, hlayer⟩
  · rw [Settings.readJson, hparse]
    rfl
  · rw [Tree.ofFields_eq_map]
    refine hfields.map _ (fun s => rfl) fun inner => ?_
    exact congrArg _ (Tree.ofFields_eq_map _ inner)

/-- The fields of a TOML text that gives a layer give it as well, with the file as their
origin. -/
theorem TomlGives.readToml {text : String} {layer : Layer} (h : TomlGives text layer)
    (name : String) :
    ∃ fields, Settings.readToml name text = .ok fields ∧
      Gives (.tree (some (folder ++ name))) fields layer := by
  obtain ⟨fields, hparse, given, hfields, hnodup, hlayer⟩ := h
  refine ⟨Tree.ofTomlFields (folder ++ name) fields, ?_, given, ?_, hnodup, hlayer⟩
  · rw [Settings.readToml, hparse]
    rfl
  · rw [Tree.ofTomlFields_eq_map]
    refine hfields.map _ (fun s => rfl) fun inner => ?_
    exact congrArg _ (Tree.ofTomlFields_eq_map _ inner)

/-- No fields give no setting. This is how a source without settings counts. -/
theorem gives_nil {α : Type} (form : Form α) : Gives form [] fun _ => none :=
  ⟨[], .nil, .nil, rfl⟩

/-- A file that gives a layer is read to fields that give it. A file that is missing gives
the layer without settings. The two formats are read by different readers and end in the same
fields. -/
theorem FileGives.readFile {s : Sources} {base : String} {layer : Layer}
    (h : FileGives s base layer) :
    ∃ origin fields, Settings.readFile s base = .ok fields ∧ Gives (.tree origin) fields layer := by
  cases h with
  | missing hplain hjson htoml =>
      refine ⟨none, [], ?_, gives_nil _⟩
      simp [Settings.readFile, hplain, hjson, htoml]
  | json hplain hjson htoml h =>
      obtain ⟨fields, hread, hfields⟩ := h.readJson (base ++ ".json")
      refine ⟨_, fields, ?_, hfields⟩
      simp [Settings.readFile, hplain, hjson, hread, Except.mapError]
  | toml hplain hjson htoml h =>
      obtain ⟨fields, hread, hfields⟩ := h.readToml (base ++ ".toml")
      refine ⟨_, fields, ?_, hfields⟩
      simp [Settings.readFile, hplain, hjson, htoml, hread, Except.mapError]

/-! ### Variables -/

/-- The name of the variable for a setting. -/
def Setting.variableName : Setting → String
  | .poolKey => "WALLET_VAULT_POOL_KEY"
  | .domain .secret => "WALLET_VAULT_EXPORT__SYSTEM_SECRET"
  | .domain .padding => "WALLET_VAULT_EXPORT__PADDING"

/-- A variable of this name is not meant for settings. -/
def IsForeign (name : String) : Prop := ¬ variableStart.toList <+: (foldName name).toList

instance (name : String) : Decidable (IsForeign name) :=
  inferInstanceAs (Decidable ¬ variableStart.toList <+: (foldName name).toList)

/-- Variables, of which no two have one name, give a layer. All but those for its settings are
foreign. -/
structure VariablesGive (vars : List (String × String)) (layer : Layer) : Prop where
  distinct : (vars.map Prod.fst).Nodup
  named : ∀ v ∈ vars, IsForeign v.1 ∨ ∃ a : Setting, v.1 = a.variableName
  layer_eq : ∀ a, layer a = vars.lookup a.variableName

/-- The variable of a setting is recognised as that setting, by computation. There are three
of them, and each is read from its own variable. -/
theorem settingOf?_variableName (a : Setting) : settingOf? a.variableName = some a.name := by
  rcases a with _ | _ | _ <;> decide +kernel

/-- A variable that does not begin as those of the program do is passed over. -/
theorem settingOf?_of_isForeign {name : String} (h : IsForeign name) : settingOf? name = none := by
  rw [settingOf?, Option.map_eq_none_iff, Text.dropStart?_eq_none_iff]
  exact h

/-- Different settings have different names. There are three of them, so all pairs are tried. -/
theorem name_injective {a b : Setting} (h : a.name = b.name) : a = b := by
  rcases a with _ | _ | _ <;> rcases b with _ | _ | _ <;> first | rfl | exact absurd h (by decide)

/-- Different settings have different variables, since a variable gives back the name of its
setting. -/
theorem variableName_injective {a b : Setting} (h : a.variableName = b.variableName) : a = b := by
  have hsetting := settingOf?_variableName a
  rw [h, settingOf?_variableName] at hsetting
  exact (name_injective (Option.some.inj hsetting)).symm

/-- Values from a variable. -/
def exported : Form Tree := .tree (some "the environment")

/-- The fields with those of one more variable. -/
def takeVariable (fields : Tree.Fields) (v : String × String) : Tree.Fields :=
  match settingOf? v.1 with
  | none => fields
  | some setting =>
    fields.filter (fun field => field.1 != setting) ++
      [(setting, exported.text v.2)]

/-- Variables are taken one after another, from no fields on. The later of two variables for
one setting counts, which the fold shows. -/
theorem readVariables_eq (s : Sources) :
    readVariables s = s.environment.foldl takeVariable [] := rfl

/-- A variable for a setting takes the place of an earlier one. The fields are kept by name,
so the names have to be different for different settings. -/
theorem takeVariable_namedFields (given : List (Setting × String)) (a : Setting) (s : String) :
    takeVariable (namedFields exported given) (a.variableName, s)
      = namedFields exported (given.filter (fun entry => entry.1 ≠ a) ++ [(a, s)]) := by
  have hname : ∀ b : Setting, (b.name != a.name) = decide (b ≠ a) := by
    intro b
    by_cases hb : b = a
    · simp [hb]
    · simp [hb, mt name_injective hb]
  simp only [takeVariable, settingOf?_variableName, namedFields, List.filter_map, List.map_append,
    List.map_cons, List.map_nil, Function.comp_def, hname]

/-- Settings stay apart when one of them is given anew: the earlier one is left out. -/
theorem nodup_replaced {given : List (Setting × String)} (h : (given.map Prod.fst).Nodup)
    (a : Setting) (s : String) :
    ((given.filter (fun entry => entry.1 ≠ a) ++ [(a, s)]).map Prod.fst).Nodup := by
  have hfiltered : ((given.filter fun entry => entry.1 ≠ a).map Prod.fst).Nodup :=
    h.sublist (List.filter_sublist.map Prod.fst)
  have hnew : a ∉ (given.filter fun entry => entry.1 ≠ a).map Prod.fst := by
    simp
  rw [List.map_append]
  exact hfiltered.append (List.nodup_singleton a) (List.disjoint_singleton.2 hnew)

/-- A setting that is given anew is found with its new text, and the others with theirs. -/
theorem lookup_replaced (given : List (Setting × String)) (a : Setting) (s : String) (b : Setting) :
    List.lookup b (given.filter (fun entry => entry.1 ≠ a) ++ [(a, s)])
      = if b = a then some s else given.lookup b := by
  rw [List.lookup_append, Entries.lookup_filter_ne, Entries.lookup_entry]
  by_cases hb : b = a <;> simp [hb]

/-- Variables are taken one by one, and what they set is what is looked up among them; other
settings stay as they were. Induction on the variables. -/
theorem foldl_takeVariable (vars : List (String × String))
    (hdistinct : (vars.map Prod.fst).Nodup)
    (hnamed : ∀ v ∈ vars, IsForeign v.1 ∨ ∃ a : Setting, v.1 = a.variableName)
    (given : List (Setting × String)) (hgiven : (given.map Prod.fst).Nodup) :
    ∃ given', vars.foldl takeVariable (namedFields exported given) = namedFields exported given' ∧
      (given'.map Prod.fst).Nodup ∧
      ∀ a, given'.lookup a = (vars.lookup a.variableName <|> given.lookup a) := by
  induction vars generalizing given with
  | nil => exact ⟨given, rfl, hgiven, fun _ => rfl⟩
  | cons v rest ih =>
      obtain ⟨name, s⟩ := v
      obtain ⟨hnew, hrest⟩ := List.nodup_cons.1 hdistinct
      obtain ⟨hname, hrestNamed⟩ := List.forall_mem_cons.1 hnamed
      obtain hforeign | ⟨a, rfl⟩ := hname
      · obtain ⟨given', hfold, hnodup, hlookup⟩ := ih hrest hrestNamed given hgiven
        refine ⟨given', ?_, hnodup, fun a => ?_⟩
        · -- A foreign variable is passed over, and it is the variable of no setting.
          rw [List.foldl_cons, takeVariable, settingOf?_of_isForeign hforeign]
          exact hfold
        · have hne : a.variableName ≠ name := by
            rintro rfl
            exact absurd ((settingOf?_variableName a).symm.trans
              (settingOf?_of_isForeign hforeign)) nofun
          rw [hlookup, Entries.lookup_entry, if_neg hne]
      · obtain ⟨given', hfold, hnodup, hlookup⟩ :=
          ih hrest hrestNamed _ (nodup_replaced hgiven a s)
        refine ⟨given', ?_, hnodup, fun b => ?_⟩
        · -- The setting of this variable is put in place of what was given for it.
          rw [List.foldl_cons, takeVariable_namedFields]
          exact hfold
        · rw [hlookup, lookup_replaced, Entries.lookup_entry]
          by_cases hb : b = a
          · subst hb
            rw [if_pos rfl, if_pos rfl, Entries.lookup_eq_none_of_not_mem hnew]
            rfl
          · rw [if_neg hb, if_neg (mt variableName_injective hb)]

/-- The variables give their layer as fields. Variables that stand for no setting are passed
over, and no setting is named twice. -/
theorem VariablesGive.readVariables {s : Sources} {layer : Layer}
    (h : VariablesGive s.environment layer) :
    Gives exported (Settings.readVariables s) layer := by
  obtain ⟨given, hfold, hnodup, hlookup⟩ :=
    foldl_takeVariable s.environment h.distinct h.named [] List.nodup_nil
  refine ⟨given, ?_, hnodup, ?_⟩
  · rw [readVariables_eq]
    exact hfold ▸ spells_namedFields exported given
  · funext a
    simp [h.layer_eq, hlookup]

/-! ### All sources -/

/-- A source is laid over a value as its layer is over the layer that the value holds. -/
theorem Gives.lay {origin : Option String} {fields : Tree.Fields} {upper lower : Layer}
    {tree : Tree} (hfields : Gives (.tree origin) fields upper) (h : tree.Holds lower) :
    (Tree.lay fields tree).Holds (lower.under upper) := by
  obtain ⟨given, hspells, hnodup, rfl⟩ := hfields
  rw [← Layer.extend_eq_under lower hnodup]
  exact h.lay hspells

/-- Sources that give layers are laid over each other without a fault, and what they come to
holds the three layers, the default file at the bottom and the variables on top. -/
theorem collect_holds {s : Sources} {base overrides environment : Layer}
    (hbase : FileGives s "default" base) (hoverrides : FileGives s "local" overrides)
    (henvironment : VariablesGive s.environment environment) :
    ∃ tree, collect s = .ok tree ∧ tree.Holds ((base.under overrides).under environment) := by
  obtain ⟨_, baseFields, hreadBase, hbase⟩ := hbase.readFile
  obtain ⟨_, overridesFields, hreadOverrides, hoverrides⟩ := hoverrides.readFile
  have hholds := henvironment.readVariables.lay (hoverrides.lay (hbase.lay Tree.holds_empty))
  rw [Layer.none_under] at hholds
  refine ⟨_, ?_, hholds⟩
  rw [collect, hreadBase, hreadOverrides]
  rfl

end Keyring.Settings
