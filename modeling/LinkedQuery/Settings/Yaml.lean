import LinkedQuery.Settings.Basic
import LinkedQuery.Yaml.Document
import LinkedQuery.Yaml.Json

/-!
# Settings in YAML

`Settings.ofYamlText` reads settings from a YAML mapping of their fields, each at most once; an
empty text gives the default settings.  A scalar is a string wherever a field holds a string,
whatever else it might read as.  Of several faults the one that comes first in the text counts.
-/

namespace LinkedQuery

/-- Why a YAML text gives no settings. -/
inductive SettingsFault where
  /-- A value that is not what its place asks for. -/
  | unfit (mismatch : Yaml.Mismatch)
  | unknownField (name : String) (mark : Yaml.Mark)
  | duplicateField (field : SettingsField) (mark : Yaml.Mark)
  /-- A fault behind the settings. -/
  | broken (fault : Yaml.Fault)
  | severalDocuments
deriving Repr

namespace SettingsFault

/-- The fields as messages list them. -/
def fieldList : String :=
  String.intercalate ", " (SettingsField.all.map fun field => "`" ++ field.text ++ "`")

/-- The text of a fault. -/
def message : SettingsFault → String
  | .unfit mismatch => mismatch.message
  | .unknownField name mark =>
    "unknown field `" ++ name ++ "`, expected one of " ++ fieldList ++ mark.suffix
  | .duplicateField field mark => "duplicate field `" ++ field.text ++ "`" ++ mark.suffix
  | .broken fault => fault.message
  | .severalDocuments =>
    "deserializing from YAML containing more than one document is not supported"

end SettingsFault

namespace Settings

/-- How deep collections may be nested in a document of the cache: two of the 128 that are allowed
in all are around it. -/
def cacheDepth : Nat := 126

/-- The documents of the cache. -/
def cacheOf (entries : List (Yaml × Yaml)) : Except Yaml.Mismatch (Entries Json) :=
  (Yaml.entriesJson cacheDepth [.key SettingsField.contextCache.text] .text entries).map
    Entries.ofList

/-- The settings with a field from a YAML value. -/
def withYamlField (settings : Settings) (field : SettingsField) (value : Yaml) :
    Except Yaml.Mismatch Settings :=
  let path : Yaml.Path := [.key field.text]
  match field, value with
  | .rootVariable, .scalar _ text _ => .ok { settings with rootVariable := text }
  | .rootVariable, value => .error (value.mismatch .text path)
  | .separator, .scalar _ text _ => .ok { settings with separator := text }
  | .separator, value => .error (value.mismatch .text path)
  | .remoteContexts, .scalar true text mark =>
    match Yaml.Plain.ofText text with
    | .boolean value => .ok { settings with remoteContexts := value }
    | _ => .error (.kind (.scalar true text mark) .boolean path)
  | .remoteContexts, value => .error (value.mismatch .boolean path)
  | .contextCache, .mapping entries _ =>
    (cacheOf entries).map fun documents => { settings with contextCache := documents }
  | .contextCache, value =>
    if value.isAbsent then .ok { settings with contextCache := [] }
    else .error (value.mismatch .mapping path)

/-- The settings from the entries of a mapping that begins at a place, with the fields that have
been set before. -/
def ofYamlEntries (mark : Yaml.Mark) :
    (seen : List SettingsField) → Settings → List (Yaml × Yaml) → Except SettingsFault Settings
  | _, settings, [] => .ok settings
  | seen, settings, (.scalar _ name keyMark, value) :: entries =>
    match SettingsField.ofText? name with
    | none => .error (.unknownField name keyMark)
    | some field =>
      if field ∈ seen then .error (.duplicateField field mark)
      else do
        let settings ← (settings.withYamlField field value).mapError .unfit
        ofYamlEntries mark (field :: seen) settings entries
  | _, _, (key, _) :: _ => .error (.unfit (key.mismatch .fieldName []))

/-- The settings that a YAML value gives. -/
def ofYaml (value : Yaml) : Except SettingsFault Settings :=
  match value with
  | .mapping entries mark => ofYamlEntries mark [] {} entries
  | value =>
    if value.isAbsent then .ok {} else .error (.unfit (value.mismatch .settings []))

/-- The settings that a YAML text gives, which holds one document only. -/
def ofYamlText (text : String) : Except SettingsFault Settings := do
  let document := Yaml.Document.ofText text
  let settings ← ofYaml document.root
  match document.ending with
  | .nothing => .ok settings
  | .broken fault => .error (.broken fault)
  | .further => .error .severalDocuments

end Settings

end LinkedQuery
