import LinkedQuery.Compilation

/-!
# Settings

Settings say how queries name their variables, and where the documents are found that contexts
refer to.  `Settings.validate` refuses settings that would not be used as they are, and
`Settings.grammar` makes the grammar they ask for.  `Settings.ofJson?` reads settings from a JSON
object.
-/

namespace LinkedQuery

/-- How documents are made into queries. -/
structure Settings where
  rootVariable : String := "root"
  separator : String := "·"
  remoteContexts : Bool := false
  /-- Documents served by their IRIs. -/
  contextCache : Entries Json := []
deriving Repr

/-- The fields of settings. -/
inductive SettingsField where
  | rootVariable
  | separator
  | remoteContexts
  | contextCache
deriving DecidableEq, Repr

/-- The field as settings name it. -/
def SettingsField.text : SettingsField → String
  | .rootVariable => "root_variable"
  | .separator => "separator"
  | .remoteContexts => "remote_contexts"
  | .contextCache => "context_cache"

/-- The fields in their order. -/
def SettingsField.all : List SettingsField :=
  [.rootVariable, .separator, .remoteContexts, .contextCache]

/-- The field with a name. -/
def SettingsField.ofText? (name : String) : Option SettingsField :=
  all.find? fun field => field.text == name

/-- A value that a field cannot have. -/
inductive InvalidSetting where
  | rootVariable (name : String)
  | separator (text : String)
  | contextCache (iri : String)
deriving DecidableEq, Repr

namespace InvalidSetting

/-- The field at fault. -/
def field : InvalidSetting → SettingsField
  | .rootVariable _ => .rootVariable
  | .separator _ => .separator
  | .contextCache _ => .contextCache

/-- What is wrong with the value. -/
def reason : InvalidSetting → String
  | .rootVariable name =>
    "'" ++ name ++ "' must be a non-empty name of letters, digits and underscores"
  | .separator text =>
    "'" ++ text ++ "' must consist of '·' characters so variable names stay distinct"
  | .contextCache iri => "'" ++ iri ++ "' is not an absolute IRI"

/-- The text of the fault. -/
def message (invalid : InvalidSetting) : String :=
  "Invalid " ++ invalid.field.text ++ ": " ++ invalid.reason

end InvalidSetting

namespace Settings

/-- Settings that are used as they are. -/
def validate (settings : Settings) : Except InvalidSetting Unit :=
  if !isRootName settings.rootVariable then .error (.rootVariable settings.rootVariable)
  else if !isSeparator settings.separator then .error (.separator settings.separator)
  else
    match settings.contextCache.names.find? fun iri => !Iri.hasScheme iri with
    | some iri => .error (.contextCache iri)
    | none => .ok ()

/-- The loader that the settings ask for. -/
def loader (settings : Settings) : Loader :=
  if settings.remoteContexts then .fetching settings.contextCache
  else if settings.contextCache.isEmpty then .disabled
  else .ofDocuments settings.contextCache

/-- The grammar that the settings ask for. -/
def grammar (settings : Settings) : Grammar where
  loader := settings.loader
  naming := .ofText settings.rootVariable settings.separator

/-- The settings as a JSON value. -/
def json (settings : Settings) : Json :=
  .object
    [(SettingsField.rootVariable.text, .string settings.rootVariable),
      (SettingsField.separator.text, .string settings.separator),
      (SettingsField.remoteContexts.text, .boolean settings.remoteContexts),
      (SettingsField.contextCache.text, .object settings.contextCache)]

/-- The settings with the value of a field, if it is of the field's kind. -/
def withField? (settings : Settings) : SettingsField → Json → Option Settings
  | .rootVariable, .string text => some { settings with rootVariable := text }
  | .separator, .string text => some { settings with separator := text }
  | .remoteContexts, .boolean value => some { settings with remoteContexts := value }
  | .contextCache, .object documents => some { settings with contextCache := documents }
  | _, _ => none

/-- The settings that a JSON object gives; missing fields have their defaults. -/
def ofJson? : Json → Option Settings
  | .object entries =>
    entries.foldlM (fun settings entry => do
      settings.withField? (← SettingsField.ofText? entry.1) entry.2) {}
  | _ => none

end Settings

end LinkedQuery
