import LinkedQuery.CommandLine.Arguments
import LinkedQuery.CommandLine.FileTree
import LinkedQuery.Json.Reader
import LinkedQuery.Settings.Yaml
import LinkedQuery.Text.Table

/-!
# Running the command

`CommandLine.run` is the command as a function: given its surroundings, that is, the files, the
standard input and the variable that names the settings, it says what is written and with which
code the command ends.
-/

namespace LinkedQuery

/-- What a command can read. -/
structure Surroundings where
  file : String → Except FileFault String
  standardInput : Except FileFault String
  /-- The file of settings where no argument names one. -/
  config : Option String

/-- The surroundings of a command that runs in a directory of its own, with some files in it. -/
def Surroundings.ofFiles (files : List (String × String)) (standardInput : String)
    (config : Option String) : Surroundings :=
  let here := ["tmp", "work"]
  let tree := files.foldl (fun tree file => tree.addFile here file.1 file.2)
    (FileTree.around here standardInput)
  { file := tree.read here, standardInput := .ok standardInput, config := config }

/-- What a command writes, and the code with which it ends. -/
structure Outcome where
  code : Nat
  output : String := ""
  errors : String := ""
deriving DecidableEq, Repr

/-- Why a command fails. -/
inductive CommandFault where
  | configFile (fault : FileFault)
  | settings (fault : SettingsFault)
  | invalid (setting : InvalidSetting)
  | inputFile (fault : FileFault)
  | json (misread : Json.Misread)
  | query (fault : QueryFault)

/-- The text of a fault. -/
def CommandFault.message : CommandFault → String
  | .configFile fault => "IO error: " ++ fault.message
  | .settings fault => "YAML error: " ++ fault.message
  | .invalid setting => setting.message
  | .inputFile fault => fault.message
  | .json misread => misread.message
  | .query fault => fault.message

namespace CommandLine

/-- The settings of a file, which must be valid by themselves. -/
def fileSettings (surroundings : Surroundings) (name : String) : Except CommandFault Settings := do
  let text ← (surroundings.file name).mapError .configFile
  let settings ← (Settings.ofYamlText text).mapError .settings
  settings.validate.mapError .invalid
  .ok settings

/-- The settings that the arguments ask for; an argument goes before the file. -/
def settings (surroundings : Surroundings) (arguments : Arguments) :
    Except CommandFault Settings := do
  let settings ←
    match arguments.config with
    | some name => fileSettings surroundings name
    | none => .ok {}
  let settings := { settings with
    remoteContexts := settings.remoteContexts || arguments.remoteContexts
    rootVariable := arguments.root.getD settings.rootVariable }
  settings.validate.mapError .invalid
  .ok settings

/-- The text of the document; a dash stands for the standard input, as no name does. -/
def source (surroundings : Surroundings) (arguments : Arguments) : Except CommandFault String :=
  let text :=
    match arguments.input with
    | some name => if name = "-" then surroundings.standardInput else surroundings.file name
    | none => surroundings.standardInput
  text.mapError .inputFile

/-- A query in a format. -/
def format : Format → Query → String
  | .sparql, query => query.text
  | .algebra, query => query.pattern.algebraText
  | .json, query => query.json.prettyText

/-- The warnings as a table. -/
def tableOf (warnings : List Warning) : Table where
  header := ("Path", "Warning")
  rows := warnings.map fun warning => (warning.pathText, warning.notice.text)

/-- A line of text. -/
def line (text : String) : String :=
  text ++ "\n"

/-- The query that the arguments ask for. -/
def query (surroundings : Surroundings) (arguments : Arguments) :
    Except CommandFault Query := do
  let settings ← settings surroundings arguments
  let text ← source surroundings arguments
  let document ← (Json.parse text).mapError .json
  (settings.grammar.query document).mapError .query

/-- What a verbose command tells of a query. -/
def summary (query : Query) : String :=
  line ("Query with " ++ query.projections.length.repr ++ " projections and "
    ++ query.warnings.length.repr ++ " warnings")

/-- What the command writes for a query. -/
def report (arguments : Arguments) (query : Query) : Outcome where
  code := 0
  output := line (format (arguments.format.getD .sparql) query)
  errors :=
    (if arguments.verbose then summary query else "")
      ++ (if query.warnings.isEmpty then ""
        else line (tableOf query.warnings).text)

/-- How the command is used. -/
def usage : String :=
  "Usage: xql [OPTIONS] [INPUT]"

/-- The options of the command. -/
def help : String :=
  String.intercalate "\n"
    ["Translate JSON-LD query documents into SPARQL",
      "",
      usage,
      "",
      "Arguments:",
      "  [INPUT]  Query document; stdin when omitted or `-`",
      "",
      "Options:",
      "      --format <FORMAT>  Output format [default: sparql] "
        ++ "[possible values: sparql, algebra, json]",
      "      --config <CONFIG>  YAML translator configuration [env: XQL_CONFIG=]",
      "      --remote-contexts  Allow fetching remote @context documents",
      "      --root <ROOT>      Name of the root variable",
      "  -v, --verbose          Log translation steps to stderr",
      "  -h, --help             Print help",
      "  -V, --version          Print version"]

/-- The version of the command. -/
def version : String :=
  "0.1.0"

/-- Runs the command on the words of its command line. -/
def run (surroundings : Surroundings) (words : List String) : Outcome :=
  match Arguments.parse surroundings.config words with
  | .version => { code := 0, output := line ("xql " ++ version) }
  | .help => { code := 0, output := line help }
  | .misuse => { code := 2, errors := line usage }
  | .run arguments =>
    match query surroundings arguments with
    | .ok query => report arguments query
    | .error fault => { code := 1, errors := line ("Error: " ++ fault.message) }

end CommandLine

end LinkedQuery
