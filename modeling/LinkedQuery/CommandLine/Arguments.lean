/-!
# Arguments

The arguments of the command: an optional document, and options in any order, each at most once.
`Arguments.parse` reads them from left to right; a word that asks for the version or for help ends
the reading, and so does a word that cannot stand where it is.
-/

namespace LinkedQuery

/-- What is printed for a document. -/
inductive Format where
  | sparql
  | algebra
  | json
deriving DecidableEq, Repr

/-- The format with a name. -/
def Format.ofText? (name : String) : Option Format :=
  if name = "sparql" then some .sparql
  else if name = "algebra" then some .algebra
  else if name = "json" then some .json
  else none

/-- The arguments of the command, so far as they are given. -/
structure Arguments where
  /-- The file of the document. -/
  input : Option String := none
  format : Option Format := none
  /-- The file of the settings. -/
  config : Option String := none
  remoteContexts : Bool := false
  root : Option String := none
  verbose : Bool := false
deriving DecidableEq, Repr

/-- What the arguments ask for. -/
inductive Request where
  | run (arguments : Arguments)
  | version
  | help
  /-- Arguments that do not fit together. -/
  | misuse
deriving DecidableEq, Repr

namespace Arguments

/-- An option that a value follows. -/
inductive ValueOption where
  | format
  | config
  | root
deriving DecidableEq, Repr

/-- The arguments with the document named. -/
def withInput? (arguments : Arguments) (name : String) : Option Arguments :=
  if arguments.input.isSome || name.isEmpty then none
  else some { arguments with input := some name }

/-- The arguments with the value of an option. -/
def withValue? (arguments : Arguments) (option : ValueOption) (value : String) :
    Option Arguments :=
  match option with
  | .format =>
    if arguments.format.isSome then none
    else (Format.ofText? value).map fun format => { arguments with format := some format }
  | .config =>
    if arguments.config.isSome || value.isEmpty then none
    else some { arguments with config := some value }
  | .root =>
    if arguments.root.isSome then none else some { arguments with root := some value }

/-- The arguments with remote contexts allowed. -/
def withRemoteContexts? (arguments : Arguments) : Option Arguments :=
  if arguments.remoteContexts then none else some { arguments with remoteContexts := true }

/-- The arguments with a report of the steps. -/
def withVerbose? (arguments : Arguments) : Option Arguments :=
  if arguments.verbose then none else some { arguments with verbose := true }

/-- The option that a value follows, by its name. -/
def valueOption? (name : String) : Option ValueOption :=
  if name = "format" then some .format
  else if name = "config" then some .config
  else if name = "root" then some .root
  else none

/-- Whether a word stands for options rather than for a value; a single dash is a value. -/
def isOption (word : String) : Bool :=
  match word.toList with
  | '-' :: _ :: _ => true
  | _ => false

/-- What a word says. -/
inductive Word where
  /-- The mark behind which no word is an option. -/
  | separator
  /-- A long option by its name, with the text behind an equals sign. -/
  | long (name : String) (value : Option String)
  /-- Options of one letter each. -/
  | short (letters : List Char)
  | plain
deriving DecidableEq, Repr

/-- The kind of a word. -/
def Word.ofText (word : String) : Word :=
  match word.toList with
  | ['-', '-'] => .separator
  | '-' :: '-' :: name =>
    let value := name.dropWhile (· != '=')
    .long (String.ofList (name.takeWhile (· != '='))) (value.tail?.map String.ofList)
  | '-' :: c :: letters => .short (c :: letters)
  | _ => .plain

/-- The arguments with options of one letter, unless a letter asks for something else. -/
def shortOptions : Arguments → List Char → Except Request Arguments
  | arguments, [] => .ok arguments
  | arguments, c :: letters =>
    if c = 'v' then
      match arguments.withVerbose? with
      | some arguments => shortOptions arguments letters
      | none => .error .misuse
    else if c = 'V' then .error .version
    else if c = 'h' then .error .help
    else .error .misuse

/-- The arguments with a long option that no value follows. -/
def longOption (arguments : Arguments) (name : String) : Except Request Arguments :=
  if name = "remote-contexts" then arguments.withRemoteContexts?.elim (.error .misuse) .ok
  else if name = "verbose" then arguments.withVerbose?.elim (.error .misuse) .ok
  else if name = "version" then .error .version
  else if name = "help" then .error .help
  else .error .misuse

/-- The arguments with a change that may not be possible. -/
def orMisuse (change : Option Arguments) : Except Request Arguments :=
  change.elim (.error .misuse) .ok

/-- The arguments with all words, none of which is an option any more. -/
def plainWords : Arguments → List String → Except Request Arguments
  | arguments, [] => .ok arguments
  | arguments, word :: words => do plainWords (← orMisuse (arguments.withInput? word)) words

/-- The arguments with all words.  `awaiting` is an option whose value comes next. -/
def words : Arguments → (awaiting : Option ValueOption) → List String → Except Request Arguments
  | arguments, none, [] => .ok arguments
  | _, some _, [] => .error .misuse
  | arguments, some option, word :: rest =>
    if isOption word then .error .misuse
    else do words (← orMisuse (arguments.withValue? option word)) none rest
  | arguments, none, word :: rest =>
    match Word.ofText word with
    | .separator => plainWords arguments rest
    | .plain => do words (← orMisuse (arguments.withInput? word)) none rest
    | .short letters => do words (← shortOptions arguments letters) none rest
    | .long name value =>
      match valueOption? name, value with
      | some option, none => words arguments (some option) rest
      | some option, some value => do
        words (← orMisuse (arguments.withValue? option value)) none rest
      | none, none => do words (← longOption arguments name) none rest
      | none, some _ => .error .misuse

/-- What the words of a command line ask for.  `config` is the file of settings where no word
names one. -/
def parse (config : Option String) (line : List String) : Request :=
  match words {} none line with
  | .error request => request
  | .ok arguments =>
    match arguments.config, config with
    | none, some name =>
      if name.isEmpty then .misuse else .run { arguments with config := some name }
    | _, _ => .run arguments

end Arguments

end LinkedQuery
