import LinkedQuery.Element.Constant
import LinkedQuery.Element.Dispatch
import LinkedQuery.Element.Node

/-!
# Grammars

A `Grammar` is a reading for every production.  `Grammar.element` turns a JSON value into an
element, from the parts to the whole: the parts of a value are elements before the value is, so
every production finds the readings of the parts ready.  A `Replacement` takes the place of a
production; what it may use of the value is the value itself and the entries of the value.
-/

namespace LinkedQuery

/-- A reading in the place of a production.  It is given the value, and a reading for the entry
value under a key, which reads null where the key is missing. -/
abbrev Replacement := Json → (String → Reading) → Reading

/-- The productions, some of them possibly replaced. -/
structure Grammar extends Setup where
  replacement : Production → Option Replacement := fun _ => none

namespace Grammar

/-- A production of the grammar: its replacement, or else its usual reading. -/
def choose (grammar : Grammar) (production : Production) (value : Json)
    (entry : String → Reading) (usual : Reading) : Reading :=
  match grammar.replacement production with
  | some replacement => replacement value entry
  | none => usual

/-- The reading of an entry that is missing, as of null. -/
def missing (grammar : Grammar) : Reading :=
  let usual : Reading := fun frame => .ok (nullMatch frame.target)
  grammar.choose .entryValue .null (fun _ => usual) usual

/-- The reading of the value under a key. -/
def entry (grammar : Grammar) (parts : Parts Element) (key : String) : Reading :=
  match parts.entries.lookup key with
  | some element => element.read .entryValue
  | none => grammar.missing

/-- The readings of a value whose parts are elements, but for the two productions that go on to
another reading of the same value. -/
def directReadings (grammar : Grammar) (parts : Parts Element) (production : Production) :
    Reading :=
  let setup := grammar.toSetup
  grammar.choose production parts.value (grammar.entry parts) <|
    match production with
    | .nodeObject => NodeObject.read setup parts
    | .nodeObjects => NodeObjects.read parts
    | .topLevelGraph => TopLevelGraph.read setup parts
    | .graphObject => GraphObject.read setup parts
    | .valueObject => ValueObject.read setup parts
    | .listObject => ListObject.read setup parts
    | .setObject => SetObject.read parts
    | .scalar => Scalar.read parts
    | .entryValue => fun _ => .error (parts.unexpected .entryValue)
    | .document => fun _ => .error (parts.unexpected .document)

/-- The readings of a value whose parts are elements. -/
def readings (grammar : Grammar) (parts : Parts Element) (production : Production) : Reading :=
  let choose := grammar.choose production parts.value (grammar.entry parts)
  let direct := grammar.directReadings parts
  match production with
  | .entryValue => choose (EntryValue.read grammar.toSetup parts direct)
  | .document => choose (Document.read grammar.toSetup parts direct)
  | _ => direct production

/-- A value with its parts as an element. -/
def assemble (grammar : Grammar) (parts : Parts Element) : Element :=
  ⟨parts, grammar.readings parts⟩

mutual

/-- A value as an element. -/
def element (grammar : Grammar) : Json → Element
  | .null => grammar.assemble ⟨.null, [], []⟩
  | .boolean value => grammar.assemble ⟨.boolean value, [], []⟩
  | .number value => grammar.assemble ⟨.number value, [], []⟩
  | .string text => grammar.assemble ⟨.string text, [], []⟩
  | .array items => grammar.assemble ⟨.array items, grammar.itemElements items, []⟩
  | .object entries => grammar.assemble ⟨.object entries, [], grammar.entryElements entries⟩
termination_by structural value => value

/-- Items as elements. -/
def itemElements (grammar : Grammar) : List Json → List Element
  | [] => []
  | item :: items => grammar.element item :: grammar.itemElements items
termination_by structural items => items

/-- Entries as elements. -/
def entryElements (grammar : Grammar) : List (String × Json) → List (String × Element)
  | [] => []
  | (key, value) :: entries => (key, grammar.element value) :: grammar.entryElements entries
termination_by structural entries => entries

end

theorem itemElements_eq_map (grammar : Grammar) (items : List Json) :
  grammar.itemElements items = items.map grammar.element
  := by
  induction items with
  | nil => rfl
  | cons item items ih => simp [itemElements, ih]

theorem entryElements_eq_map (grammar : Grammar) (entries : List (String × Json)) :
  grammar.entryElements entries = entries.map fun entry => (entry.1, grammar.element entry.2)
  := by
  induction entries with
  | nil => rfl
  | cons entry entries ih => simp [entryElements, ih]

/-- Reads a value by a production. -/
def read (grammar : Grammar) (production : Production) (value : Json) : Reading :=
  (grammar.element value).read production

end Grammar

end LinkedQuery
