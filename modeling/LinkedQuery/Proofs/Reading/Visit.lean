import LinkedQuery.Compilation

/-!
# Visits

A `Visit` is the reading of a value for some purpose in a frame, and `Setup.run` carries it out
with the usual productions.  The purposes are the productions themselves and the readings of
members that they share; each of them is given here by an equation in which the parts of the value
are visited in turn, so that no element is left.
-/

namespace LinkedQuery

/-- The grammar of the usual productions. -/
def Setup.grammar (setup : Setup) : Grammar :=
  { setup with }

/-- What a value is read as. -/
inductive Task where
  | production (production : Production)
  /-- The items of an array, each read by a production. -/
  | items (production : Production)
  | listMembers
  | graphMembers
  /-- The members of a graph, under a term that is declared to hold graphs. -/
  | graphValue
deriving DecidableEq, Repr

/-- The reading of a value in a frame. -/
structure Visit where
  task : Task
  value : Json
  frame : Frame

/-- The match of a graph whose members are under a term that is declared to hold graphs. -/
def GraphObject.ofMembers (target : Variable) (members : Match) : Match :=
  { members with term := .var target, pattern := .graph (.var target) members.pattern }

/-- The match that a visit leads to. -/
def Setup.run (setup : Setup) (visit : Visit) : Except QueryFault Match :=
  let element := setup.grammar.element visit.value
  let frame := visit.frame
  match visit.task with
  | .production production => element.read production frame
  | .items production =>
    match visit.value with
    | .array _ => readItems element.parts.items production frame
    | other => .error (.unexpected .nodeObjects other.kind)
  | .listMembers => ListObject.readMembers setup element frame.target frame.context
  | .graphMembers => GraphObject.readMembers setup element frame.target frame.context
  | .graphValue => do
    let members ← GraphObject.readMembers setup element frame.target frame.context
    .ok (GraphObject.ofMembers frame.target members)

/-! ### Results -/

/-- A step after which a computation goes on succeeds exactly when the step and the rest do. -/
theorem bind_eq_ok {ε α β : Type} {first : Except ε α} {rest : α → Except ε β} {result : β} :
  (first >>= rest) = .ok result ↔ ∃ value, first = .ok value ∧ rest value = .ok result
  := by
  rcases first with fault | value
  · simp [bind, Except.bind]
  · simp [bind, Except.bind]

/-- A step after which a computation goes on fails exactly when the step or the rest does. -/
theorem bind_eq_error {ε α β : Type} {first : Except ε α} {rest : α → Except ε β} {fault : ε} :
  (first >>= rest) = .error fault
    ↔ first = .error fault ∨ ∃ value, first = .ok value ∧ rest value = .error fault
  := by
  cases first with
  | error fault => simp [bind, Except.bind]
  | ok value => simp [bind, Except.bind]

@[simp]
theorem ok_bind {ε α β : Type} (value : α) (rest : α → Except ε β) :
  (Except.ok value >>= rest) = rest value
  := rfl

/-- A computation of which some outcome is known has a result with that outcome. -/
theorem exists_of_outcome {ε α β : Type} (result : Except ε α) (outcome : α → β) {value : β}
    (h : result.toOption.map outcome = some value) :
  ∃ found, result = .ok found ∧ outcome found = value
  := by
  cases result with
  | error fault => cases h
  | ok found => exact ⟨found, rfl, Option.some.inj h⟩

/-! ### Entering contexts -/

theorem Setup.enter_none (setup : Setup) (context : Context) :
  setup.enter context none = .ok context
  := rfl

/-- Contexts are entered as their loader says; only faults are told otherwise. -/
theorem Setup.enter_eq_ok {setup : Setup} {context inner : Context} {declared : Option Json} :
  setup.enter context declared = .ok inner ↔ context.enter setup.loader declared = .ok inner
  := by
  rw [Setup.enter]
  cases context.enter setup.loader declared with
  | error fault =>
      constructor
      · intro h
        cases h
      · intro h
        cases h
  | ok entered =>
      constructor
      · intro h
        cases h
        rfl
      · intro h
        cases h
        rfl

/-! ### Elements of the grammar -/

namespace Setup

variable (setup : Setup)

@[simp]
theorem value_element (value : Json) :
  (setup.grammar.element value).value = value
  := by
  cases value
  · rfl
  · rfl
  · rfl
  · rfl
  · rfl
  · rfl

@[simp]
theorem value_parts (value : Json) :
  (setup.grammar.element value).parts.value = value
  := value_element setup value

@[simp]
theorem entries_object (entries : List (String × Json)) :
  (setup.grammar.element (.object entries)).parts.entries
    = entries.map fun entry => (entry.1, setup.grammar.element entry.2)
  := Grammar.entryElements_eq_map _ entries

/-- An element reads its value by the usual productions. -/
theorem read_element (value : Json) (production : Production) :
  (setup.grammar.element value).read production
    = setup.grammar.readings (setup.grammar.element value).parts production
  := by
  cases value
  · rfl
  · rfl
  · rfl
  · rfl
  · rfl
  · rfl

/-- Without replacements a production is the usual one. -/
@[simp]
theorem choose_grammar (production : Production) (value : Json) (entry : String → Reading)
    (usual : Reading) :
  setup.grammar.choose production value entry usual = usual
  := rfl

/-- The productions that do not go on to another reading of the value read its parts. -/
theorem read_direct (value : Json) (production : Production) (frame : Frame)
    (h : production ≠ .entryValue) (h' : production ≠ .document) :
  (setup.grammar.element value).read production frame
    = setup.grammar.directReadings (setup.grammar.element value).parts production frame
  := by
  rw [read_element]
  cases production
  case entryValue => exact absurd rfl h
  case document => exact absurd rfl h'
  all_goals rfl

end Setup

/-- The only placeholder is the string for it. -/
theorem Json.eq_placeholder {value : Json} (h : value.isPlaceholder = true) :
  value = .string placeholder
  := by
  cases value with
  | string text =>
      simp only [Json.isPlaceholder, beq_iff_eq] at h
      rw [h]
  | _ => cases h

/-- The name that a value gives is the placeholder when the value is. -/
theorem eq_placeholder_of_identity {context : Context} {value : Json}
    (h : context.identity value = .placeholder) :
  value = .string placeholder
  := by
  rw [Context.identity] at h
  split at h
  · apply Json.eq_placeholder ‹_›
  · split at h
    · split at h
      · cases h
      · cases h
    · cases h

/-- A keyword stands for itself everywhere. -/
theorem Context.meaning_text (context : Context) (keyword : Keyword) :
  context.meaning keyword.text = .keyword keyword
  := by
  cases keyword with
  | _ => rfl

/-- The only entry of an object with a keyword for its key is for that keyword. -/
theorem Context.entryFor?_text {α : Type} (context : Context) (keyword keyword' : Keyword)
    (value : α) :
  context.entryFor? [(keyword.text, value)] keyword'
    = if keyword = keyword' then some (keyword.text, value) else none
  := by
  split
  · simp_all [entryFor?, context.meaning_text]
  · simp_all [entryFor?, context.meaning_text]

/-- The first entry for a keyword, when every value has been replaced. -/
theorem Context.entryFor?_map {α β : Type} (context : Context) (entries : List (String × α))
    (f : α → β) (keyword : Keyword) :
  context.entryFor? (entries.map fun entry => (entry.1, f entry.2)) keyword
    = (context.entryFor? entries keyword).map fun entry => (entry.1, f entry.2)
  := by
  simp only [Context.entryFor?, List.find?_map]
  rfl

/-- The local context of an object is its entry for it. -/
theorem Parts.localContext?_object (setup : Setup) (entries : List (String × Json)) :
  (setup.grammar.element (.object entries)).parts.localContext?
    = entries.lookup Keyword.context.text
  := rfl

end LinkedQuery
