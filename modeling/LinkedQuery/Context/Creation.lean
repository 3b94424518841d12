import LinkedQuery.Context.Basic
import LinkedQuery.Context.Fault

/-!
# Creating terms

`Context.declare` adds the term definitions of a context object to a context.  A definition may
refer to other entries of the object, by their names or by compact IRIs that begin with them, and
those are defined first.  `Creation.define` defines one entry; it is given the entries that are not
open yet, and opening one takes it off that list, so the references end.  A reference to an entry
that is open is a cycle.
-/

namespace LinkedQuery

/-- A context under construction, and the entries that have been defined. -/
structure Creation where
  context : Context
  done : List String

/-- A step that defines an entry. -/
abbrev Definer := String → Creation → Except ContextFault Creation

/-- Keys of a context object that declare no term. -/
def Keyword.isContextKey : Keyword → Bool
  | .base | .vocab | .version | .language | .direction | .protecting | .propagating
  | .importing => true
  | _ => false

/-- The container with a name. -/
def Container.ofText? (name : String) : Option Container :=
  match Keyword.ofText? name with
  | some .list => some .list
  | some .set => some .set
  | some .graph => some .graph
  | some .language => some (.map .language)
  | some .index => some (.map .index)
  | some .id => some (.map .id)
  | some .type => some (.map .type)
  | _ => none

namespace Creation

/-- Defines an entry first if a name refers to one. -/
def require (declared : Entries Json) (define : Definer) (name : String) (state : Creation) :
    Except ContextFault Creation :=
  if name ∈ declared.names then define name state else .ok state

/-- A name of the vocabulary. -/
def inVocab (term name : String) (state : Creation) : Except ContextFault String :=
  match state.context.vocab with
  | some vocab => .ok (vocab ++ name)
  | none => .error (.invalidIriMapping term)

/-- The IRI or the keyword that a term is mapped to by a value. -/
def resolve (declared : Entries Json) (define : Definer) (term value : String)
    (state : Creation) : Except ContextFault (String × Creation) :=
  if Keyword.isKeyword value then .ok (value, state)
  else
    match Iri.compact? value with
    | some (lead, suffix) => do
      let state ← if lead = term then .ok state else require declared define lead state
      .ok ((state.context.termIri? lead).elim value (· ++ suffix), state)
    | none =>
      if Iri.hasScheme value then .ok (value, state)
      else do
        let state ← require declared define value state
        match state.context.termIri? value with
        | some iri => .ok (iri, state)
        | none => .ok (← inVocab term value state, state)

/-- The IRI of a term whose definition gives none. -/
def resolveItself (declared : Entries Json) (define : Definer) (term : String)
    (state : Creation) : Except ContextFault (String × Creation) :=
  if (Iri.compact? term).isSome || Iri.hasScheme term then
    resolve declared define term term state
  else do .ok (← inVocab term term state, state)

/-- The mapping of a term defined by an object. -/
def mapping (declared : Entries Json) (define : Definer) (term : String)
    (object : Entries Json) (state : Creation) :
    Except ContextFault (Definition × Creation) :=
  match object.lookup Keyword.reverse.text with
  | some (.string value) => do
    let (iri, state) ← resolve declared define term value state
    .ok ({ iri := some iri, reverse := true }, state)
  | some _ => .error (.invalidIriMapping term)
  | none =>
    match object.lookup Keyword.id.text with
    | some .null => .ok ({}, state)
    | some (.string value) => do
      let (iri, state) ← resolve declared define term value state
      .ok ({ iri := some iri }, state)
    | some _ => .error (.invalidIriMapping term)
    | none => do
      let (iri, state) ← resolveItself declared define term state
      .ok ({ iri := some iri }, state)

/-- A container by its name. -/
def container (name : String) : Except ContextFault Container :=
  match Container.ofText? name with
  | some container => .ok container
  | none => .error (.invalidContainer name)

/-- The containers of a term. -/
def containers : Option Json → Except ContextFault (List Container)
  | none => .ok []
  | some (.string name) => do .ok [← container name]
  | some (.array items) =>
    items.mapM fun
      | .string name => container name
      | item => .error (.invalidContainer item.text)
  | some other => .error (.invalidContainer other.text)

/-- The coercion of a term's values. -/
def coercion (declared : Entries Json) (define : Definer) (term : String) (state : Creation) :
    Option Json → Except ContextFault (Option Coercion × Creation)
  | none => .ok (none, state)
  | some .null => .ok (none, state)
  | some (.string name) =>
    match Keyword.ofText? name with
    | some .id => .ok (some .id, state)
    | some .vocab => .ok (some .vocab, state)
    | some .json => .ok (some .json, state)
    | _ => do
      let (iri, state) ← resolve declared define term name state
      .ok (some (.datatype iri), state)
  | some _ => .error (.invalidTermDefinition term)

/-- The definition that an entry gives a term. -/
def definition (declared : Entries Json) (define : Definer) (term : String) (state : Creation) :
    Except ContextFault (Definition × Creation) :=
  match declared.lookup term with
  | some .null => .ok ({}, state)
  | some (.string value) => do
    let (iri, state) ← resolve declared define term value state
    .ok ({ iri := some iri }, state)
  | some (.object object) => do
    let (mapped, state) ← mapping declared define term object state
    let containers ← containers (object.lookup Keyword.container.text)
    let (coercion, state) ← coercion declared define term state (object.lookup Keyword.type.text)
    .ok ({ mapped with
      containers := containers
      coercion := coercion
      valueContext := object.lookup Keyword.context.text }, state)
  | _ => .error (.invalidTermDefinition term)

/-- Records the definition of an entry. -/
def record (term : String) (definition : Definition) (state : Creation) : Creation where
  context := { state.context with terms := state.context.terms.insert term definition }
  done := term :: state.done

/-- Defines an entry, unless that is done; `waiting` are the entries that are not open. -/
def define (declared : Entries Json) (waiting : List String) (term : String) (state : Creation) :
    Except ContextFault Creation :=
  if Keyword.isKeyword term then .error (.keywordRedefinition term)
  else if term ∈ state.done then .ok state
  else if _opens : term ∈ waiting then
    match definition declared (define declared (waiting.erase term)) term state with
    | .error fault => .error fault
    | .ok (definition, state) => .ok (state.record term definition)
  else .error (.cyclicIriMapping term)
termination_by waiting.length
decreasing_by
  rw [List.length_erase_of_mem _opens]
  have := List.length_pos_of_mem _opens
  omega

end Creation

/-- The context with the terms that a context object declares, in the order of the object. -/
def Context.declare (context : Context) (declared : Entries Json) :
    Except ContextFault Context := do
  let terms := declared.names.filter fun name => !(Keyword.ofText? name).any Keyword.isContextKey
  let state ← terms.foldlM (fun state term => Creation.define declared declared.names term state)
    (⟨context, []⟩ : Creation)
  .ok state.context

end LinkedQuery
