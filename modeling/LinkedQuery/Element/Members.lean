import LinkedQuery.Element.Identity
import LinkedQuery.Element.Items

/-!
# Lists and graphs

The members of a list or a graph are bound to a variable of their own, under the variable of the
whole.  A list binds its variable to its head, from which the graph reaches every member, so the
first member stands for all.  A graph object holds node objects under `@graph`, and its `@id` names
the graph.  `ListObject.readMembers` and `GraphObject.readMembers` read members alone, as they stand
under a term that is declared a list or a graph; the pattern of the latter is not yet one within
the graph.
-/

namespace LinkedQuery

/-- The segment of variables for the members of lists and graphs. -/
def memberSegment : String := "item"

/-! ### Lists -/

namespace ListObject

/-- The match of a list whose members are matched like one of them. -/
def membersMatch (target member : Variable) (several : Bool) (item : Match) : Match where
  term := .var target
  template := if several then .array member item.template else item.template
  pattern := .joinAll [.members (.var target) item.term, item.pattern]
  projections := if several then itemProjections member item else item.projections
  warnings := if several then nestAll (.index 0) item.warnings else item.warnings

/-- Reads the members of a list that binds a variable; a single value is the only member. -/
def readMembers (setup : Setup) (members : Element) (target : Variable) (context : Context) :
    Except QueryFault Match := do
  let member := setup.naming.child target memberSegment
  let frame : Frame := ⟨member, context, none⟩
  match members.value, members.parts.items with
  | .array _, [] => .ok { term := .iri Vocabulary.rdfNil, template := .value (.array []) }
  | .array _, first :: _ => .ok (membersMatch target member true (← first.read .entryValue frame))
  | _, _ => .ok (membersMatch target member false (← members.read .entryValue frame))

/-- Reads a list object. -/
def read (setup : Setup) (parts : Parts Element) : Reading := fun frame => do
  let context ← setup.enter frame.context parts.localContext?
  match context.entryFor? parts.entries .list with
  | none => .error (parts.unexpected .listObject)
  | some (key, members) =>
    let list ← readMembers setup members frame.target context
    .ok { list with
      template := parts.templateWith key list.template
      warnings := nestAll (.key key) list.warnings }

end ListObject

/-! ### Graphs -/

namespace GraphObject

/-- Reads the members of a graph that binds a variable. -/
def readMembers (setup : Setup) (members : Element) (target : Variable) (context : Context) :
    Except QueryFault Match :=
  let member := setup.naming.child target memberSegment
  let frame : Frame := ⟨member, context, none⟩
  let refused : Match :=
    { term := .var member
      template := .value members.value
      warnings := [⟨.notNodeObjects, []⟩] }
  match members.value with
  | .array items =>
    if items.all Json.isObject then readItems members.parts.items .nodeObject frame else .ok refused
  | .object _ => members.read .nodeObject frame
  | _ => .ok refused

/-- What an entry of a graph object adds to the match of the members. -/
structure Share where
  template : Template
  warnings : List Warning := []

/-- The share of an entry that is neither the members nor the name of the graph. -/
def otherShare (context : Context) (key : String) (value : Json) : Share :=
  match context.meaning key with
  | .keyword .context => { template := .value value }
  | .keyword .id =>
    { template := .value value, warnings := [Warning.atKey .duplicateId key] }
  | _ =>
    { template := .value value, warnings := [Warning.atKey (.unsupportedEntry key) key] }

/-- The share of the entry that names the graph. -/
def idShare (target : Variable) (identity : Option Identity) (key : String) (value : Json) :
    Share :=
  match identity with
  | some .placeholder => { template := .name target }
  | some (.unusable notice) =>
    { template := .value value, warnings := [Warning.atKey notice key] }
  | _ => { template := .value value }

/-- Reads a graph object. -/
def read (setup : Setup) (parts : Parts Element) : Reading := fun frame => do
  let context ← setup.enter frame.context parts.localContext?
  match context.entryFor? parts.entries .graph with
  | none => .error (parts.unexpected .graphObject)
  | some (graphKey, graph) =>
    let idEntry := context.entryFor? parts.entries .id
    let identity := idEntry.map fun entry => context.identity entry.2.value
    let name := Identity.name identity frame.target
    let members ← readMembers setup graph frame.target context
    let share (key : String) (value : Json) : Share :=
      if key = graphKey then
        { template := members.template, warnings := nestAll (.key key) members.warnings }
      else if idEntry.any (·.1 == key) then idShare frame.target identity key value
      else otherShare context key value
    let shares := parts.entries.map fun entry => (entry.1, share entry.1 entry.2.value)
    .ok { term := name.term
          template := .object (shares.map fun entry => (entry.1, entry.2.template))
          pattern := .graph name members.pattern
          projections :=
            (if identity = some .placeholder then [frame.target] else []) ++ members.projections
          warnings := shares.flatMap fun entry => entry.2.warnings }

end GraphObject

end LinkedQuery
