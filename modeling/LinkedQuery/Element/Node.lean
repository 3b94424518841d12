import LinkedQuery.Element.Members
import LinkedQuery.Element.Shape
import LinkedQuery.Variable.Siblings

/-!
# Node objects

A node object describes a resource: each entry with a property makes a triple between the node
and the entry's value.  The keys first get their `Role`s, in which the variables for the values
are chosen; then each entry makes its `Share` by itself, and the shares are put together.  Shares
whose values may be missing or several are optional, so they never take solutions away.
-/

namespace LinkedQuery.NodeObject

/-- What an entry of a node object is for. -/
inductive Role where
  | context
  /-- The name of the node. -/
  | id
  | duplicateId
  /-- The classes of the node, found through a variable. -/
  | type (child : Variable)
  | unsupported (keyword : Keyword)
  | unmapped
  /-- A property with a variable for its value; reversed, it leads from the value to the node. -/
  | property (iri : String) (reverse : Bool) (child : Variable)
deriving DecidableEq, Repr

/-- The roles of keys, in their order.  `named` tells that an earlier key names the node. -/
def roles (naming : Naming) (context : Context) (target : Variable) :
    (named : Bool) → Siblings → List String → List Role
  | _, _, [] => []
  | named, siblings, key :: keys =>
    let property (iri : String) (reverse : Bool) : List Role :=
      let (segment, siblings) := siblings.enroll (Iri.shortName iri)
      .property iri reverse (naming.child target segment)
        :: roles naming context target named siblings keys
    match context.meaning key with
    | .keyword .context => .context :: roles naming context target named siblings keys
    | .keyword .id =>
      (if named then .duplicateId else .id) :: roles naming context target true siblings keys
    | .keyword .type =>
      let (segment, siblings) := siblings.enroll "type"
      .type (naming.child target segment) :: roles naming context target named siblings keys
    | .keyword keyword => .unsupported keyword :: roles naming context target named siblings keys
    | .unmapped => .unmapped :: roles naming context target named siblings keys
    | .property iri => property iri false
    | .reverse iri => property iri true

/-- What the entries of a node object have in common. -/
structure Scope where
  target : Variable
  context : Context
  identity : Option Identity

/-- The node as a term. -/
def Scope.subject (scope : Scope) : Term :=
  (Identity.name scope.identity scope.target).term

/-- What an entry adds to the match of its node. -/
structure Share where
  template : Template
  required : List Pattern := []
  optional : List Pattern := []
  projections : List Variable := []
  warnings : List Warning := []

/-- An entry that stays as it is. -/
def Share.keep (value : Json) : Share :=
  { template := .value value }

/-- An entry that stays as it is, with a warning. -/
def Share.warn (key : String) (value : Json) (notice : Notice) : Share :=
  { template := .value value, warnings := [Warning.atKey notice key] }

/-- The share of the entry that names the node. -/
def idShare (scope : Scope) (key : String) (value : Json) : Share :=
  match scope.identity with
  | some .placeholder => { template := .name scope.target, projections := [scope.target] }
  | some (.unusable notice) => .warn key value notice
  | _ => .keep value

/-- The pattern that a node belongs to a class. -/
def classTriple (subject : Term) (class' : Term) : Triple :=
  ⟨subject, .iri Vocabulary.rdfType, class'⟩

/-- The class that a value names; the placeholder is none. -/
def classOf? (context : Context) (value : Json) : Option String :=
  if value.isPlaceholder then none else value.string?.bind (context.validIri? · true)

/-- The share of an entry for the classes of the node. -/
def typeShare (scope : Scope) (child : Variable) (key : String) (value : Json) : Share :=
  let found : Pattern := .basic [classTriple scope.subject (.var child)]
  let given (classes : List String) : Share :=
    { template := .value value
      required := [.basic (classes.map fun iri => classTriple scope.subject (.iri iri))] }
  match value with
  | .string text =>
    if text = placeholder then
      { template := .name child, required := [found], projections := [child] }
    else
      match classOf? scope.context value with
      | some iri => given [iri]
      | none => .warn key value .unusableType
  | .array items =>
    if items.length = 1 && items.all Json.isPlaceholder then
      { template := .array child (.name child), optional := [found], projections := [child] }
    else
      match items.mapM (classOf? scope.context) with
      | some classes => given classes
      | none => .warn key value .unusableType
  | _ => .warn key value .unusableType

/-- Whether the values of a term may be missing or several; a list is one value. -/
def isOptional (definition : Definition) (shape : Shape) : Bool :=
  !definition.has .list && (definition.has .set || definition.has .graph || shape == .array)

/-- Reads the value of a property under the containers of its term.  A value that shows its
container itself is read as it stands. -/
def readValue (setup : Setup) (definition : Definition) (child : Variable) (context : Context)
    (value : Element) : Except QueryFault Match :=
  let shape := context.shape value.value
  if definition.has .graph && shape != .graphObject && shape != .null then do
    let members ← GraphObject.readMembers setup value child context
    .ok { members with term := .var child, pattern := .graph (.var child) members.pattern }
  else if definition.has .list && shape != .listObject && shape != .null then
    ListObject.readMembers setup value child context
  else value.read .entryValue ⟨child, context, definition.coercion⟩

/-- The triple between a node and a value. -/
def propertyTriple (subject : Term) (iri : String) (reverse : Bool) (value : Term) : Triple :=
  if reverse then ⟨value, .iri iri, subject⟩ else ⟨subject, .iri iri, value⟩

/-- The share of an entry with a property. -/
def propertyShare (setup : Setup) (scope : Scope) (iri : String) (reverse : Bool)
    (child : Variable) (key : String) (value : Element) : Except QueryFault Share :=
  let definition := (scope.context.definition? key).getD {}
  match definition.mapKind? with
  | some kind => .ok (.warn key value.value (.unsupportedMap kind))
  | none =>
    if Iri.isValid iri then do
      let context ← setup.enter scope.context definition.valueContext
      let shape := context.shape value.value
      let item ← readValue setup definition child context value
      let triple := propertyTriple scope.subject iri reverse item.term
      let fragment := Pattern.joinAll [.basic [triple], item.pattern]
      let optional := isOptional definition shape
      .ok { template := item.template
            required := if shape = .null || optional then [] else [fragment]
            optional := if shape = .null || !optional then [] else [fragment]
            projections := item.projections
            warnings := nestAll (.key key) item.warnings }
    else .ok (.warn key value.value .invalidPredicate)

/-- The share of an entry with a role. -/
def share (setup : Setup) (scope : Scope) (role : Role) (key : String) (value : Element) :
    Except QueryFault Share :=
  match role with
  | .context => .ok (.keep value.value)
  | .id => .ok (idShare scope key value.value)
  | .duplicateId => .ok (.warn key value.value .duplicateId)
  | .type child => .ok (typeShare scope child key value.value)
  | .unsupported keyword => .ok (.warn key value.value (.unsupportedEntry keyword.text))
  | .unmapped => .ok (.warn key value.value .unmappedKey)
  | .property iri reverse child => propertyShare setup scope iri reverse child key value

/-- The shares of entries with their roles, in order. -/
def shares (setup : Setup) (scope : Scope) :
    List Role → List (String × Element) → Except QueryFault (List (String × Share))
  | role :: roles, (key, value) :: entries => do
    let first ← share setup scope role key value
    let others ← shares setup scope roles entries
    .ok ((key, first) :: others)
  | _, _ => .ok []

/-- The match of a node from the shares of its entries: the required ones first, then the optional
ones, each in the order of the object. -/
def assemble (scope : Scope) (shares : List (String × Share)) : Match where
  term := scope.subject
  template := .object (shares.map fun entry => (entry.1, entry.2.template))
  pattern :=
    (shares.flatMap fun entry => entry.2.optional).foldl Pattern.leftJoin
      (.joinAll (shares.flatMap fun entry => entry.2.required))
  projections := shares.flatMap fun entry => entry.2.projections
  warnings := shares.flatMap fun entry => entry.2.warnings

/-- Reads a node object. -/
def read (setup : Setup) (parts : Parts Element) : Reading := fun frame =>
  match parts.value with
  | .object _ => do
    let context ← setup.enter frame.context parts.localContext?
    let identity := (context.entryFor? parts.entries .id).map fun entry =>
      context.identity entry.2.value
    let scope : Scope := ⟨frame.target, context, identity⟩
    let keys := parts.entries.map Prod.fst
    let entryRoles := roles setup.naming context frame.target false {} keys
    .ok (assemble scope (← shares setup scope entryRoles parts.entries))
  | _ => .error (parts.unexpected .nodeObject)

end LinkedQuery.NodeObject
