import LinkedQuery.Proofs.Context.Likeness
import LinkedQuery.Proofs.Reading.Productions

/-!
# Coercion under containers

A scalar can stand under a term by itself, in an array or in a list, and the term can declare a set
or a list of values.  `coercion_uniform_iff` says when all of these match the same: the members of
a list are not coerced, so they match another term unless the coercion makes no difference.
-/

namespace LinkedQuery

/-- The context with a definition of a term. -/
def Context.withTerm (context : Context) (term : String) (definition : Definition) : Context :=
  { context with terms := context.terms.insert term definition }

/-- A definition gives its term a property: the IRI is valid and no keyword, and the values are not
mapped. -/
structure Definition.IsProperty (definition : Definition) (iri : String) : Prop where
  mapped : definition.iri = some iri
  plain : Keyword.isKeyword iri = false
  valid : Iri.isValid iri = true
  unmapped : definition.mapKind? = none

/-! ### Wrappings -/

/-- An object with a list as its only entry. -/
def listObjectOf (members : Json) : Json :=
  .object [(Keyword.list.text, members)]

/-- A way for a value to stand under a term. -/
inductive Wrapping where
  | bare
  | array
  | listObject
  /-- An array, under a term that declares a set as well. -/
  | set
  /-- An array, under a term that declares a list as well. -/
  | list
deriving DecidableEq, Repr

namespace Wrapping

/-- The value in its place. -/
def wrap : Wrapping → Json → Json
  | .bare, value => value
  | .listObject, value => listObjectOf (.array [value])
  | _, value => .array [value]

/-- The containers that the term declares as well. -/
def containers : Wrapping → List Container
  | .set => [.set]
  | .list => [.list]
  | _ => []

/-- The definition of the term. -/
def adapt (wrapping : Wrapping) (definition : Definition) : Definition :=
  { definition with containers := definition.containers ++ wrapping.containers }

end Wrapping

/-- The term that the fragment of a property has for the value: the value of the triple, or else the
member of the list that is the value of the triple. -/
def Pattern.valueTerm? (reverse : Bool) : Pattern → Option Term
  | .basic [triple] => some (if reverse then triple.subject else triple.object)
  | .join (.basic [_]) (.members _ member) => some member
  | _ => none

namespace NodeObject

/-- The terms that an entry of a node object has for its value.  The entries before it may have
named the node, and have left siblings. -/
def entryTerms (setup : Setup) (scope : Scope) (named : Bool) (siblings : Siblings) (key : String)
    (reverse : Bool) (value : Json) : Except QueryFault (List Term) := do
  let given := roles setup.naming scope.context scope.target named siblings [key]
  let found ← shares setup scope given [(key, setup.grammar.element value)]
  .ok (found.flatMap fun entry =>
    (entry.2.required ++ entry.2.optional).filterMap (Pattern.valueTerm? reverse))

end NodeObject

/-- The terms for a scalar in its place under a term with a definition. -/
def Wrapping.terms (wrapping : Wrapping) (setup : Setup) (scope : NodeObject.Scope) (named : Bool)
    (siblings : Siblings) (key : String) (definition : Definition) (scalar : Scalar) :
    Except QueryFault (List Term) :=
  let context := scope.context.withTerm key (wrapping.adapt definition)
  NodeObject.entryTerms setup { scope with context := context } named siblings key
    definition.reverse (wrapping.wrap scalar.json)

/-! ### The context of the value -/

section Contexts

variable {context inner : Context} {key iri : String} {definition : Definition}

theorem Context.definition?_withTerm :
  (context.withTerm key definition).definition? key = some definition
  := Entries.lookup_insert_self _ _ _

/-- Definitions with one IRI make contexts with the same IRIs. -/
theorem Context.withTerm_sameIris {definition' : Definition}
    (h : definition.iri = definition'.iri) :
  (context.withTerm key definition).SameIris (context.withTerm key definition')
  where
  base := rfl
  vocab := rfl
  iri name := by
    by_cases hname : name = key
    · rw [hname, definition?_withTerm, definition?_withTerm]
      apply h
    · simp only [Context.definition?, withTerm, Entries.lookup_insert_of_ne _ _ hname]

/-- The same IRIs make the same constants. -/
theorem Scalar.constant_sameIris {other : Context} (scalar : Scalar) (coercion : Option Coercion)
    (same : inner.SameIris other) :
  scalar.constant inner coercion = scalar.constant other coercion
  := by
  simp only [Scalar.constant, Context.validIri?, same.expand?]

/-- The context for the value goes with every way for it to stand. -/
theorem Wrapping.exists_inner (wrapping : Wrapping) (setup : Setup)
    (entered : setup.enter (context.withTerm key definition) definition.valueContext = .ok inner) :
  ∃ inner', setup.enter (context.withTerm key (wrapping.adapt definition)) definition.valueContext
      = .ok inner' ∧ inner.SameIris inner'
  := by
  have same : (context.withTerm key definition).SameIris
      (context.withTerm key (wrapping.adapt definition)) := Context.withTerm_sameIris rfl
  obtain ⟨inner', entered', same'⟩ :=
    same.enter setup.loader definition.valueContext inner (Setup.enter_eq_ok.mp entered)
  use inner', Setup.enter_eq_ok.mpr entered'

end Contexts

/-! ### Scalars in their places -/

section Scalars

variable (setup : Setup) {scalar : Scalar}

/-- A scalar is read as a constant under the coercion of its frame. -/
theorem run_entryValue_scalar (given : scalar ≠ .string placeholder) (frame : Frame) :
  setup.run ⟨.production .entryValue, scalar.json, frame⟩ = .ok (scalar.matchOf scalar.json frame)
  := by
  have hentry : scalar.json.entry? Keyword.context.text = none := by cases scalar <;> rfl
  have hshape : frame.context.shape scalar.json = .scalar := by cases scalar <;> rfl
  rw [run_entryValue, hentry, Setup.enter_none, ok_bind, hshape]
  apply run_scalar_json setup given

/-- A member of a list is read without a coercion. -/
theorem run_listMembers_scalar (given : scalar ≠ .string placeholder) (frame : Frame) :
  ∃ found, setup.run ⟨.listMembers, .array [scalar.json], frame⟩ = .ok found
    ∧ found.pattern = .members (.var frame.target) (scalar.constant frame.context none).1
  := by
  simp only [run_listMembers_cons, run_entryValue_scalar setup given, ok_bind]
  exact ⟨_, rfl, rfl⟩

theorem run_listMembers_bare (given : scalar ≠ .string placeholder) (frame : Frame) :
  ∃ found, setup.run ⟨.listMembers, scalar.json, frame⟩ = .ok found
    ∧ found.pattern = .members (.var frame.target) (scalar.constant frame.context none).1
  := by
  have single : scalar.json.kind ≠ .array := by cases scalar <;> simp [Scalar.json, Json.kind]
  simp only [run_listMembers_single setup single, run_entryValue_scalar setup given, ok_bind]
  exact ⟨_, rfl, rfl⟩

theorem Context.shape_listObjectOf (context : Context) (members : Json) :
  context.shape (listObjectOf members) = .listObject
  := by
  simp [Context.shape, listObjectOf, Context.objectShape, Context.entryFor?_text]

theorem run_listObjectOf (given : scalar ≠ .string placeholder) (frame : Frame) :
  ∃ found, setup.run ⟨.production .entryValue, listObjectOf (.array [scalar.json]), frame⟩
      = .ok found
    ∧ found.pattern = .members (.var frame.target) (scalar.constant frame.context none).1
  := by
  obtain ⟨list, hlist, hpattern⟩ := run_listMembers_scalar setup given
    ⟨frame.target, frame.context, none⟩
  rw [listObjectOf, run_entryValue_list, hlist, ok_bind]
  exact ⟨_, rfl, hpattern⟩

/-- A list object is no list where members of a graph are expected, but it can be read. -/
theorem run_nodeObject_listObjectOf (members : Json) (frame : Frame) :
  ∃ found, setup.run ⟨.production .nodeObject, listObjectOf members, frame⟩ = .ok found
  := by
  rw [listObjectOf, NodeObject.run_nodeObject]
  change ∃ found, (setup.enter frame.context none >>= _) = _
  rw [Setup.enter_none, ok_bind]
  simp [NodeObject.rows, NodeObject.roles, frame.context.meaning_text, NodeObject.rowsOf,
    NodeObject.shares, NodeObject.share]

end Scalars

/-! ### The value of a property -/

section Values

variable {setup : Setup} {scalar : Scalar} {link : NodeObject.Link} {inner : Context}

/-- The term that is expected for a scalar in its place: none where members of a graph are expected,
an uncoerced constant in a list, and a coerced one elsewhere. -/
def Wrapping.expected (wrapping : Wrapping) (definition : Definition) (inner : Context)
    (scalar : Scalar) : Option Term :=
  if definition.has .graph then none
  else if definition.has .list || wrapping = .listObject then some (scalar.constant inner none).1
  else some (scalar.constant inner definition.coercion).1

/-- No members of a graph come of a scalar, wherever it stands. -/
theorem run_graphMembers_wrap (setup : Setup) (scalar : Scalar) (wrapping : Wrapping)
    (frame : Frame) :
  ∃ found, setup.run ⟨.graphMembers, wrapping.wrap scalar.json, frame⟩ = .ok found
  := by
  have hobject : scalar.json.isObject = false := by cases scalar <;> rfl
  have harray : ∃ found, setup.run ⟨.graphMembers, .array [scalar.json], frame⟩ = .ok found := by
    rw [run_graphMembers_array]
    simp [hobject]
  cases wrapping with
  | bare =>
      have hkind : scalar.json.kind ≠ .array ∧ scalar.json.kind ≠ .object := by
        cases scalar <;> simp [Scalar.json, Json.kind]
      rw [Wrapping.wrap, run_graphMembers_other setup hkind.1 hkind.2]
      exact ⟨_, rfl⟩
  | listObject => apply run_nodeObject_listObjectOf setup _ _
  | array => apply harray
  | set => apply harray
  | list => apply harray

/-- The fragment for a match without a pattern is its triple. -/
theorem valueTerm?_of_empty {item : Match} (h : item.pattern = .empty) (subject : Term) :
  (link.fragment subject item).valueTerm? link.reverse = some item.term
  := by
  have hfragment : link.fragment subject item
      = .basic [NodeObject.propertyTriple subject link.iri link.reverse item.term] := by
    simp [NodeObject.Link.fragment, h, Pattern.joinAll, Pattern.mergeBasics, Pattern.empty]
  rw [hfragment, NodeObject.propertyTriple]
  cases link.reverse <;> rfl

theorem valueTerm?_of_members {item : Match} {list member : Term}
    (h : item.pattern = .members list member) (subject : Term) :
  (link.fragment subject item).valueTerm? link.reverse = some member
  := by
  simp [NodeObject.Link.fragment, h, Pattern.joinAll, Pattern.mergeBasics, Pattern.valueTerm?]

theorem valueTerm?_of_graph {item : Match} {name : Name} {pattern : Pattern}
    (h : item.pattern = .graph name pattern) (subject : Term) :
  (link.fragment subject item).valueTerm? link.reverse = none
  := by
  simp [NodeObject.Link.fragment, h, Pattern.joinAll, Pattern.mergeBasics, Pattern.valueTerm?]

theorem Wrapping.shape_wrap (wrapping : Wrapping) :
  inner.shape (wrapping.wrap scalar.json)
    = match wrapping with
      | .bare => .scalar
      | .listObject => .listObject
      | _ => .array
  := by
  cases wrapping with
  | bare => cases scalar <;> rfl
  | listObject => apply inner.shape_listObjectOf _
  | _ => rfl

/-- Where members of a graph are expected, no term is matched. -/
theorem run_wrap_graph (wrapping : Wrapping) (graph : link.definition.has .graph = true)
    (subject : Term) :
  ∃ item, setup.run (link.visit inner (wrapping.wrap scalar.json)) = .ok item
    ∧ (link.fragment subject item).valueTerm? link.reverse = none
  := by
  have htask : link.task (inner.shape (wrapping.wrap scalar.json)) = .graphValue := by
    rw [wrapping.shape_wrap]
    cases wrapping <;> simp [NodeObject.Link.task, graph]
  obtain ⟨members, hmembers⟩ := run_graphMembers_wrap setup scalar wrapping
    ⟨link.child, inner, link.definition.coercion⟩
  rw [NodeObject.Link.visit, htask, run_graphValue, hmembers, ok_bind]
  exact ⟨_, rfl, valueTerm?_of_graph rfl subject⟩

/-- In a list, a term without a coercion is matched. -/
theorem run_wrap_list (wrapping : Wrapping) (given : scalar ≠ .string placeholder)
    (plain : link.definition.has .graph = false)
    (list : link.definition.has .list = true ∨ wrapping = .listObject) (subject : Term) :
  ∃ item, setup.run (link.visit inner (wrapping.wrap scalar.json)) = .ok item
    ∧ (link.fragment subject item).valueTerm? link.reverse = some (scalar.constant inner none).1
  := by
  have htask : link.task (inner.shape (wrapping.wrap scalar.json))
      = if wrapping = .listObject then .production .entryValue else .listMembers := by
    rw [wrapping.shape_wrap]
    cases wrapping <;> simp_all [NodeObject.Link.task]
  have hrun : ∃ item, setup.run (link.visit inner (wrapping.wrap scalar.json)) = .ok item
      ∧ item.pattern = .members (.var link.child) (scalar.constant inner none).1 := by
    rw [NodeObject.Link.visit, htask]
    cases wrapping with
    | bare => apply run_listMembers_bare setup given _
    | listObject => apply run_listObjectOf setup given _
    | _ => apply run_listMembers_scalar setup given _
  obtain ⟨item, hitem, hpattern⟩ := hrun
  exact ⟨item, hitem, valueTerm?_of_members hpattern subject⟩

/-- Elsewhere, a term under the coercion is matched. -/
theorem run_wrap_coerced (wrapping : Wrapping) (given : scalar ≠ .string placeholder)
    (plain : link.definition.has .graph = false) (single : link.definition.has .list = false)
    (outside : wrapping ≠ .listObject) (subject : Term) :
  ∃ item, setup.run (link.visit inner (wrapping.wrap scalar.json)) = .ok item
    ∧ (link.fragment subject item).valueTerm? link.reverse
      = some (scalar.constant inner link.definition.coercion).1
  := by
  have htask (shape : Shape) : link.task shape = .production .entryValue := by
    simp [NodeObject.Link.task, plain, single]
  have harray : ∃ item, setup.run ⟨.production .entryValue, .array [scalar.json],
      ⟨link.child, inner, link.definition.coercion⟩⟩ = .ok item
      ∧ item.pattern = .empty ∧ item.term = (scalar.constant inner link.definition.coercion).1 := by
    rw [run_entryValue]
    change ∃ item, setup.run ⟨.items .entryValue, .array [scalar.json], _⟩ = _ ∧ _
    rw [run_items_cons, run_entryValue_scalar setup given]
    exact ⟨_, rfl, rfl, rfl⟩
  have hrun : ∃ item, setup.run (link.visit inner (wrapping.wrap scalar.json)) = .ok item
      ∧ item.pattern = .empty ∧ item.term = (scalar.constant inner link.definition.coercion).1 := by
    rw [NodeObject.Link.visit, htask]
    cases wrapping with
    | bare =>
        rw [Wrapping.wrap, run_entryValue_scalar setup given]
        exact ⟨_, rfl, rfl, rfl⟩
    | listObject => exact absurd rfl outside
    | _ => apply harray
  obtain ⟨item, hitem, hpattern, hterm⟩ := hrun
  exact ⟨item, hitem, hterm ▸ valueTerm?_of_empty hpattern subject⟩

/-- A scalar in its place is read, and its term is the expected one. -/
theorem run_wrap (wrapping : Wrapping) (given : scalar ≠ .string placeholder) (subject : Term) :
  ∃ item, setup.run (link.visit inner (wrapping.wrap scalar.json)) = .ok item
    ∧ (link.fragment subject item).valueTerm? link.reverse
      = wrapping.expected link.definition inner scalar
  := by
  unfold Wrapping.expected
  cases graph : link.definition.has .graph with
  | true => apply run_wrap_graph wrapping graph subject
  | false =>
      by_cases list : link.definition.has .list = true ∨ wrapping = .listObject
      · simpa [list] using run_wrap_list wrapping given graph list subject
      · obtain ⟨single, outside⟩ := not_or.mp list
        simpa [single, outside] using
          run_wrap_coerced wrapping given graph (by simpa using single) outside subject

end Values

/-! ### Entries of a node object -/

section Entries

variable {setup : Setup} {scope : NodeObject.Scope} {named : Bool} {siblings : Siblings}
  {context inner : Context} {key iri : String} {definition : Definition} {scalar : Scalar}

/-- Neither a set nor a list is a map. -/
theorem Wrapping.mapKind?_adapt (wrapping : Wrapping) (definition : Definition) :
  (wrapping.adapt definition).mapKind? = definition.mapKind?
  := by
  cases wrapping <;> simp [Definition.mapKind?, adapt, containers]

/-- The role of a key with a property is the property. -/
theorem Definition.IsProperty.roles_eq (property : definition.IsProperty iri)
    (plain : Keyword.isKeyword key = false) (hkey : context.definition? key = some definition)
    (naming : Naming) (target : Variable) (named : Bool) (siblings : Siblings) :
  ∃ child, NodeObject.roles naming context target named siblings [key]
    = [.property iri definition.reverse child]
  := by
  have hword : Keyword.ofText? key = none := by simpa [Keyword.isKeyword] using plain
  have hiri : Keyword.ofText? iri = none := by simpa [Keyword.isKeyword] using property.plain
  have hmeaning : context.meaning key
      = if definition.reverse then .reverse iri else .property iri := by
    simp [Context.meaning, hword, hkey, Context.definedMeaning, property.mapped, hiri]
  cases hreverse : definition.reverse with
  | true => simp [NodeObject.roles, hmeaning, hreverse]
  | false => simp [NodeObject.roles, hmeaning, hreverse]

/-- The terms of an entry with a property are those of the fragment that its value makes. -/
theorem entryTerms_eq (property : definition.IsProperty iri)
    (plain : Keyword.isKeyword key = false) (hkey : scope.context.definition? key = some definition)
    (entered : setup.enter scope.context definition.valueContext = .ok inner)
    {value : Json} (hshape : inner.shape value ≠ .null) {expected : Option Term}
    (read : ∀ link : NodeObject.Link, link.definition = definition →
      ∃ item, setup.run (link.visit inner value) = .ok item
        ∧ (link.fragment scope.subject item).valueTerm? link.reverse = expected) :
  NodeObject.entryTerms setup scope named siblings key definition.reverse value
    = .ok expected.toList
  := by
  obtain ⟨child, hroles⟩ := property.roles_eq plain hkey setup.naming scope.target named
    siblings
  let link : NodeObject.Link := ⟨iri, definition.reverse, child, definition⟩
  let row : NodeObject.Row := ⟨.property iri definition.reverse child, key, value⟩
  have hlink : row.link? scope.context = some link := by
    simp [row, NodeObject.Row.link?, hkey, property.unmapped, property.valid, link]
  obtain ⟨item, hitem, hterm⟩ := read link rfl
  have hshare : NodeObject.share setup scope row.role key (setup.grammar.element value)
      = .ok (link.share scope.subject key (inner.shape value) item) := by
    rw [NodeObject.share_of_link setup hlink, entered, ok_bind, hitem, ok_bind]
  have hfragments (share : NodeObject.Share)
      (h : share = link.share scope.subject key (inner.shape value) item) :
      share.required ++ share.optional = [link.fragment scope.subject item] := by
    cases hoptional : NodeObject.isOptional link.definition (inner.shape value) <;>
      simp [h, NodeObject.Link.share, hshape, hoptional]
  simp only [NodeObject.entryTerms, hroles, NodeObject.shares]
  rw [hshare]
  simp only [ok_bind, List.flatMap_cons, List.flatMap_nil, hfragments _ rfl, List.append_nil,
    Except.ok.injEq]
  change List.filterMap (Pattern.valueTerm? link.reverse) _ = _
  rw [List.filterMap_cons, hterm]
  cases expected <;> rfl

/-- The terms for a scalar in its place are the expected one, if there is one. -/
theorem Wrapping.terms_eq (wrapping : Wrapping) (named : Bool) (siblings : Siblings)
    (property : definition.IsProperty iri)
    (plain : Keyword.isKeyword key = false)
    (entered : setup.enter (scope.context.withTerm key definition) definition.valueContext
      = .ok inner)
    (given : scalar ≠ .string placeholder) :
  wrapping.terms setup scope named siblings key definition scalar
    = .ok (wrapping.expected (wrapping.adapt definition) inner scalar).toList
  := by
  obtain ⟨inner', entered', same⟩ := wrapping.exists_inner setup entered
  have adapted : (wrapping.adapt definition).IsProperty iri :=
    ⟨property.mapped, property.plain, property.valid,
      (wrapping.mapKind?_adapt definition).trans property.unmapped⟩
  have hshape : inner'.shape (wrapping.wrap scalar.json) ≠ .null := by
    rw [wrapping.shape_wrap]
    cases wrapping <;> simp
  have hexpected : wrapping.expected (wrapping.adapt definition) inner scalar
      = wrapping.expected (wrapping.adapt definition) inner' scalar := by
    simp only [expected, scalar.constant_sameIris _ same]
  rw [hexpected]
  apply entryTerms_eq adapted plain Context.definition?_withTerm entered' hshape
  intro link hlink
  rw [← hlink]
  apply run_wrap wrapping given _

/-- The term for a scalar in its place, by the containers that the term declares without it. -/
theorem Wrapping.expected_adapt (wrapping : Wrapping) :
  wrapping.expected (wrapping.adapt definition) inner scalar
    = if definition.has .graph then none
      else if definition.has .list ∨ wrapping = .listObject ∨ wrapping = .list then
        some (scalar.constant inner none).1
      else some (scalar.constant inner definition.coercion).1
  := by
  cases wrapping <;> simp [expected, Definition.has, adapt, containers]

/-- Every way for a scalar to stand under a term matches the same terms exactly when it is expected
to be a member of a graph, or of a list in any case, or when the coercion makes no difference. -/
theorem coercion_uniform_iff (setup : Setup) (scope : NodeObject.Scope) (named : Bool)
    (siblings : Siblings) (property : definition.IsProperty iri)
    (plain : Keyword.isKeyword key = false)
    (entered : setup.enter (scope.context.withTerm key definition) definition.valueContext
      = .ok inner)
    (given : scalar ≠ .string placeholder) :
  (∀ wrapping : Wrapping, ∃ terms,
      wrapping.terms setup scope named siblings key definition scalar = .ok terms)
    ∧ ((∀ wrapping wrapping' : Wrapping,
          wrapping.terms setup scope named siblings key definition scalar
            = wrapping'.terms setup scope named siblings key definition scalar)
        ↔ definition.has .graph ∨ definition.has .list
          ∨ (scalar.constant inner definition.coercion).1 = (scalar.constant inner none).1)
  := by
  have hterms (wrapping : Wrapping) :=
    wrapping.terms_eq named siblings property plain entered given
  constructor
  · intro wrapping
    use (wrapping.expected (wrapping.adapt definition) inner scalar).toList
    apply hterms
  · simp only [hterms, Wrapping.expected_adapt]
    constructor
    · intro uniform
      by_cases graph : definition.has .graph = true
      · apply Or.inl graph
      · by_cases list : definition.has .list = true
        · apply Or.inr (.inl list)
        · right
          right
          simpa [graph, list] using uniform .bare .listObject
    · rintro (graph | list | same) wrapping wrapping'
      · simp [graph]
      · simp [list]
      · simp [same]

end Entries

/-- A term whose strings are references. -/
def knows : Definition where
  iri := some "ex:knows"
  coercion := some .id

theorem knows_isProperty :
  knows.IsProperty "ex:knows"
  where
  mapped := rfl
  plain := by decide
  valid := by decide +kernel
  unmapped := rfl

/-- A node without a name, before its first entry. -/
def nobody : NodeObject.Scope :=
  ⟨⟨"root"⟩, {}, none⟩

/-- A number is no reference, so it is matched the same in all places. -/
theorem coercion_uniform_number :
  knows.coercion = some .id
    ∧ ∀ wrapping wrapping' : Wrapping,
      wrapping.terms {} nobody false {} "knows" knows (.number (.integer 7))
        = wrapping'.terms {} nobody false {} "knows" knows (.number (.integer 7))
  := by
  have plain : Keyword.isKeyword "knows" = false := by decide
  have given : Scalar.number (.integer 7) ≠ .string placeholder := by decide
  obtain ⟨-, uniform⟩ := coercion_uniform_iff {} nobody false {} knows_isProperty plain rfl given
  constructor
  · rfl
  · apply uniform.mpr (.inr (.inr rfl))

/-- Someone who knows somebody. -/
def acquaintance (value : Json) : Json :=
  .object
    [("@context", .object
        [("knows", .object [("@id", .string "ex:knows"), ("@type", .string "@id")])]),
      ("knows", value)]

/-- The pattern for an acquaintance that may be a resource. -/
def resourcePattern : Pattern :=
  .leftJoin .empty (.basic [⟨.var ⟨"root"⟩, .iri "ex:knows", .iri "ex:luke"⟩])

/-- The pattern for a list of acquaintances with a string among them. -/
def stringPattern : Pattern :=
  .join (.basic [⟨.var ⟨"root"⟩, .iri "ex:knows", .var ⟨"root·knows"⟩⟩])
    (.members (.var ⟨"root·knows"⟩) (.literal (.plain "ex:luke")))

/-- A reference in an array is matched as a resource; in a list it is matched as a string. -/
theorem coercion_lost_list :
  ∃ query query',
    ({} : Setup).grammar.query (acquaintance (.array [.string "ex:luke"])) = .ok query
    ∧ ({} : Setup).grammar.query
        (acquaintance (listObjectOf (.array [.string "ex:luke"]))) = .ok query'
    ∧ query.pattern = .project resourcePattern [] ∧ query'.pattern = .project stringPattern []
    ∧ Wrapping.array.terms {} nobody false {} "knows" knows (.string "ex:luke")
      ≠ Wrapping.listObject.terms {} nobody false {} "knows" knows (.string "ex:luke")
  := by
  have houtcome : (({} : Setup).grammar.query
      (acquaintance (.array [.string "ex:luke"]))).toOption.map Query.pattern
        = some (.project resourcePattern []) := by
    decide +kernel
  have houtcome' : (({} : Setup).grammar.query
      (acquaintance (listObjectOf (.array [.string "ex:luke"])))).toOption.map Query.pattern
        = some (.project stringPattern []) := by
    decide +kernel
  obtain ⟨query, hquery, hpattern⟩ := exists_of_outcome _ _ houtcome
  obtain ⟨query', hquery', hpattern'⟩ := exists_of_outcome _ _ houtcome'
  use query, query', hquery, hquery', hpattern, hpattern'
  intro heq
  have hterms := congrArg Except.toOption heq
  revert hterms
  decide +kernel

end LinkedQuery
