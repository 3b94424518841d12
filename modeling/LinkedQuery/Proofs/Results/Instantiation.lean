import LinkedQuery.Proofs.Reading.Holds
import LinkedQuery.Proofs.Variables.Filling

/-!
# Instances of documents

A constant can be put in the place of a placeholder.  Then the query asks for the same with the
constant in the place of the variable: `instantiation_fills` says that the pattern is filled with
the term of the constant, and that the variable is selected no more.
-/

namespace LinkedQuery

/-! ### Placeholders and constants -/

/-- The term that a value stands for by a reading of scalars; the placeholder stands for none. -/
def Json.constant? (value : Json) (term : Scalar → Term) : Option Term :=
  if value.isPlaceholder then none else value.scalar?.map term

/-- The term that names an object by a value. -/
def Context.named? (context : Context) (value : Json) : Option Term :=
  match context.identity value with
  | .iri iri => some (.iri iri)
  | _ => none

/-- Whether the placeholder at a path within the value of a visit binds the variable of the visit:
it is a scalar itself, is held by a value object or names an object.  The answer to it is, for a
constant, the term that the constant stands for in its place. -/
inductive Asks (setup : Setup) : Visit → List Step → (Json → Option Term) → Prop where
  | scalar {frame : Frame} :
      Asks setup ⟨.production .scalar, .string placeholder, frame⟩ []
        fun value => value.constant? fun scalar => (scalar.constant frame.context frame.coercion).1
  | value {entries : List (String × Json)} {frame : Frame} {context : Context} {key : String}
      (entered : setup.enter frame.context (entries.lookup Keyword.context.text) = .ok context)
      (held : context.entryFor? entries .value = some (key, .string placeholder)) :
      Asks setup ⟨.production .valueObject, .object entries, frame⟩ [.key key]
        fun value => value.constant? fun scalar =>
          .literal (ValueObject.literalOf scalar (ValueObject.languageIn context entries)
            (ValueObject.datatypeIn context entries).1).1
  | name {production : Production} {entries : List (String × Json)} {frame : Frame}
      {context : Context} {key : String}
      (object : production = .nodeObject ∨ production = .graphObject)
      (entered : setup.enter frame.context (entries.lookup Keyword.context.text) = .ok context)
      (held : context.entryFor? entries .id = some (key, .string placeholder)) :
      Asks setup ⟨.production production, .object entries, frame⟩ [.key key] context.named?

section Filled

variable {setup : Setup} {last : Visit} {tail : List Step} {answer : Json → Option Term}
  {constant : Json} {term : Term} {frame : Frame} {context : Context}
  {entries : List (String × Json)} {key : String} {found : Match}

theorem Json.constant?_eq_some {value : Json} {reading : Scalar → Term}
    (h : value.constant? reading = some term) :
  value.isPlaceholder = false ∧ ∃ scalar, value.scalar? = some scalar ∧ reading scalar = term
  := by
  rw [Json.constant?] at h
  split at h
  · cases h
  · rename_i hplaceholder
    exact ⟨by simpa using hplaceholder, Option.map_eq_some_iff.mp h⟩

theorem Context.named?_eq_some {value : Json} (h : context.named? value = some term) :
  ∃ iri, context.identity value = .iri iri ∧ term = .iri iri
  := by
  rw [Context.named?] at h
  split at h
  · rename_i iri hiri
    exact ⟨iri, hiri, (Option.some.inj h).symm⟩
  · cases h

/-- A constant can take the place of the placeholder. -/
theorem Asks.alike (asks : Asks setup last tail answer) (h : answer constant = some term) :
  Alike setup last.frame.context last.value (last.value.modify (fun _ => constant) tail)
  := by
  cases asks with
  | scalar =>
      obtain ⟨-, scalar, hscalar, -⟩ := Json.constant?_eq_some h
      change Alike setup _ (.string placeholder) constant
      cases constant with
      | null | array | object => cases hscalar
      | _ => exact ⟨rfl, by simp [Json.kind], rfl, rfl, fun _ _ => rfl⟩
  | value entered held => apply Alike.modify (Context.entryFor?_key_ne held (by decide))
  | name object entered held => apply Alike.modify (Context.entryFor?_key_ne held (by decide))

/-- A constant in the place of the placeholder leaves the shape of the value. -/
theorem Asks.shape (asks : Asks setup last tail answer) (h : answer constant = some term)
    (context : Context) :
  context.shape (last.value.modify (fun _ => constant) tail) = context.shape last.value
  := by
  cases asks with
  | scalar =>
      obtain ⟨-, scalar, hscalar, -⟩ := Json.constant?_eq_some h
      cases constant with
      | null | array | object => cases hscalar
      | _ => rfl
  | _ => apply Context.shape_modify

/-- The terms of constants have no variables. -/
theorem Asks.closed (asks : Asks setup last tail answer) (h : answer constant = some term) :
  term.vars = []
  := by
  cases asks with
  | scalar =>
      obtain ⟨-, scalar, -, rfl⟩ := Json.constant?_eq_some h
      apply Scalar.constant_vars
  | value entered held =>
      obtain ⟨-, scalar, -, rfl⟩ := Json.constant?_eq_some h
      rfl
  | name object entered held =>
      obtain ⟨iri, -, rfl⟩ := Context.named?_eq_some h
      rfl

/-- A constant in the place of a scalar placeholder. -/
theorem filled_scalar {scalar : Scalar} (known : constant.isPlaceholder = false)
    (held : constant.scalar? = some scalar) :
  setup.run ⟨.production .scalar, constant, frame⟩ = .ok (scalar.matchOf constant frame) ∧
    Filled frame.target (scalar.constant frame.context frame.coercion).1
      (placeholderMatch frame.target) (scalar.matchOf constant frame)
  := by
  refine ⟨(Ends.scalar known held).run, (Term.fill_self _ _).symm, rfl, ?_, ?_⟩
  · simp [Scalar.matchOf, Pattern.vars, Pattern.empty]
  · simp [Scalar.matchOf, placeholderMatch]

/-- A constant in the place of the placeholder of a value object. -/
theorem filled_valueObject {scalar : Scalar}
    (entered : setup.enter frame.context (entries.lookup Keyword.context.text) = .ok context)
    (held : context.entryFor? entries .value = some (key, .string placeholder))
    (known : constant.isPlaceholder = false) (hscalar : constant.scalar? = some scalar) :
  let entries' := Entries.modify (fun _ => constant) key entries
  let found' := ValueObject.matchOf context frame.target entries' key constant
  setup.run ⟨.production .valueObject, .object entries', frame⟩ = .ok found' ∧
    Filled frame.target
      (.literal (ValueObject.literalOf scalar (ValueObject.languageIn context entries)
        (ValueObject.datatypeIn context entries).1).1)
      (ValueObject.matchOf context frame.target entries key (.string placeholder)) found'
  := by
  have hother (keyword : Keyword) (hne : keyword ≠ .value) :
      context.entryFor? (Entries.modify (fun _ => constant) key entries) keyword
        = context.entryFor? entries keyword := by
    apply Context.entryFor?_modify_of_ne
    intro entry hentry
    apply Context.key_ne hentry held hne
  have apart := Context.entryFor?_key_ne held (by decide)
  have entered' := Setup.enter_modify apart (fun _ => constant) entered
  have hplaceholder : (Json.string placeholder).isPlaceholder = true := by decide
  refine ⟨(Ends.valueObject entered' (Context.entryFor?_modify held _)).run, ?_, ?_, ?_, ?_⟩
  · simp [ValueObject.matchOf, known, hplaceholder, ValueObject.constantOf, hscalar,
      ValueObject.languageIn, ValueObject.datatypeIn, hother]
  · simp [ValueObject.matchOf, known, hplaceholder, Pattern.fill, Pattern.empty]
  · simp [ValueObject.matchOf, known, Pattern.vars, Pattern.empty]
  · simp [ValueObject.matchOf, known, hplaceholder]

/-- An IRI in the place of the placeholder that names a graph object. -/
theorem filled_graphObject {iri : String}
    (entered : setup.enter frame.context (entries.lookup Keyword.context.text) = .ok context)
    (held : context.entryFor? entries .id = some (key, .string placeholder))
    (identity : context.identity constant = .iri iri)
    (h : setup.run ⟨.production .graphObject, .object entries, frame⟩ = .ok found) :
  ∃ found', setup.run ⟨.production .graphObject,
      .object (Entries.modify (fun _ => constant) key entries), frame⟩ = .ok found' ∧
    Filled frame.target (.iri iri) found found'
  := by
  have apart := Context.entryFor?_key_ne held (by decide)
  have entered' := Setup.enter_modify apart (fun _ => constant) entered
  obtain ⟨log, derived⟩ := exists_derives _ _ h
  cases derived with
  | ends last => cases last
  | @leads _ _ _ members _ step read =>
      cases step with
      | @graphObject _ _ context' graphKey graph entered'' graphHeld =>
          rw [entered, Except.ok.injEq] at entered''
          subst entered''
          have hgraph : context.entryFor? (Entries.modify (fun _ => constant) key entries) .graph
              = some (graphKey, graph) := by
            rw [Context.entryFor?_modify_of_ne, graphHeld]
            intro entry hentry
            apply Context.key_ne hentry held (by decide)
          have hfree : frame.target ∉ members.vars := by
            intro hv
            apply Naming.Below.not_child _ _ (read.within_graphMembers _ hv)
          have hidentity : GraphObject.identityOf context entries = some .placeholder := by
            rw [GraphObject.identityOf, held]
            rfl
          have hidentity' : GraphObject.identityOf context
              (Entries.modify (fun _ => constant) key entries) = some (.iri iri) := by
            rw [GraphObject.identityOf, Context.entryFor?_modify held, Option.map_some, identity]
          have hmembers : Filled frame.target (.iri iri) members members := .of_notMem hfree
          refine ⟨_, (Leads.graphObject entered' hgraph).run_eq_ok.mpr ⟨members, read.run, rfl⟩,
            ?_, ?_, ?_, ?_⟩
          · simp [GraphObject.matchOf, hidentity, hidentity', Identity.name, Name.term]
          · simp only [GraphObject.matchOf, hidentity, hidentity', Identity.name, Pattern.fill,
              ← hmembers.pattern_eq]
            simp [Name.fill, Term.name?]
          · simp only [GraphObject.matchOf, hidentity', Identity.name, Pattern.vars,
              List.mem_append, not_or]
            exact ⟨by simp [Name.vars, Name.term, Term.vars], hmembers.free⟩
          · simp only [GraphObject.matchOf, hidentity, hidentity', List.filter_append,
              ← hmembers.projections_eq]
            simp

end Filled

/-! ### Named nodes -/

namespace NodeObject

/-- A branch in which the value is another, if its key is the given one. -/
def Branch.put (key : String) (value : Json) (branch : Branch) : Branch :=
  if branch.row.key = key then .plain { branch.row with value := value } else branch

theorem Branch.row_put (key : String) (value : Json) (branch : Branch) :
  (branch.put key value).row.role = branch.row.role ∧
    (branch.put key value).row.entry
      = (branch.row.key, if branch.row.key = key then value else branch.row.value)
  := by
  rw [put]
  split
  · exact ⟨rfl, rfl⟩
  · exact ⟨rfl, rfl⟩

variable {setup : Setup} {frame : Frame} {context : Context} {entries : List (String × Json)}
  {key : String} {constant : Json} {branches : List Branch}

/-- The branches of a node object in which the value for its name is another. -/
theorem Reads.put (reads : Reads setup entries frame context branches) (constant : Json)
    {value : Json} (held : context.entryFor? entries .id = some (key, value)) :
  Reads setup (Entries.modify (fun _ => constant) key entries) frame context
    (branches.map (Branch.put key constant))
  := by
  have apart := Context.entryFor?_key_ne held (by decide)
  have hentries : Entries.modify (fun _ => constant) key entries
      = (branches.map (Branch.put key constant)).map (·.row.entry) := by
    rw [reads.entries_eq, Entries.modify, List.map_map, List.map_map]
    apply List.map_congr_left
    intro branch _
    apply (Branch.row_put key constant branch).2.symm
  have hkeys : (branches.map (Branch.put key constant)).map (·.row.key)
      = branches.map (·.row.key) := by
    rw [List.map_map]
    apply List.map_congr_left
    intro branch _
    apply congrArg Prod.fst (Branch.row_put key constant branch).2
  have hroles : (branches.map (Branch.put key constant)).map (·.row.role)
      = branches.map (·.row.role) := by
    rw [List.map_map]
    apply List.map_congr_left
    intro branch _
    apply (Branch.row_put key constant branch).1
  rw [hentries]
  apply Reads.of_roles
  · rw [← hentries, Entries.lookup_modify_of_ne apart, reads.entered]
  · rw [hkeys, hroles, reads.map_role, reads.map_key]
  · intro branch' hbranch'
    obtain ⟨branch, hbranch, rfl⟩ := List.mem_map.mp hbranch'
    rw [Branch.put]
    split
    · rename_i hkey
      have hsuits := reads.suits hbranch
      have hmeaning := List.find?_some held
      rw [hkey, eq_of_beq hmeaning] at hsuits
      rw [Branch.Fits, Row.link?]
      cases hrole : branch.row.role with
      | property iri reverse child =>
          rw [hrole] at hsuits
          cases hsuits
      | _ => rfl
    · apply reads.fits branch hbranch

/-- An IRI in the place of the placeholder that names a node. -/
theorem filled_nodeObject {found : Match} {iri : String}
    (entered : setup.enter frame.context (entries.lookup Keyword.context.text) = .ok context)
    (held : context.entryFor? entries .id = some (key, .string placeholder))
    (identity : context.identity constant = .iri iri)
    (h : setup.run ⟨.production .nodeObject, .object entries, frame⟩ = .ok found) :
  ∃ found', setup.run ⟨.production .nodeObject,
      .object (Entries.modify (fun _ => constant) key entries), frame⟩ = .ok found' ∧
    LinkedQuery.Filled frame.target (.iri iri) found found'
  := by
  obtain ⟨log, derived⟩ := exists_derives _ _ h
  obtain ⟨context', branches, reads, visited, rfl⟩ := exists_reads derived
  obtain rfl : context' = context := by
    have hentered := reads.entered
    rw [entered, Except.ok.injEq] at hentered
    exact hentered.symm
  have hscope : scopeOf context' frame.target entries
      = ⟨frame.target, context', some .placeholder⟩ := by
    rw [scopeOf, held]
    rfl
  have hscope' : scopeOf context' frame.target (Entries.modify (fun _ => constant) key entries)
      = ⟨frame.target, context', some (.iri iri)⟩ := by
    rw [scopeOf, Context.entryFor?_modify held, Option.map_some, identity]
  have hrun := (reads.put constant held).run (by
    intro row link inner item trace hmem
    obtain ⟨branch, hbranch, heq⟩ := List.mem_map.mp hmem
    rw [Branch.put] at heq
    split at heq
    · cases heq
    · subst heq
      apply (visited row link inner item trace hbranch).run)
  refine ⟨_, hrun, filled_matchOf ?_ ?_⟩
  · rw [hscope, hscope']
    apply (Term.fill_self _ _).symm
  · rw [List.forall₂_map_right_iff, List.forall₂_same, hscope, hscope']
    intro branch hbranch
    have hown := (reads.separate visited).own branch hbranch
    rw [Branch.put]
    split
    · rename_i hkey
      have hmeaning : context'.meaning branch.row.key = .keyword .id := by
        have hfound := List.find?_some held
        rw [hkey]
        apply eq_of_beq hfound
      have hsuits := reads.suits hbranch
      rw [hmeaning] at hsuits
      obtain ⟨row, rfl⟩ := reads.exists_plain hbranch hmeaning
      obtain ⟨role, key', value⟩ := row
      cases hsuits with
      | id => exact ⟨rfl, rfl,
          by simp [Branch.share, Branch.row, Row.plainShare, idShare, Share.keep],
          by simp [Branch.share, Branch.row, Row.plainShare, idShare, Share.keep]⟩
      | duplicateId => exact ⟨rfl, rfl,
          by simp [Branch.share, Branch.row, Row.plainShare, Share.warn], rfl⟩
      | unsupported apart => exact absurd rfl apart.2.1
    · apply branch.filled_name hown

end NodeObject

section Places

variable {setup : Setup} {visit outer inner last : Visit} {path tail : List Step}
  {v : Variable} {answer : Json → Option Term} {constant : Json} {term : Term} {found : Match}

/-- A constant in the place of the placeholder gives a filled match. -/
theorem Asks.filled (asks : Asks setup last tail answer) (h : answer constant = some term)
    (hrun : setup.run last = .ok found) :
  ∃ found', setup.run (last.modify (Json.modify (fun _ => constant) tail) []) = .ok found' ∧
    Filled last.frame.target term found found'
  := by
  cases asks with
  | scalar =>
      obtain ⟨known, scalar, held, rfl⟩ := Json.constant?_eq_some h
      rw [Ends.placeholder.run, Except.ok.injEq] at hrun
      subst hrun
      exact ⟨_, filled_scalar known held⟩
  | value entered held =>
      obtain ⟨known, scalar, hscalar, rfl⟩ := Json.constant?_eq_some h
      rw [(Ends.valueObject entered held).run, Except.ok.injEq] at hrun
      subst hrun
      exact ⟨_, filled_valueObject entered held known hscalar⟩
  | name object entered held =>
      obtain ⟨iri, hiri, rfl⟩ := Context.named?_eq_some h
      rcases object with rfl | rfl
      · exact NodeObject.filled_nodeObject entered held hiri hrun
      · exact filled_graphObject entered held hiri hrun

/-! ### Placeholders of templates -/

/-- Whether a path leads to a class of a node object: to the value of an entry for classes, or to
its first item. -/
def Setup.NamesClass (setup : Setup) (visit : Visit) (path : List Step) : Prop :=
  ∃ front entries frame context key,
    Comes setup visit front ⟨.production .nodeObject, .object entries, frame⟩ ∧
      setup.enter frame.context (entries.lookup Keyword.context.text) = .ok context ∧
      context.meaning key = .keyword .type ∧
      (path = front ++ [.key key] ∨ path = front ++ [.key key, .index 0])

/-- Whether a visit comes to the placeholder at a path, which binds a variable and has an answer. -/
def Setup.Asked (setup : Setup) (visit : Visit) (path : List Step) (v : Variable)
    (answer : Json → Option Term) : Prop :=
  ∃ front last tail, Comes setup visit front last ∧ Asks setup last tail answer ∧
    last.frame.target = v ∧ path = front ++ tail

/-- What a visit asks for is asked for by every visit that comes to it. -/
theorem Comes.asked {front : List Step} (comes : Comes setup outer front inner)
    (h : setup.NamesClass inner path ∨ ∃ answer, setup.Asked inner path v answer) :
  setup.NamesClass outer (front ++ path) ∨ ∃ answer, setup.Asked outer (front ++ path) v answer
  := by
  rcases h with ⟨front', entries, frame, context, key, comes', entered, hmeaning, hpath⟩ |
    ⟨answer, front', last, tail, comes', asks, rfl, rfl⟩
  · left
    refine ⟨front ++ front', entries, frame, context, key, comes.trans comes', entered, hmeaning,
      ?_⟩
    rcases hpath with rfl | rfl
    · exact .inl (List.append_assoc _ _ _).symm
    · exact .inr (List.append_assoc _ _ _).symm
  · right
    exact ⟨answer, front ++ front', last, tail, comes.trans comes', asks, rfl,
      (List.append_assoc _ _ _).symm⟩

/-- The placeholder of a row without a link names the node or its classes. -/
theorem NodeObject.Reads.asked_plain {entries : List (String × Json)} {frame : Frame}
    {context : Context} {branches : List NodeObject.Branch}
    (reads : NodeObject.Reads setup entries frame context branches) {row : NodeObject.Row}
    (hbranch : NodeObject.Branch.plain row ∈ branches)
    (held : (row.plainShare (NodeObject.scopeOf context frame.target entries)).template.Holds
      path v) :
  let node : Visit := ⟨.production .nodeObject, .object entries, frame⟩
  setup.NamesClass node (.key row.key :: path)
    ∨ ∃ answer, setup.Asked node (.key row.key :: path) v answer
  := by
  have hsuits := reads.suits hbranch
  have hid := reads.entryFor?_id hbranch
  obtain ⟨role, key, value⟩ := row
  simp only [NodeObject.Branch.row] at hsuits hid
  cases role with
  | id =>
      have hid := hid rfl
      simp only [NodeObject.Row.plainShare, NodeObject.idShare, NodeObject.scopeOf, hid,
        Option.map_some] at held
      split at held
      · rename_i hidentity
        obtain ⟨rfl, rfl⟩ := Template.holds_name.mp held
        rw [eq_placeholder_of_identity (Option.some.inj hidentity)] at hid
        right
        exact ⟨_, [], _, _, .here, .name (.inl rfl) reads.entered hid, rfl, rfl⟩
      · simp [NodeObject.Share.warn] at held
      · simp [NodeObject.Share.keep] at held
  | type child =>
      left
      refine ⟨[], entries, frame, context, key, .here, reads.entered, ?_, ?_⟩
      · generalize context.meaning key = meaning at hsuits
        cases hsuits
        rfl
      · simp only [NodeObject.Row.plainShare] at held
        have hclasses := NodeObject.typeShare_classes
          (NodeObject.scopeOf context frame.target entries) child key value
        generalize NodeObject.typeShare _ child key value = share at hclasses held
        cases hclasses with
        | asked =>
            obtain ⟨rfl, -⟩ := Template.holds_name.mp held
            exact .inl rfl
        | askedAll =>
            obtain ⟨rest, rfl, held⟩ := Template.holds_array.mp held
            obtain ⟨rfl, -⟩ := Template.holds_name.mp held
            exact .inr rfl
        | given value classes => simp at held
        | unusable value => simp [NodeObject.Share.warn] at held
  | context => simp [NodeObject.Row.plainShare, NodeObject.Share.keep] at held
  | property iri reverse child =>
      simp only [NodeObject.Row.plainShare] at held
      split at held
      · simp [NodeObject.Share.warn] at held
      · simp [NodeObject.Share.warn] at held
  | _ => simp [NodeObject.Row.plainShare, NodeObject.Share.warn] at held

/-- Every placeholder of a template is for a class or has an answer. -/
theorem Derives.asked {log : Log} (derived : Derives setup visit found log)
    (distinct : visit.value.hasDistinctKeys = true) (held : found.template.Holds path v) :
  setup.NamesClass visit path ∨ ∃ answer, setup.Asked visit path v answer
  := by
  induction derived generalizing path with
  | ends last =>
      cases last with
      | placeholder =>
          obtain ⟨rfl, rfl⟩ := Template.holds_native.mp held
          exact .inr ⟨_, [], _, [], .here, .scalar, rfl, rfl⟩
      | valueObject entered hvalue =>
          have hkeys := (Json.hasDistinctKeys_object.mp distinct).1
          have hmem := Context.mem_of_entryFor? hvalue
          simp only [ValueObject.matchOf] at held
          split at held
          · rename_i hplaceholder
            obtain ⟨rest, rfl, hrest⟩ := (Template.holds_around hkeys hmem).mp held
            obtain ⟨rfl, rfl⟩ := Template.holds_native.mp hrest
            rw [Json.eq_placeholder hplaceholder] at hvalue
            exact .inr ⟨_, [], _, _, .here, .value entered hvalue, rfl, rfl⟩
          · obtain ⟨rest, rfl, hrest⟩ := (Template.holds_around hkeys hmem).mp held
            simp at hrest
      | null => simp [nullMatch] at held
      | scalar known hscalar => simp [Scalar.matchOf] at held
      | setObject => simp [setMatch] at held
      | noItems | noMembers => simp [emptyMatch] at held
      | noNodes refused => simp [GraphObject.refusal] at held
  | @leads outer inner make found log step read ih =>
      rcases (step.holds distinct).mp held with ⟨rest, rfl, hrest⟩ |
        ⟨entries, context, key, htask, hvalue, entered, hid, rfl, rfl⟩
      · apply step.comes.asked (ih (step.hasDistinctKeys distinct) hrest)
      · obtain ⟨task, value, frame⟩ := outer
        simp only at htask hvalue
        subst htask hvalue
        exact .inr ⟨_, [], _, _, .here, .name (.inr rfl) entered hid, rfl, rfl⟩
  | @node entries frame context branches reads read ih =>
      have hkeys := (Json.hasDistinctKeys_object.mp distinct).1
      obtain ⟨branch, hbranch, rest, rfl, hrest⟩ := (reads.holds_matchOf hkeys).mp held
      cases branch with
      | plain row => apply reads.asked_plain hbranch hrest
      | linked row link inner item log =>
          have hvalue := reads.hasDistinctKeys distinct hbranch
          obtain ⟨earlier, later, rfl⟩ := List.append_of_mem hbranch
          obtain ⟨rfl, linked⟩ := reads.linkedAt
          apply (Comes.entry linked .here).asked
            (ih row link inner item log hbranch hvalue hrest)

end Places

/-! ### Queries -/

/-- Where the template of a query has a placeholder that is not for a class, the visit that reads
the placeholder has an answer to it.  When a constant is put in its place, the pattern of the query
is filled with the term of the constant, in which the variable occurs no more, and the other
variables are selected as before. -/
theorem instantiation_fills (setup : Setup) (document : Json) (query : Query) (path : List Step)
    (v : Variable) (distinct : document.hasDistinctKeys = true)
    (h : setup.grammar.query document = .ok query) (held : query.template.Holds path v)
    (other : ¬ setup.NamesClass (setup.documentVisit document) path) :
  (∃ answer, setup.Asked (setup.documentVisit document) path v answer) ∧
    ∀ answer, setup.Asked (setup.documentVisit document) path v answer →
      ∀ constant term, answer constant = some term →
        ∃ query', setup.grammar.query (document.put path constant) = .ok query' ∧
          query'.body = query.body.fill v term ∧ v ∉ query'.body.vars ∧
          query'.projections = query.projections.filter (· ≠ v)
  := by
  obtain ⟨found, log, derived, rfl⟩ := query_eq_ok.mp h
  refine ⟨(derived.asked distinct held).resolve_left other, ?_⟩
  rintro answer ⟨front, last, tail, comes, asks, rfl, rfl⟩ constant term hanswer
  have halone : last.task ≠ .graphMembers := by
    cases asks with
    | _ => simp
  obtain ⟨-, found', hrun, filled⟩ := comes.transfer
    (carries_filled halone (asks.closed hanswer)) distinct (asks.alike hanswer)
    (asks.filled hanswer) (.of_shape (asks.shape hanswer)) derived.run
  rw [Visit.modify, ← Json.modify_append] at hrun
  obtain ⟨log', derived'⟩ := exists_derives _ _ hrun
  refine ⟨found'.query, query_eq_ok.mpr ⟨found', log', derived', rfl⟩, filled.pattern_eq,
    filled.free, ?_⟩
  change LinkedQuery.distinct found'.projections = _
  rw [filled.projections_eq]
  apply eraseDups_filter

/-- A document that asks for an album and its first track. -/
def album : Json :=
  .object [("@id", .string "?"), ("ex:track", .object [("@list", .array [.string "?"])])]

/-- The album named by an IRI. -/
theorem instantiation_fills_album :
  ∃ query query', ({} : Setup).grammar.query album = .ok query ∧
    ({} : Setup).grammar.query (album.put [.key "@id"] (.string "ex:one")) = .ok query' ∧
    query'.body = query.body.fill ⟨"root"⟩ (.iri "ex:one") ∧
    query.projections = [⟨"root"⟩, ⟨"root·track·item"⟩] ∧
    query'.projections = [⟨"root·track·item"⟩]
  := by
  let outcome (query : Query) := (query.projections, (query.template.at? [.key "@id"]).bind
    Template.placeholder?)
  have houtcome : (({} : Setup).grammar.query album).toOption.map outcome
      = some ([⟨"root"⟩, ⟨"root·track·item"⟩], some ⟨"root"⟩) := by decide +kernel
  obtain ⟨query, h, heq⟩ := exists_of_outcome _ outcome houtcome
  obtain ⟨hselected, held⟩ := Prod.mk.inj heq
  have other : ¬ ({} : Setup).NamesClass (({} : Setup).documentVisit album) [.key "@id"] := by
    rintro ⟨front, entries, frame, context, key, -, -, hmeaning, hpath⟩
    rcases hpath with hpath | hpath
    · cases front with
      | nil =>
          obtain rfl : "@id" = key := by simpa using hpath
          cases hmeaning
      | cons step front => simp at hpath
    · have hlength := congrArg List.length hpath
      simp at hlength
  obtain ⟨-, filled⟩ := instantiation_fills {} album query [.key "@id"] ⟨"root"⟩ (by decide) h
    held other
  have asked : ({} : Setup).Asked (({} : Setup).documentVisit album) [.key "@id"] ⟨"root"⟩
      ({} : Context).named? :=
    ⟨[], _, _, .lead (.document rfl rfl) .here, .name (.inl rfl) rfl rfl, rfl, rfl⟩
  obtain ⟨query', h', hbody, -, hselected'⟩ := filled _ asked (.string "ex:one") (.iri "ex:one")
    (by decide)
  refine ⟨query, query', h, h', hbody, hselected, ?_⟩
  rw [hselected', hselected]
  decide

end LinkedQuery
