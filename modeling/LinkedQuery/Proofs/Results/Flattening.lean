import LinkedQuery.Proofs.Reading.Log
import LinkedQuery.Proofs.Variables.Scope

/-!
# Flattened documents

A plain document is made of nothing but node objects within node objects, with constants,
placeholders and value objects at the ends (`NodeObject.isPlain`).  Its triples can be written down
directly: those of a node come in the order of its entries, and behind the triple that leads to a
nested node come the triples of that node (`NodeObject.nodeTriples`).  `plain_flattened` says that
the query of a plain document asks for exactly these triples, in this order and at once.
-/

namespace LinkedQuery

/-! ### Conjunctions of basic patterns -/

namespace Pattern

/-- Basic patterns are put together to one, or to none when they have no triples. -/
theorem mergeBasics_basics (parts : List (List Triple)) :
  mergeBasics (parts.map basic) = if parts.flatten = [] then [] else [.basic parts.flatten]
  := by
  induction parts with
  | nil => rfl
  | cons triples parts ih =>
      rw [List.map_cons, List.flatten_cons]
      cases triples with
      | nil => simpa [mergeBasics] using ih
      | cons triple triples =>
          by_cases hempty : parts.flatten = []
          · rw [if_pos hempty] at ih
            simp [mergeBasics, ih, hempty]
          · rw [if_neg hempty] at ih
            simp [mergeBasics, ih]

/-- The conjunction of basic patterns is the basic pattern of all their triples. -/
theorem joinAll_basics (parts : List (List Triple)) :
  joinAll (parts.map basic) = .basic parts.flatten
  := by
  rw [joinAll, mergeBasics_basics]
  by_cases hempty : parts.flatten = []
  · rw [if_pos hempty, hempty, empty]
  · rw [if_neg hempty]
    rfl

end Pattern

/-- Whether a value asks for all classes of a node. -/
def Json.asksAll : Json → Bool
  | .array [item] => item.isPlaceholder
  | _ => false

/-- The shapes of plain values. -/
def Shape.isPlain : Shape → Bool
  | .null => true
  | .scalar => true
  | .valueObject => true
  | .setObject => true
  | .nodeObject => true
  | _ => false

namespace NodeObject

/-! ### The triples of a plain node object -/

/-- The classes that the value of an entry for classes gives: one, or several in an array. -/
def classesOf? (context : Context) (value : Json) : Option (List String) :=
  match value with
  | .array items => items.mapM (classOf? context)
  | _ => (classOf? context value).map ([·])

/-- The triples for the classes of a node: the classes are asked for, or they are given. -/
def typeTriples (scope : Scope) (child : Variable) (value : Json) : List Triple :=
  if value.isPlaceholder then [classTriple scope.subject (.var child)]
  else
    ((classesOf? scope.context value).getD []).map fun iri => classTriple scope.subject (.iri iri)

/-- The term of a scalar: a variable for the placeholder, and a constant for another. -/
def scalarTerm (value : Json) (frame : Frame) : Term :=
  match value.isPlaceholder, value.scalar? with
  | false, some scalar => (scalar.constant frame.context frame.coercion).1
  | _, _ => .var frame.target

/-- The term of a value object, by what it holds. -/
def valueObjectTerm (context : Context) (target : Variable) (entries : List (String × Json)) :
    Term :=
  match context.entryFor? entries .value with
  | some (key, value) =>
    if value.isPlaceholder then .var target
    else (ValueObject.constantOf context target entries key value).1
  | none => .var target

/-- The term that a plain value stands for: what a node is called, the constant of a scalar or of a
value object, or else a variable. -/
def valueTerm (setup : Setup) (value : Json) (frame : Frame) : Term :=
  match setup.enter frame.context (value.entry? Keyword.context.text) with
  | .ok own =>
    match own.shape value, value with
    | .nodeObject, .object entries => (scopeOf own frame.target entries).subject
    | .valueObject, .object entries => valueObjectTerm own frame.target entries
    | .scalar, _ => scalarTerm value frame
    | _, _ => .var frame.target
  | .error _ => .var frame.target

/-- Whether a value is a node object. -/
def isNode (setup : Setup) (value : Json) (frame : Frame) : Bool :=
  match setup.enter frame.context (value.entry? Keyword.context.text) with
  | .ok own => own.shape value == .nodeObject
  | .error _ => false

/-- The triple that leads to the value of a link, with the triples of the value behind it; nothing
leads to null. -/
def linkTriples (setup : Setup) (subject : Term) (link : Link) (value : Json) (frame : Frame)
    (nested : List Triple) : List Triple :=
  if value.kind = .null then []
  else
    propertyTriple subject link.iri link.reverse (valueTerm setup value frame)
      :: if isNode setup value frame then nested else []

/-- The triples of a row, when those of its value are known in every frame. -/
def rowTriples (setup : Setup) (scope : Scope) (row : Row) (nested : Frame → List Triple) :
    List Triple :=
  match row.role, row.link? scope.context with
  | .type child, _ => typeTriples scope child row.value
  | _, some link =>
    match setup.enter scope.context link.definition.valueContext with
    | .ok inner =>
      let frame : Frame := ⟨link.child, inner, link.definition.coercion⟩
      linkTriples setup scope.subject link row.value frame (nested frame)
    | .error _ => []
  | _, none => []

mutual

/-- The triples of a node object, in the order of its entries, with those of each nested node object
behind the triple that leads to it. -/
def nodeTriples (setup : Setup) : Json → Frame → List Triple
  | .object entries, frame =>
    match setup.enter frame.context (entries.lookup Keyword.context.text) with
    | .ok context =>
      entryTriples setup (scopeOf context frame.target entries)
        (roles setup.naming context frame.target false {} (entries.map Prod.fst)) entries
    | .error _ => []
  | _, _ => []
termination_by structural value => value

/-- The triples of entries with their roles. -/
def entryTriples (setup : Setup) (scope : Scope) :
    List Role → List (String × Json) → List Triple
  | role :: roles, (key, value) :: entries =>
    rowTriples setup scope ⟨role, key, value⟩ (nodeTriples setup value)
      ++ entryTriples setup scope roles entries
  | _, _ => []
termination_by structural _ entries => entries

end

/-- The triples of entries are those of their rows. -/
theorem entryTriples_eq (setup : Setup) (scope : Scope) (roles : List Role)
    (entries : List (String × Json)) :
  entryTriples setup scope roles entries = (rowsOf roles entries).flatMap fun row =>
    rowTriples setup scope row (nodeTriples setup row.value)
  := by
  induction entries generalizing roles with
  | nil =>
      cases roles with
      | _ => rfl
  | cons entry entries ih =>
      obtain ⟨key, value⟩ := entry
      cases roles with
      | nil => rfl
      | cons role roles =>
          rw [entryTriples, ih]
          simp only [rowsOf, List.zipWith_cons_cons, List.flatMap_cons]

/-! ### Plain node objects -/

/-- Whether a value is plain, when it is known whether it is a plain node object. -/
def valueIsPlain (setup : Setup) (value : Json) (frame : Frame) (nested : Bool) : Bool :=
  match setup.enter frame.context (value.entry? Keyword.context.text) with
  | .ok own => (own.shape value).isPlain && (own.shape value != .nodeObject || nested)
  | .error _ => false

/-- Whether a row is plain: it does not ask for all classes, or the term of its link declares no
list, no set and no graph, and its value is plain. -/
def Row.isPlain (setup : Setup) (context : Context) (row : Row) (nested : Frame → Bool) : Bool :=
  match row.role, row.link? context with
  | .type _, _ => !row.value.asksAll
  | _, some link =>
    !link.definition.has .list && !link.definition.has .set && !link.definition.has .graph &&
      match setup.enter context link.definition.valueContext with
      | .ok inner =>
        let frame : Frame := ⟨link.child, inner, link.definition.coercion⟩
        valueIsPlain setup row.value frame (nested frame)
      | .error _ => false
  | _, none => true

mutual

/-- Whether a value is a node object whose entries are plain. -/
def isPlain (setup : Setup) : Json → Frame → Bool
  | .object entries, frame =>
    match setup.enter frame.context (entries.lookup Keyword.context.text) with
    | .ok context =>
      entriesArePlain setup context
        (roles setup.naming context frame.target false {} (entries.map Prod.fst)) entries
    | .error _ => false
  | _, _ => false
termination_by structural value => value

/-- Whether entries with their roles are plain. -/
def entriesArePlain (setup : Setup) (context : Context) :
    List Role → List (String × Json) → Bool
  | role :: roles, (key, value) :: entries =>
    Row.isPlain setup context ⟨role, key, value⟩ (isPlain setup value)
      && entriesArePlain setup context roles entries
  | _, _ => true
termination_by structural _ entries => entries

end

/-- Entries are plain when their rows are. -/
theorem entriesArePlain_eq (setup : Setup) (context : Context) (roles : List Role)
    (entries : List (String × Json)) :
  entriesArePlain setup context roles entries
    = (rowsOf roles entries).all fun row => row.isPlain setup context (isPlain setup row.value)
  := by
  induction entries generalizing roles with
  | nil =>
      cases roles with
      | _ => rfl
  | cons entry entries ih =>
      obtain ⟨key, value⟩ := entry
      cases roles with
      | nil => rfl
      | cons role roles =>
          rw [entriesArePlain, ih]
          simp only [rowsOf, List.zipWith_cons_cons, List.all_cons]

/-- The rows of a plain node object are plain. -/
theorem isPlain_object {setup : Setup} {entries : List (String × Json)} {frame : Frame} :
  isPlain setup (.object entries) frame = true ↔ ∃ context,
    setup.enter frame.context (entries.lookup Keyword.context.text) = .ok context ∧
      ∀ row ∈ rows setup.naming context frame.target entries,
        row.isPlain setup context (isPlain setup row.value) = true
  := by
  rw [isPlain]
  cases setup.enter frame.context (entries.lookup Keyword.context.text) with
  | error fault => simp
  | ok context => simp [entriesArePlain_eq, rows]

/-- Whether a share is nothing but some triples that are required. -/
structure Share.Flat (share : Share) (triples : List Triple) : Prop where
  required : ∃ parts : List (List Triple), share.required = parts.map .basic ∧
    parts.flatten = triples
  optional : share.optional = []

/-! ### Rows without links -/

section Rows

variable {scope : Scope}

theorem Share.flat_warn (key : String) (value : Json) (notice : Notice) :
  (Share.warn key value notice).Flat []
  := ⟨⟨[], rfl, rfl⟩, rfl⟩

theorem Share.flat_keep (value : Json) :
  (Share.keep value).Flat []
  := ⟨⟨[], rfl, rfl⟩, rfl⟩

/-- The classes of a node are required, unless all of them are asked for. -/
theorem flat_typeShare (child : Variable) (key : String) {value : Json}
    (plain : value.asksAll = false) :
  (typeShare scope child key value).Flat (typeTriples scope child value)
  := by
  cases value with
  | string text =>
      by_cases hplaceholder : text = placeholder
      · subst hplaceholder
        exact ⟨⟨[_], rfl, rfl⟩, rfl⟩
      · simp only [typeShare, typeTriples, classesOf?, Json.isPlaceholder, beq_iff_eq, hplaceholder,
          if_false]
        cases classOf? scope.context (.string text) with
        | none => apply Share.flat_warn
        | some iri => exact ⟨⟨[_], rfl, rfl⟩, rfl⟩
  | array items =>
      have hsingle : ¬ (items.length = 1 && items.all Json.isPlaceholder) = true := by
        simp only [Bool.and_eq_true, decide_eq_true_eq, List.length_eq_one_iff]
        rintro ⟨⟨item, rfl⟩, hall⟩
        simp_all [Json.asksAll]
      simp only [typeShare, typeTriples, classesOf?, Json.isPlaceholder, hsingle, if_false,
        Bool.false_eq_true]
      cases items.mapM (classOf? scope.context) with
      | none => apply Share.flat_warn
      | some classes => exact ⟨⟨[_], rfl, by simp⟩, rfl⟩
  | _ => apply Share.flat_warn

/-- A row without a link has the triples of its classes, if it is for classes, and no others. -/
theorem Row.flat_plainShare {setup : Setup} {row : Row} (bare : row.link? scope.context = none)
    {known : Frame → Bool} (plain : row.isPlain setup scope.context known = true)
    (nested : Frame → List Triple) :
  (row.plainShare scope).Flat (rowTriples setup scope row nested)
  := by
  rw [isPlain, bare] at plain
  rw [rowTriples, bare]
  obtain ⟨role, key, value⟩ := row
  cases role with
  | context => apply Share.flat_keep
  | id =>
      simp only [plainShare, idShare]
      split
      · exact ⟨⟨[], rfl, rfl⟩, rfl⟩
      · apply Share.flat_warn
      · apply Share.flat_keep
  | type child => apply flat_typeShare child key (by simpa using plain)
  | property iri reverse child =>
      simp only [plainShare]
      split
      · apply Share.flat_warn
      · apply Share.flat_warn
  | _ => apply Share.flat_warn

end Rows

/-! ### Rows with links -/

section Links

variable {setup : Setup} {value : Json} {frame : Frame} {own : Context} {item : Match}

/-- A scalar has its term and no pattern. -/
theorem match_scalar (h : setup.run ⟨.production .scalar, value, frame⟩ = .ok item) :
  item.term = scalarTerm value frame ∧ item.pattern = .empty
  := by
  rw [run_scalar] at h
  rw [scalarTerm]
  split at h
  case isTrue hplaceholder =>
    rw [← Except.ok.inj h, hplaceholder]
    exact ⟨rfl, rfl⟩
  case isFalse hplaceholder =>
    rw [Bool.not_eq_true] at hplaceholder
    cases hscalar : value.scalar? with
    | none => simp [hscalar] at h
    | some scalar =>
        rw [hscalar] at h
        rw [← Except.ok.inj h, hplaceholder]
        exact ⟨rfl, rfl⟩

/-- A value object has its term and no pattern. -/
theorem match_valueObject {entries : List (String × Json)}
    (entered : setup.enter frame.context (entries.lookup Keyword.context.text) = .ok own)
    (h : setup.run ⟨.production .valueObject, .object entries, frame⟩ = .ok item) :
  item.term = valueObjectTerm own frame.target entries ∧ item.pattern = .empty
  := by
  rw [run_valueObject, entered, ok_bind] at h
  rw [valueObjectTerm]
  cases hvalue : own.entryFor? entries .value with
  | none => simp [hvalue] at h
  | some entry =>
      rw [hvalue] at h
      rw [← Except.ok.inj h]
      cases hplaceholder : entry.2.isPlaceholder with
      | _ => simp [ValueObject.matchOf, hplaceholder]

/-- A node object has its subject for its term. -/
theorem term_nodeObject {entries : List (String × Json)}
    (entered : setup.enter frame.context (entries.lookup Keyword.context.text) = .ok own)
    (h : setup.run ⟨.production .nodeObject, .object entries, frame⟩ = .ok item) :
  item.term = (scopeOf own frame.target entries).subject
  := by
  rw [run_nodeObject, entered, ok_bind] at h
  obtain ⟨found, -, h⟩ := bind_eq_ok.mp h
  rw [← Except.ok.inj h, assemble]

/-- A plain value has its term, and only a node object has a pattern. -/
theorem match_entryValue (plain : valueIsPlain setup value frame (isPlain setup value frame) = true)
    (node : isPlain setup value frame = true →
      ∀ {found}, setup.run ⟨.production .nodeObject, value, frame⟩ = .ok found →
        found.pattern = .basic (nodeTriples setup value frame))
    (h : setup.run ⟨.production .entryValue, value, frame⟩ = .ok item) :
  item.term = valueTerm setup value frame ∧
    item.pattern = .basic (if isNode setup value frame then nodeTriples setup value frame else [])
  := by
  rw [run_entryValue] at h
  obtain ⟨own, entered, h⟩ := bind_eq_ok.mp h
  simp only [valueIsPlain, entered] at plain
  simp only [valueTerm, isNode, entered]
  cases value with
  | null =>
      rw [← Except.ok.inj h]
      exact ⟨rfl, rfl⟩
  | array items => cases plain
  | object entries =>
      rcases own.shape_object entries with hshape | hshape | hshape | hshape | hshape
      all_goals
        rw [hshape] at plain h ⊢
      · cases plain
      · apply match_valueObject entered h
      · cases plain
      · rw [← Except.ok.inj ((run_setObject ..).symm.trans h)]
        exact ⟨rfl, rfl⟩
      · exact ⟨term_nodeObject entered h, node plain h⟩
  | _ => apply match_scalar h

/-- An array is not plain. -/
theorem kind_of_valueIsPlain {nested : Bool}
    (plain : valueIsPlain setup value frame nested = true) :
  value.kind ≠ .array
  := by
  cases value with
  | array items =>
      rw [valueIsPlain] at plain
      split at plain
      · cases plain
      · cases plain
  | _ => simp [Json.kind]

/-- A value whose term declares no container is visited as an entry value. -/
theorem Link.visit_of_bare {link : Link} (list : link.definition.has .list = false)
    (graph : link.definition.has .graph = false) (inner : Context) (value : Json) :
  link.visit inner value
    = ⟨.production .entryValue, value, ⟨link.child, inner, link.definition.coercion⟩⟩
  := by
  simp [visit, task, list, graph]

/-- The share of a link to a plain value is the triple that leads to the value, with the triples of
the value behind it. -/
theorem Link.flat_share {link : Link} {inner : Context} {scope : Scope} {key : String}
    {triples : List Triple} (set : link.definition.has .set = false)
    (graph : link.definition.has .graph = false) (array : value.kind ≠ .array)
    (term : item.term = valueTerm setup value frame)
    (pattern : item.pattern = .basic (if isNode setup value frame then triples else [])) :
  (link.share scope.subject key (inner.shape value) item).Flat
    (linkTriples setup scope.subject link value frame triples)
  := by
  have hfragment : link.fragment scope.subject item
      = .basic (propertyTriple scope.subject link.iri link.reverse (valueTerm setup value frame)
        :: if isNode setup value frame then triples else []) := by
    rw [fragment, term, pattern]
    apply (Pattern.joinAll_basics [[_], _]).trans
    simp
  by_cases hnull : value = .null
  · subst hnull
    exact ⟨⟨[], rfl, rfl⟩, rfl⟩
  · obtain ⟨hkind, hshape⟩ : value.kind ≠ .null ∧ inner.shape value ≠ .null
        ∧ inner.shape value ≠ .array := by
      cases value with
      | null => exact absurd rfl hnull
      | array items => exact absurd rfl array
      | object entries => exact ⟨by simp [Json.kind], inner.shape_object_ne entries⟩
      | _ => simp [Json.kind, Context.shape]
    have hoptional : isOptional link.definition (inner.shape value) = false := by
      simp [isOptional, set, graph, hshape.2]
    rw [linkTriples, if_neg hkind]
    refine ⟨⟨[_], ?_, List.flatten_singleton⟩, ?_⟩
    · simp [share, hshape.1, hoptional, hfragment]
    · simp [share, hshape.1, hoptional]

/-- A row with a link has the triples of its link. -/
theorem rowTriples_of_link {scope : Scope} {row : Row} {link : Link} {inner : Context}
    (linked : row.link? scope.context = some link)
    (entered : setup.enter scope.context link.definition.valueContext = .ok inner)
    (nested : Frame → List Triple) :
  rowTriples setup scope row nested
    = linkTriples setup scope.subject link row.value
        ⟨link.child, inner, link.definition.coercion⟩
        (nested ⟨link.child, inner, link.definition.coercion⟩)
  := by
  simp only [rowTriples, Row.role_of_link linked, linked, entered]

/-! ### Node objects -/

/-- What flat shares require are basic patterns of their triples. -/
theorem exists_parts_of_flat {scope : Scope} {branches : List Branch}
    {triples : Branch → List Triple}
    (flat : ∀ branch ∈ branches, (branch.share scope).Flat (triples branch)) :
  ∃ parts : List (List Triple),
    (branches.flatMap fun branch => (branch.share scope).required) = parts.map .basic ∧
      parts.flatten = branches.flatMap triples
  := by
  induction branches with
  | nil => exact ⟨[], rfl, rfl⟩
  | cons branch branches ih =>
      obtain ⟨first, hfirst, hflatten⟩ := (flat branch List.mem_cons_self).required
      obtain ⟨rest, hrest, hflatten'⟩ := ih fun branch hbranch =>
        flat branch (List.mem_cons_of_mem _ hbranch)
      use first ++ rest
      simp [hfirst, hrest, hflatten, hflatten']

/-- A node object of which all shares are flat is one basic pattern. -/
theorem pattern_matchOf_of_flat {context : Context} {target : Variable}
    {entries : List (String × Json)} {branches : List Branch} {triples : Branch → List Triple}
    (flat : ∀ branch ∈ branches,
      (branch.share (scopeOf context target entries)).Flat (triples branch)) :
  (matchOf context target entries branches).pattern = .basic (branches.flatMap triples)
  := by
  have hoptional : (branches.flatMap fun branch =>
      (branch.share (scopeOf context target entries)).optional) = [] := by
    rw [List.flatMap_eq_nil_iff]
    intro branch hbranch
    apply (flat branch hbranch).optional
  obtain ⟨parts, hparts, hflatten⟩ := exists_parts_of_flat flat
  simp only [matchOf, assemble, List.flatMap_map]
  rw [hoptional, hparts, Pattern.joinAll_basics, hflatten, List.foldl_nil]

/-- The share of a plain branch is flat, when the values of links have the patterns of their
triples. -/
theorem Branch.flat_share (scope : Scope) {branch : Branch}
    (fits : branch.Fits setup scope.context)
    (plain : branch.row.isPlain setup scope.context (isPlain setup branch.row.value) = true)
    (read : ∀ row link inner item log, branch = .linked row link inner item log →
      setup.run (link.visit inner row.value) = .ok item)
    (node : ∀ frame, isPlain setup branch.row.value frame = true →
      ∀ {found}, setup.run ⟨.production .nodeObject, branch.row.value, frame⟩ = .ok found →
        found.pattern = .basic (nodeTriples setup branch.row.value frame)) :
  (branch.share scope).Flat
    (rowTriples setup scope branch.row (nodeTriples setup branch.row.value))
  := by
  cases branch with
  | plain row => apply Row.flat_plainShare fits plain
  | linked row link inner item log =>
      obtain ⟨hlink, hinner⟩ := fits
      have hplain := plain
      simp only [Branch.row, Row.isPlain, Row.role_of_link hlink, hlink, hinner, Bool.and_eq_true,
        Bool.not_eq_true'] at hplain
      obtain ⟨⟨⟨hlist, hset⟩, hgraph⟩, hvalue⟩ := hplain
      have hitem := read row link inner item log rfl
      rw [Link.visit_of_bare hlist hgraph] at hitem
      obtain ⟨hterm, hpattern⟩ := match_entryValue hvalue (node _) hitem
      rw [Branch.row, rowTriples_of_link hlink hinner]
      apply Link.flat_share hset hgraph (kind_of_valueIsPlain hvalue) hterm hpattern

/-- The pattern of a plain node object is that of its triples. -/
theorem pattern_eq_of_isPlain {value : Json} {frame : Frame} {found : Match}
    (plain : isPlain setup value frame = true)
    (h : setup.run ⟨.production .nodeObject, value, frame⟩ = .ok found) :
  found.pattern = .basic (nodeTriples setup value frame)
  := by
  cases value with
  | object entries =>
      obtain ⟨log, derived⟩ := exists_derives _ _ h
      obtain ⟨context, branches, reads, visited, rfl⟩ := exists_reads derived
      obtain ⟨context', entered, hrows⟩ := isPlain_object.mp plain
      obtain rfl : context' = context := Except.ok.inj (entered.symm.trans reads.entered)
      let scope := scopeOf context' frame.target entries
      have hflat : ∀ branch ∈ branches, (branch.share scope).Flat
          (rowTriples setup scope branch.row (nodeTriples setup branch.row.value)) := by
        intro branch hbranch
        have hrow : branch.row ∈ rows setup.naming context' frame.target entries := by
          rw [← reads.rows_eq]
          apply List.mem_map_of_mem hbranch
        apply Branch.flat_share scope (reads.fits branch hbranch) (hrows _ hrow)
        · intro row link inner item log heq
          apply (visited row link inner item log (heq ▸ hbranch)).run
        · intro inner hplain item hitem
          have := sizeOf_entry_lt (mem_entries_of_mem_rows hrow)
          apply pattern_eq_of_isPlain hplain hitem
      rw [pattern_matchOf_of_flat hflat, nodeTriples, entered]
      simp only [entryTriples_eq]
      rw [← rows, ← reads.rows_eq, List.flatMap_map]
  | _ => cases plain
termination_by sizeOf value

end Links

end NodeObject

/-! ### Documents -/

/-- The query of a plain document asks for the triples of its node object and nothing else. -/
theorem plain_flattened (setup : Setup) {entries : List (String × Json)} {query : Query}
    (bare : ∀ context, setup.enter {} (entries.lookup Keyword.context.text) = .ok context →
      context.entryFor? entries .graph = none)
    (plain : NodeObject.isPlain setup (.object entries)
      ⟨setup.naming.rootVariable, {}, none⟩ = true)
    (h : setup.grammar.query (.object entries) = .ok query) :
  ∃ selected, query.pattern = .project (.basic (NodeObject.nodeTriples setup (.object entries)
    ⟨setup.naming.rootVariable, {}, none⟩)) selected
  := by
  obtain ⟨found, log, derived, rfl⟩ := query_eq_ok.mp h
  obtain ⟨context, entered⟩ : ∃ context,
      setup.enter {} (entries.lookup Keyword.context.text) = .ok context := by
    obtain ⟨context, entered, -⟩ := NodeObject.isPlain_object.mp plain
    use context, entered
  have step : Leads setup (setup.documentVisit (.object entries)) _ id :=
    .document entered (bare context entered)
  obtain ⟨item, hitem, hfound⟩ := step.run_eq_ok.mp derived.run
  use distinct found.projections
  rw [Match.query, hfound, id_eq, NodeObject.pattern_eq_of_isPlain plain hitem]

/-- A document about a pilot, who is named and whose ship is described within. -/
def luke : List (String × Json) :=
  [("@context", .object [("ship", .object [("@reverse", .string "ex:pilots")])]),
    ("ship", .object [("ex:model", .object [("@value", .string "X-wing")]), ("ex:crew", .null)]),
    ("ex:name", .string "?"), ("@id", .string "ex:luke"), ("@type", .string "ex:Human")]

/-- The triples of the ship are behind the triple that leads to it, and the pilot stands as the IRI
in all triples, though the entry for it comes after others. -/
theorem plain_flattened_luke :
  ∃ query selected, ({} : Setup).grammar.query (.object luke) = .ok query ∧
    query.pattern = .project (.basic [
      ⟨.var ⟨"root·pilots"⟩, .iri "ex:pilots", .iri "ex:luke"⟩,
      ⟨.var ⟨"root·pilots"⟩, .iri "ex:model", .literal (.plain "X-wing")⟩,
      ⟨.iri "ex:luke", .iri "ex:name", .var ⟨"root·name"⟩⟩,
      ⟨.iri "ex:luke", .iri Vocabulary.rdfType, .iri "ex:Human"⟩]) selected
  := by
  have hplain : NodeObject.isPlain {} (.object luke) ⟨⟨"root"⟩, {}, none⟩ = true := by
    decide +kernel
  have hcontext : (({} : Setup).enter {} (luke.lookup Keyword.context.text)).toOption.map
      (fun context => (context.entryFor? luke .graph).isNone) = some true := by
    decide +kernel
  have houtcome : (({} : Setup).grammar.query (.object luke)).toOption.map Query.projections
      = some [⟨"root·name"⟩] := by
    decide +kernel
  obtain ⟨context, entered, hgraph⟩ := exists_of_outcome _ _ hcontext
  obtain ⟨query, h, -⟩ := exists_of_outcome _ _ houtcome
  obtain ⟨selected, hpattern⟩ := plain_flattened {} (by
    intro context' entered'
    obtain rfl := Except.ok.inj (entered.symm.trans entered')
    exact Option.isNone_iff_eq_none.mp hgraph) hplain h
  use query, selected, h
  rw [hpattern]
  congr 2
  decide +kernel

end LinkedQuery
