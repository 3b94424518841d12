import LinkedQuery.Proofs.Reading.Trim

/-!
# Declared containers

A term can declare that its values are lists or graphs, and a value can show that it is one, as an
object with the value under the keyword.  `NodeObject.container_shown` says that it makes no
difference to the pattern and the selected variables which of the two is done: only the template has
the object around it, and the paths of the warnings lead through it.
-/

namespace LinkedQuery

/-- The ways to group values that a term can declare and a value can show. -/
inductive Grouping where
  | list
  | graph
deriving DecidableEq, Repr

namespace Grouping

def keyword : Grouping → Keyword
  | .list => .list
  | .graph => .graph

def container : Grouping → Container
  | .list => .list
  | .graph => .graph

/-- The other way. -/
def other : Grouping → Grouping
  | .list => .graph
  | .graph => .list

/-- The shape of values that show the grouping. -/
def shape : Grouping → Shape
  | .list => .listObject
  | .graph => .graphObject

/-- The object that shows the grouping of a value. -/
def wrap (grouping : Grouping) (value : Json) : Json :=
  .object [(grouping.keyword.text, value)]

theorem shape_wrap (grouping : Grouping) (context : Context) (value : Json) :
  context.shape (grouping.wrap value) = grouping.shape
  := by
  cases grouping with
  | _ => simp [wrap, keyword, shape, Context.shape, Context.objectShape, Context.entryFor?_text]

end Grouping

/-! ### Values -/

/-- A match of the only entry of an object, as one of the object. -/
def Match.wrapped (key : String) (found : Match) : Match :=
  { found with
    template := .object [(key, found.template)]
    warnings := nestAll (.key key) found.warnings }

/-- A warning about the value under a key, as one about the value under another key within it. -/
def Warning.lowered (key : String) (warning : Warning) : Warning :=
  { warning with path := warning.path.take 1 ++ .key key :: warning.path.drop 1 }

theorem ListObject.matchOf_text (key : String) (members : Json) (list : Match) :
  matchOf [(key, members)] key list = list.wrapped key
  := by
  simp [matchOf, Match.wrapped, Template.around]

/-- A graph without a name is called by its variable. -/
theorem GraphObject.matchOf_text (context : Context) (target : Variable) (graph : Json)
    (members : Match) :
  matchOf context target [(Keyword.graph.text, graph)] Keyword.graph.text members
    = (ofMembers target members).wrapped Keyword.graph.text
  := by
  have hidentity : identityOf context [(Keyword.graph.text, graph)] = none := by
    simp [identityOf, Context.entryFor?_text]
  simp [matchOf, hidentity, Identity.name, Name.term, shareOf, ofMembers, Match.wrapped]

namespace NodeObject

section Values

variable {setup : Setup} {link : Link} {inner : Context} {grouping : Grouping} {value : Json}

/-- A value under a term that declares its grouping is read like the object that shows it. -/
theorem Link.run_wrap (declared : link.definition.has grouping.container = true)
    (sole : link.definition.has grouping.other.container = false)
    (present : inner.shape value ≠ .null) (hidden : inner.shape value ≠ grouping.shape) :
  setup.run (link.visit inner (grouping.wrap value))
    = (do
        let item ← setup.run (link.visit inner value)
        .ok (item.wrapped grouping.keyword.text))
  := by
  have hshown : link.task grouping.shape = .production .entryValue := by
    cases grouping with
    | _ => simp_all [task, Grouping.shape, Grouping.other, Grouping.container]
  rw [visit, grouping.shape_wrap, hshown]
  cases grouping with
  | list =>
      have htask : link.task (inner.shape value) = .listMembers := by
        simp_all [task, Grouping.shape, Grouping.other, Grouping.container]
      rw [visit, htask, Grouping.wrap, Grouping.keyword, run_entryValue_list]
      simp only [ListObject.matchOf_text]
      rfl
  | graph =>
      have htask : link.task (inner.shape value) = .graphValue := by
        simp_all [task, Grouping.shape, Grouping.container]
      rw [visit, htask, Grouping.wrap, Grouping.keyword, run_entryValue_graph]
      simp only [GraphObject.matchOf_text, run_graphValue]
      -- The members of a graph are not coerced.
      change (setup.run ⟨.graphMembers, value, ⟨link.child, inner, link.definition.coercion⟩⟩ >>= _)
        = _
      cases setup.run ⟨.graphMembers, value, ⟨link.child, inner, link.definition.coercion⟩⟩ with
      | error fault => rfl
      | ok members => rfl

/-! ### Entries -/

/-- The share of an entry, as that of an entry with an object around the value. -/
def Share.wrapped (key : String) (share : Share) : Share :=
  { share with
    template := .object [(key, share.template)]
    warnings := share.warnings.map (·.lowered key) }

/-- A value of a list or a graph has the same place, whether the term declares it or the value shows
it. -/
theorem isOptional_shape {definition : Definition}
    (declared : definition.has grouping.container = true)
    (sole : definition.has grouping.other.container = false) (shape : Shape) :
  isOptional definition shape = isOptional definition grouping.shape
  := by
  cases grouping with
  | _ => simp_all [isOptional, Grouping.shape, Grouping.container]

theorem Link.share_wrapped (declared : link.definition.has grouping.container = true)
    (sole : link.definition.has grouping.other.container = false)
    (present : inner.shape value ≠ .null) (subject : Term) (key : String) (item : Match) :
  link.share subject key grouping.shape (item.wrapped grouping.keyword.text)
    = (link.share subject key (inner.shape value) item).wrapped grouping.keyword.text
  := by
  have hshown : grouping.shape ≠ .null := by cases grouping <;> decide
  have hoptional := isOptional_shape declared sole (inner.shape value)
  simp [share, Share.wrapped, Match.wrapped, hshown, present, hoptional, nestAll, fragment,
    Warning.lowered, Warning.nest]

/-- The share of an entry with a link is the same, whether the term declares the grouping of the
value or the value shows it, but for the object around the value. -/
theorem share_wrap {scope : Scope} {row : Row} (linked : row.link? scope.context = some link)
    (opened : setup.enter scope.context link.definition.valueContext = .ok inner)
    (declared : link.definition.has grouping.container = true)
    (sole : link.definition.has grouping.other.container = false)
    (present : inner.shape row.value ≠ .null) (hidden : inner.shape row.value ≠ grouping.shape) :
  share setup scope row.role row.key (setup.grammar.element (grouping.wrap row.value))
    = (do
        let share ← share setup scope row.role row.key (setup.grammar.element row.value)
        .ok (share.wrapped grouping.keyword.text))
  := by
  have linked' : (Row.mk row.role row.key (grouping.wrap row.value)).link? scope.context
    = some link := linked
  have hshown := share_of_link setup linked'
  simp only [opened, ok_bind, grouping.shape_wrap, Link.run_wrap declared sole present hidden,
    bind_assoc, Link.share_wrapped declared sole present] at hshown
  rw [hshown, share_of_link setup linked]
  simp only [opened, ok_bind, bind_assoc]

end Values

/-! ### Node objects -/

/-- The shares of rows are those of the first rows and those of the others. -/
theorem shares_append (setup : Setup) (scope : Scope) (earlier later : List Row) :
  shares setup scope ((earlier ++ later).map Row.role)
      ((earlier ++ later).map fun row => (row.key, setup.grammar.element row.value))
    = (do
        let first ← shares setup scope (earlier.map Row.role)
          (earlier.map fun row => (row.key, setup.grammar.element row.value))
        let others ← shares setup scope (later.map Row.role)
          (later.map fun row => (row.key, setup.grammar.element row.value))
        .ok (first ++ others))
  := by
  induction earlier with
  | nil =>
      simp only [List.nil_append, List.map_nil, shares, ok_bind]
      cases shares setup scope _ _ with
      | _ => rfl
  | cons row earlier ih =>
      simp only [List.cons_append, List.map_cons, shares, ih, bind_assoc, ok_bind]

section Entries

variable {setup : Setup} {frame : Frame} {context : Context} {before after : List (String × Json)}
  {row : Row} {link : Link} {inner : Context}

/-- Another value under a link is another value of its row; the other rows stay as they are. -/
theorem LinkedAt.exists_rows (linked : LinkedAt setup frame context before row after link inner) :
  ∃ earlier later, ∀ value,
    rows setup.naming context frame.target (before ++ (row.key, value) :: after)
      = earlier ++ { row with value := value } :: later
  := by
  have hheld := linked.held
  have hroles := map_role_rows setup.naming context frame.target (before ++ row.entry :: after)
  obtain ⟨earlier, rest, hrows, rfl, hrest⟩ := List.map_eq_append_iff.mp
    (map_entry_rows setup.naming context frame.target (before ++ row.entry :: after))
  obtain ⟨other, later, rfl, -, rfl⟩ := List.map_eq_cons_iff.mp hrest
  have hkeys : (earlier.map Row.entry ++ row.entry :: later.map Row.entry).map Prod.fst
      = earlier.map Row.key ++ row.key :: later.map Row.key := by
    rw [List.map_append, List.map_cons, List.map_map, List.map_map]
    rfl
  rw [hrows, hkeys] at hroles
  rw [hkeys, ← hroles] at hheld
  have hrole : other.role = row.role := by simpa using hheld
  use earlier, later
  intro value
  have h := rows_map_entry setup.naming context frame.target
    (earlier ++ { row with value := value } :: later) (by simpa [hrole] using hroles)
  rw [List.map_append, List.map_cons] at h
  apply h

/-- What a node object makes of the share of an entry with a link, whatever the value. -/
theorem LinkedAt.exists_shares (linked : LinkedAt setup frame context before row after link inner) :
  ∃ first others : Except QueryFault (List (String × Share)), ∀ value,
    setup.run ⟨.production .nodeObject, .object (before ++ (row.key, value) :: after), frame⟩
      = (do
          let earlier ← first
          let share ← share setup (scopeOf context frame.target (before ++ row.entry :: after))
            row.role row.key (setup.grammar.element value)
          let later ← others
          .ok (assemble (scopeOf context frame.target (before ++ row.entry :: after))
            (earlier ++ (row.key, share) :: later)))
  := by
  obtain ⟨earlier, later, hrows⟩ := linked.exists_rows
  let scope := scopeOf context frame.target (before ++ row.entry :: after)
  use shares setup scope (earlier.map Row.role)
      (earlier.map fun row => (row.key, setup.grammar.element row.value)),
    shares setup scope (later.map Row.role)
      (later.map fun row => (row.key, setup.grammar.element row.value))
  intro value
  have hscope : scopeOf context frame.target (before ++ (row.key, value) :: after) = scope :=
    (linked.scopeOf_skip value).trans (linked.scopeOf_skip row.value).symm
  have entered := linked.entered
  rw [Row.entry, lookup_skip linked.key_ne, ← lookup_skip linked.key_ne _ _ value] at entered
  rw [run_nodeObject, entered, ok_bind]
  simp only [hscope, hrows, shares_append, List.map_cons, shares, bind_assoc, ok_bind]
  rfl

/-- Whether a match of a node object is another one, but for an object around the value under a
key. -/
def Wraps (scope : Scope) (key within : String) (found wrapped : Match) : Prop :=
  ∃ earlier share later, found = assemble scope (earlier ++ (key, share) :: later) ∧
    wrapped = assemble scope (earlier ++ (key, share.wrapped within) :: later)

/-- An object around a value changes nothing but the template and the warnings. -/
theorem Wraps.same {scope : Scope} {key within : String} {found wrapped : Match}
    (wraps : Wraps scope key within found wrapped) :
  wrapped.term = found.term ∧ wrapped.pattern = found.pattern ∧
    wrapped.projections = found.projections
  := by
  obtain ⟨earlier, share, later, rfl, rfl⟩ := wraps
  simp [assemble, Share.wrapped]

/-- A value under a term that declares it a list or a graph, but not both, is translated like the
object that shows it: the entry adds the same patterns in the same places and the same selected
variables, and so the node object has the same pattern; the template of the value is within an
object with one key, and the paths of its warnings lead through that key.  The entry is any that has
a context for its value: that of a property whose IRI is valid and whose term declares no map. -/
theorem container_shown {grouping : Grouping}
    (linked : LinkedAt setup frame context before row after link inner)
    (declared : link.definition.has grouping.container = true)
    (sole : link.definition.has grouping.other.container = false)
    (present : inner.shape row.value ≠ .null) (hidden : inner.shape row.value ≠ grouping.shape) :
  let scope := scopeOf context frame.target (before ++ row.entry :: after)
  let node (value : Json) : Visit :=
    ⟨.production .nodeObject, .object (before ++ (row.key, value) :: after), frame⟩
  let shown := grouping.wrap row.value
  share setup scope row.role row.key (setup.grammar.element shown)
      = (do
          let share ← share setup scope row.role row.key (setup.grammar.element row.value)
          .ok (share.wrapped grouping.keyword.text)) ∧
    (∀ fault, setup.run (node shown) = .error fault ↔ setup.run (node row.value) = .error fault) ∧
    ∀ found, setup.run (node row.value) = .ok found →
      ∃ wrapped, setup.run (node shown) = .ok wrapped ∧
        Wraps scope row.key grouping.keyword.text found wrapped ∧ wrapped.term = found.term ∧
        wrapped.pattern = found.pattern ∧ wrapped.projections = found.projections
  := by
  intro scope node shown
  have hshare : share setup scope row.role row.key (setup.grammar.element shown) = _ :=
    share_wrap linked.linked linked.opened declared sole present hidden
  obtain ⟨first, others, hrun⟩ := linked.exists_shares
  have hnode : setup.run (node row.value) = _ := hrun row.value
  have hshown : setup.run (node shown) = _ := hrun shown
  simp only [scope] at hshare
  simp only [hshare, bind_assoc, ok_bind] at hshown
  use hshare
  constructor
  · intro fault
    simp only [hnode, hshown, bind_eq_error, reduceCtorEq]
  · intro found h
    rw [hnode] at h
    obtain ⟨earlier, hearlier, h⟩ := bind_eq_ok.mp h
    obtain ⟨share, hheld, h⟩ := bind_eq_ok.mp h
    obtain ⟨later, hlater, h⟩ := bind_eq_ok.mp h
    rw [Except.ok.injEq] at h
    have wraps : Wraps scope row.key grouping.keyword.text found _ :=
      ⟨earlier, share, later, h.symm, rfl⟩
    refine ⟨_, ?_, wraps, wraps.same⟩
    rw [hshown, hearlier, ok_bind, hheld, ok_bind, hlater, ok_bind]

end Entries

/-- The term for the tracks of a record, which are a list. -/
def trackDefinition : Definition where
  iri := some "ex:track"
  containers := [.list]

/-- A record is read where the term for its tracks is defined. -/
def recordFrame : Frame where
  target := ⟨"root"⟩
  context := { terms := [("track", trackDefinition)] }

/-- A record with its title and tracks. -/
def recordOf (tracks : Json) : Json :=
  .object [("ex:title", .string "?"), ("track", tracks)]

theorem linkedAt_record (tracks : Json) :
  LinkedAt {} recordFrame recordFrame.context [("ex:title", .string "?")]
    ⟨.property "ex:track" false ⟨"root·track"⟩, "track", tracks⟩ []
    ⟨"ex:track", false, ⟨"root·track"⟩, trackDefinition⟩ recordFrame.context
  where
  entered := rfl
  held := by
    simp only [Row.entry, List.cons_append, List.nil_append, List.map_cons, List.map_nil]
    decide +kernel
  linked := by
    have valid : Iri.isValid "ex:track" = true := by decide +kernel
    simp only [Row.link?, valid]
    rfl
  opened := rfl

/-- Tracks of which all are asked for are translated the same in an array and in a list object. -/
theorem container_shown_record :
  ∃ found wrapped,
    Setup.run {} ⟨.production .nodeObject, recordOf (.array [.string "?"]), recordFrame⟩
        = .ok found ∧
    Setup.run {} ⟨.production .nodeObject,
        recordOf (.object [("@list", .array [.string "?"])]), recordFrame⟩ = .ok wrapped ∧
    found.projections = [⟨"root·title"⟩, ⟨"root·track·item"⟩, ⟨"root·track·item"⟩] ∧
    wrapped.pattern = found.pattern ∧ wrapped.projections = found.projections
  := by
  have houtcome : (Setup.run {} ⟨.production .nodeObject, recordOf (.array [.string "?"]),
      recordFrame⟩).toOption.map Match.projections
        = some [⟨"root·title"⟩, ⟨"root·track·item"⟩, ⟨"root·track·item"⟩] := by
    decide +kernel
  obtain ⟨found, h, hselected⟩ := exists_of_outcome _ _ houtcome
  have declared : trackDefinition.has Grouping.list.container = true := rfl
  have sole : trackDefinition.has Grouping.list.other.container = false := rfl
  obtain ⟨-, -, hshown⟩ := container_shown (linkedAt_record (.array [.string "?"])) declared sole
    (by simp [Context.shape]) (by simp [Context.shape, Grouping.shape])
  obtain ⟨wrapped, h', -, -, hpattern, hprojections⟩ := hshown found h
  use found, wrapped, h, h', hselected, hpattern, hprojections

end NodeObject

end LinkedQuery
