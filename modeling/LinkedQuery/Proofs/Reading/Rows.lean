import LinkedQuery.Proofs.Reading.Visit
import Mathlib.Tactic.Use

/-!
# Rows of node objects

A `Row` is an entry of a node object with its role.  A row is either plain, and then its share is a
function of the row, or it has a `Link`, the property that leads to its value; then the value is
visited, and the share is a function of the row and the match of the value.  A `Branch` is a row
with what the visit to its value gave, and `run_nodeObject` reads a node object as a list of
branches.
-/

namespace LinkedQuery

/-- The visits that a reading has led to, with their matches. -/
abbrev Log := List (Visit × Match)

namespace NodeObject

/-- An entry of a node object with its role. -/
structure Row where
  role : Role
  key : String
  value : Json

/-- The entry of a row. -/
def Row.entry (row : Row) : String × Json :=
  (row.key, row.value)

/-- The rows of entries with some roles. -/
def rowsOf (given : List Role) (entries : List (String × Json)) : List Row :=
  List.zipWith (fun role entry => ⟨role, entry.1, entry.2⟩) given entries

/-- The rows of a node object. -/
def rows (naming : Naming) (context : Context) (target : Variable)
    (entries : List (String × Json)) : List Row :=
  rowsOf (roles naming context target false {} (entries.map Prod.fst)) entries

/-- A property that leads to a value that is read. -/
structure Link where
  iri : String
  reverse : Bool
  child : Variable
  definition : Definition

namespace Row

/-- The link of a row: its role is a property, whose IRI is valid and whose term declares no map. -/
def link? (context : Context) (row : Row) : Option Link :=
  match row.role with
  | .property iri reverse child =>
    let definition := (context.definition? row.key).getD {}
    if definition.mapKind? = none ∧ Iri.isValid iri then some ⟨iri, reverse, child, definition⟩
    else none
  | _ => none

/-- The share of a row without a link. -/
def plainShare (scope : Scope) (row : Row) : Share :=
  match row.role with
  | .context => .keep row.value
  | .id => idShare scope row.key row.value
  | .duplicateId => .warn row.key row.value .duplicateId
  | .type child => typeShare scope child row.key row.value
  | .unsupported keyword => .warn row.key row.value (.unsupportedEntry keyword.text)
  | .unmapped => .warn row.key row.value .unmappedKey
  | .property _ _ _ =>
    match ((scope.context.definition? row.key).getD {}).mapKind? with
    | some kind => .warn row.key row.value (.unsupportedMap kind)
    | none => .warn row.key row.value .invalidPredicate

end Row

namespace Link

/-- How the value of a link is read in its context. -/
def task (link : Link) (shape : Shape) : Task :=
  if link.definition.has .graph && shape != .graphObject && shape != .null then .graphValue
  else if link.definition.has .list && shape != .listObject && shape != .null then .listMembers
  else .production .entryValue

/-- The visit to the value of a link. -/
def visit (link : Link) (inner : Context) (value : Json) : Visit where
  task := link.task (inner.shape value)
  value := value
  frame := ⟨link.child, inner, link.definition.coercion⟩

/-- What a link and the match of its value add to the pattern of the node. -/
def fragment (link : Link) (subject : Term) (item : Match) : Pattern :=
  .joinAll [.basic [propertyTriple subject link.iri link.reverse item.term], item.pattern]

/-- The share of a link whose value has a match. -/
def share (link : Link) (subject : Term) (key : String) (shape : Shape) (item : Match) : Share :=
  let optional := isOptional link.definition shape
  { template := item.template
    required := if shape = .null || optional then [] else [link.fragment subject item]
    optional := if shape = .null || !optional then [] else [link.fragment subject item]
    projections := item.projections
    warnings := nestAll (.key key) item.warnings }

end Link

/-- A row with what the visit to its value gave. -/
inductive Branch where
  | plain (row : Row)
  | linked (row : Row) (link : Link) (inner : Context) (item : Match) (log : Log)

namespace Branch

def row : Branch → Row
  | .plain row => row
  | .linked row _ _ _ _ => row

/-- What the row of a branch adds to the match of its node. -/
def share (scope : Scope) : Branch → Share
  | .plain row => row.plainShare scope
  | .linked row link inner item _ => link.share scope.subject row.key (inner.shape row.value) item

/-- The visits of a branch. -/
def log : Branch → Log
  | .plain _ => []
  | .linked row link inner item log => (link.visit inner row.value, item) :: log

/-- Whether a branch has the link of its row, and the context in which the value is visited. -/
def Fits (setup : Setup) (context : Context) : Branch → Prop
  | .plain row => row.link? context = none
  | .linked row link inner _ _ =>
    row.link? context = some link ∧
      setup.enter context link.definition.valueContext = .ok inner

end Branch

/-! ### Roles and rows -/

@[simp]
theorem length_roles (naming : Naming) (context : Context) (target : Variable) (named : Bool)
    (siblings : Siblings) (keys : List String) :
  (roles naming context target named siblings keys).length = keys.length
  := by
  induction keys generalizing named siblings with
  | nil => rfl
  | cons key keys ih =>
      simp only [roles]
      split
      all_goals simp [ih]

/-- Putting roles to entries loses neither. -/
theorem map_rowsOf :
    ∀ (given : List Role) (entries : List (String × Json)), given.length = entries.length →
      (rowsOf given entries).map Row.role = given
        ∧ (rowsOf given entries).map Row.entry = entries
  | [], [], _ => ⟨rfl, rfl⟩
  | role :: given, entry :: entries, h => by
      obtain ⟨hroles, hentries⟩ := map_rowsOf given entries (Nat.succ.inj h)
      simp only [rowsOf, List.zipWith_cons_cons, List.map_cons] at hroles hentries ⊢
      rw [hroles, hentries]
      constructor
      · rfl
      · rfl

theorem map_role_rows (naming : Naming) (context : Context) (target : Variable)
    (entries : List (String × Json)) :
  (rows naming context target entries).map Row.role
    = roles naming context target false {} (entries.map Prod.fst)
  := (map_rowsOf _ entries (by simp)).1

theorem map_entry_rows (naming : Naming) (context : Context) (target : Variable)
    (entries : List (String × Json)) :
  (rows naming context target entries).map Row.entry = entries
  := (map_rowsOf _ entries (by simp)).2

theorem map_element_rows (setup : Setup) (context : Context) (target : Variable)
    (entries : List (String × Json)) :
  (rows setup.naming context target entries).map
      (fun row => (row.key, setup.grammar.element row.value))
    = entries.map fun entry => (entry.1, setup.grammar.element entry.2)
  := by
  have h := congrArg (List.map fun entry => (entry.1, setup.grammar.element entry.2))
    (map_entry_rows setup.naming context target entries)
  rw [List.map_map] at h
  apply h

/-! ### Shares of rows -/

section Shares

variable (setup : Setup)

/-- The value of a link is read by a visit. -/
theorem readValue_eq_run (link : Link) (inner : Context) (value : Json) :
  readValue setup link.definition link.child inner (setup.grammar.element value)
    = setup.run (link.visit inner value)
  := by
  simp only [readValue, Link.visit, Link.task, Setup.value_element]
  split
  · rfl
  · split
    · rfl
    · rfl

/-- The share of a row without a link. -/
theorem share_of_plain {scope : Scope} {row : Row} (h : row.link? scope.context = none) :
  share setup scope row.role row.key (setup.grammar.element row.value) = .ok (row.plainShare scope)
  := by
  obtain ⟨role, key, value⟩ := row
  cases role with
  | property iri reverse child =>
      simp only [Row.link?, ite_eq_right_iff, reduceCtorEq, imp_false, not_and] at h
      simp only [share, propertyShare, Row.plainShare, Setup.value_element]
      cases hk : ((scope.context.definition? key).getD {}).mapKind? with
      | some kind => rfl
      | none => simp [h hk]
  | _ => simp [share, Row.plainShare]

/-- The share of a row with a link, once its value is visited. -/
theorem share_of_link {scope : Scope} {row : Row} {link : Link}
    (h : row.link? scope.context = some link) :
  share setup scope row.role row.key (setup.grammar.element row.value)
    = (do
        let inner ← setup.enter scope.context link.definition.valueContext
        let item ← setup.run (link.visit inner row.value)
        .ok (link.share scope.subject row.key (inner.shape row.value) item))
  := by
  obtain ⟨role, key, value⟩ := row
  cases role with
  | property iri reverse child =>
      simp only [Row.link?, Option.ite_none_right_eq_some, Option.some.injEq] at h
      obtain ⟨⟨hmap, hvalid⟩, rfl⟩ := h
      simp only [share, propertyShare, hmap, hvalid, ite_true, Setup.value_element,
        ← readValue_eq_run]
      rfl
  | _ => simp [Row.link?] at h

/-- The shares of branches, when the visits to their values give the matches that they hold. -/
theorem shares_of_branches (scope : Scope) :
    ∀ {branches : List Branch}, (∀ branch ∈ branches, branch.Fits setup scope.context) →
      (∀ row link inner item log, Branch.linked row link inner item log ∈ branches →
        setup.run (link.visit inner row.value) = .ok item) →
      shares setup scope (branches.map (·.row.role))
          (branches.map fun branch =>
            (branch.row.key, setup.grammar.element branch.row.value))
        = .ok (branches.map fun branch => (branch.row.key, branch.share scope))
  | [], _, _ => rfl
  | branch :: branches, fits, read => by
      have hfirst : share setup scope branch.row.role branch.row.key
          (setup.grammar.element branch.row.value) = .ok (branch.share scope) := by
        have hfits := fits branch List.mem_cons_self
        cases branch with
        | plain row => apply share_of_plain setup hfits
        | linked row link inner item log =>
            obtain ⟨hlink, hinner⟩ := hfits
            simp only [Branch.row, share_of_link setup hlink, hinner, ok_bind,
              read row link inner item log List.mem_cons_self]
            rfl
      have hothers := shares_of_branches scope (fun b hb => fits b (List.mem_cons_of_mem _ hb))
        (fun row link inner item log hb =>
          read row link inner item log (List.mem_cons_of_mem _ hb))
      simp only [List.map_cons, shares, hfirst, hothers, ok_bind]

/-- Shares come from branches.  What is known of all visits to the values of the rows is known of
the visits of the branches. -/
theorem exists_branches {scope : Scope} {P : Visit → Match → Log → Prop} :
    ∀ {given : List Row} {found : List (String × Share)},
      (∀ row ∈ given, ∀ task frame item, setup.run ⟨task, row.value, frame⟩ = .ok item →
        ∃ log, P ⟨task, row.value, frame⟩ item log) →
      shares setup scope (given.map Row.role)
          (given.map fun row => (row.key, setup.grammar.element row.value)) = .ok found →
      ∃ branches : List Branch, branches.map Branch.row = given ∧
        found = branches.map (fun branch => (branch.row.key, branch.share scope)) ∧
        (∀ branch ∈ branches, branch.Fits setup scope.context) ∧
        ∀ row link inner item log, Branch.linked row link inner item log ∈ branches →
          P (link.visit inner row.value) item log
  | [], found, _, h => by
      use []
      simp only [List.map_nil, shares, Except.ok.injEq] at h
      simp [h.symm]
  | row :: given, found, known, h => by
      simp only [List.map_cons, shares] at h
      obtain ⟨first, hfirst, h⟩ := bind_eq_ok.mp h
      obtain ⟨others, hothers, h⟩ := bind_eq_ok.mp h
      obtain ⟨branches, hrows, rfl, fits, read⟩ :=
        exists_branches (fun row hrow => known row (List.mem_cons_of_mem _ hrow)) hothers
      simp only [Except.ok.injEq] at h
      cases hlink : row.link? scope.context with
      | none =>
          rw [share_of_plain setup hlink, Except.ok.injEq] at hfirst
          use .plain row :: branches
          refine ⟨?_, ?_, List.forall_mem_cons.mpr ⟨hlink, fits⟩, ?_⟩
          · rw [List.map_cons, hrows, Branch.row]
          · rw [← h, ← hfirst]
            rfl
          · intro row' link inner item log hmem
            apply read row' link inner item log
            simpa using hmem
      | some link =>
          rw [share_of_link setup hlink] at hfirst
          obtain ⟨inner, hinner, hfirst⟩ := bind_eq_ok.mp hfirst
          obtain ⟨item, hitem, hfirst⟩ := bind_eq_ok.mp hfirst
          obtain ⟨log, hlog⟩ := known row List.mem_cons_self _ _ item hitem
          rw [Except.ok.injEq] at hfirst
          use .linked row link inner item log :: branches
          refine ⟨?_, ?_, List.forall_mem_cons.mpr ⟨⟨hlink, hinner⟩, fits⟩, ?_⟩
          · rw [List.map_cons, hrows, Branch.row]
          · rw [← h, ← hfirst]
            rfl
          · intro row' link' inner' item' log' hmem
            rcases List.mem_cons.mp hmem with heq | hmem
            · obtain ⟨rfl, rfl, rfl, rfl, rfl⟩ := Branch.linked.inj heq
              apply hlog
            · apply read row' link' inner' item' log' hmem

end Shares

/-! ### Classes -/

/-- What an entry for the classes of a node can be: the placeholder asks for a class, an array of
it for all classes, and other values give classes or are of no use. -/
inductive Classes (scope : Scope) (child : Variable) (key : String) : Json → Share → Prop where
  | asked :
      Classes scope child key (.string placeholder)
        { template := .name child
          required := [.basic [classTriple scope.subject (.var child)]]
          projections := [child] }
  | askedAll :
      Classes scope child key (.array [.string placeholder])
        { template := .array child (.name child)
          optional := [.basic [classTriple scope.subject (.var child)]]
          projections := [child] }
  | given (value : Json) (classes : List String) :
      Classes scope child key value
        { template := .value value
          required := [.basic (classes.map fun iri => classTriple scope.subject (.iri iri))] }
  | unusable (value : Json) : Classes scope child key value (.warn key value .unusableType)

theorem typeShare_classes (scope : Scope) (child : Variable) (key : String) (value : Json) :
  Classes scope child key value (typeShare scope child key value)
  := by
  unfold typeShare
  split
  · split
    case isTrue h =>
      subst h
      apply Classes.asked
    case isFalse =>
      split
      · apply Classes.given
      · apply Classes.unusable
  case h_2 items =>
    split
    case isTrue h =>
      simp only [Bool.and_eq_true, decide_eq_true_eq, List.length_eq_one_iff] at h
      obtain ⟨⟨item, rfl⟩, hall⟩ := h
      obtain rfl : item = .string placeholder := Json.eq_placeholder (by simpa using hall)
      apply Classes.askedAll
    case isFalse =>
      split
      · apply Classes.given
      · apply Classes.unusable
  · apply Classes.unusable

/-! ### Node objects -/

/-- What the entries of a node object have in common. -/
def scopeOf (context : Context) (target : Variable) (entries : List (String × Json)) : Scope where
  target := target
  context := context
  identity := (context.entryFor? entries .id).map fun entry => context.identity entry.2

/-- A node object is read row by row. -/
theorem run_nodeObject (setup : Setup) (entries : List (String × Json)) (frame : Frame) :
  setup.run ⟨.production .nodeObject, .object entries, frame⟩
    = (do
        let context ← setup.enter frame.context (entries.lookup Keyword.context.text)
        let scope := scopeOf context frame.target entries
        let given := rows setup.naming context frame.target entries
        let found ← shares setup scope (given.map Row.role)
          (given.map fun row => (row.key, setup.grammar.element row.value))
        .ok (assemble scope found))
  := by
  simp only [Setup.run]
  rw [Setup.read_direct setup _ _ _ (by decide) (by decide)]
  simp only [Grammar.directReadings, Setup.choose_grammar, read, Setup.value_parts,
    Parts.localContext?_object, Setup.entries_object, Context.entryFor?_map, Option.map_map,
    List.map_map, map_role_rows, scopeOf, Function.comp_def, Setup.value_element]
  congr 1
  funext context
  rw [map_element_rows]
  rfl

end NodeObject

end LinkedQuery
