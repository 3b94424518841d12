import LinkedQuery.Proofs.Reading.Log
import LinkedQuery.Proofs.Variables.Scope

/-!
# Trimmed documents

A node object is trimmed when its last entry, whose fragment is optional, is dropped.  `Trims` puts
the trimmed node in the place of the node in a document: the node is the root of the document, or
is reached from it through entries whose terms declare no container.  Neither the entry that is
dropped nor those on the way have keywords for keys, so the rest of the document is read as before.
-/

namespace LinkedQuery

/-! ### Entries without keywords -/

/-- An entry whose key is no keyword holds nothing for one. -/
theorem Context.entryFor?_skip {α : Type} {context : Context} {key : String} {keyword : Keyword}
    (h : context.meaning key ≠ .keyword keyword) (before after : List (String × α)) (value : α) :
  context.entryFor? (before ++ (key, value) :: after) keyword
    = context.entryFor? (before ++ after) keyword
  := by
  simp [Context.entryFor?, List.find?_append, h]

theorem lookup_skip {α : Type} {key text : String} (h : key ≠ text)
    (before after : List (String × α)) (value : α) :
  (before ++ (key, value) :: after).lookup text = (before ++ after).lookup text
  := by
  induction before with
  | nil =>
      have htest : (text == key) = false := beq_eq_false_iff_ne.mpr h.symm
      simp [List.lookup_cons, htest]
  | cons first before ih =>
      obtain ⟨firstKey, firstValue⟩ := first
      simp only [List.cons_append, List.lookup_cons, ih]

namespace NodeObject

section Roles

variable {naming : Naming} {context : Context} {target : Variable}

/-- The key of a property is no keyword. -/
theorem meaning_ne_keyword {named : Bool} {siblings : Siblings} {keys : List String} {index : Nat}
    {key iri : String} {reverse : Bool} {child : Variable} (hkey : keys[index]? = some key)
    (hrole : (roles naming context target named siblings keys)[index]?
      = some (.property iri reverse child)) (keyword : Keyword) :
  context.meaning key ≠ .keyword keyword
  := by
  induction keys generalizing named siblings index with
  | nil => simp at hkey
  | cons first keys ih =>
      simp only [roles] at hrole
      cases index with
      | zero =>
          obtain rfl : first = key := by simpa using hkey
          intro hmeaning
          rw [hmeaning] at hrole
          cases keyword
          case id => cases named <;> simp at hrole
          all_goals simp at hrole
      | succ index =>
          rw [List.getElem?_cons_succ] at hkey
          split at hrole
          all_goals
            rw [List.getElem?_cons_succ] at hrole
            apply ih hkey hrole

/-- The roles of the first keys do not depend on the others. -/
theorem roles_append (naming : Naming) (context : Context) (target : Variable) (named : Bool)
    (siblings : Siblings) (keys more : List String) :
  ∃ others, roles naming context target named siblings (keys ++ more)
    = roles naming context target named siblings keys ++ others
  := by
  induction keys generalizing named siblings with
  | nil =>
      use roles naming context target named siblings more
      rfl
  | cons key keys ih =>
      simp only [List.cons_append, roles]
      split
      all_goals
        obtain ⟨others, heq⟩ := ih _ _
        use others
        rw [heq, List.cons_append]

end Roles

/-! ### Branches for other entries -/

section Branches

variable {setup : Setup} {entries : List (String × Json)} {frame : Frame} {context : Context}
  {branches : List Branch}

/-- The rows of entries are known by their roles. -/
theorem rows_map_entry (naming : Naming) (context : Context) (target : Variable)
    (given : List Row) (h : given.map Row.role
      = roles naming context target false {} (given.map Row.key)) :
  rows naming context target (given.map Row.entry) = given
  := by
  have hkeys : (given.map Row.entry).map Prod.fst = given.map Row.key := by
    rw [List.map_map]
    rfl
  rw [rows, hkeys, ← h, rowsOf, List.zipWith_map, List.zipWith_self]
  apply List.map_id

theorem Reads.map_key (reads : Reads setup entries frame context branches) :
  entries.map Prod.fst = branches.map (·.row.key)
  := by
  rw [reads.entries_eq, List.map_map]
  rfl

/-- Branches with the roles of their keys are the branches of a node object. -/
theorem Reads.of_roles
    (entered : setup.enter frame.context
      ((branches.map (·.row.entry)).lookup Keyword.context.text) = .ok context)
    (given : branches.map (·.row.role)
      = roles setup.naming context frame.target false {} (branches.map (·.row.key)))
    (fits : ∀ branch ∈ branches, branch.Fits setup context) :
  Reads setup (branches.map (·.row.entry)) frame context branches
  := by
  refine ⟨entered, ?_, fits⟩
  have h := rows_map_entry setup.naming context frame.target (branches.map Branch.row) (by
      rw [List.map_map, List.map_map]
      apply given)
  rw [List.map_map] at h
  apply h.symm

/-- The branches of the entries before the last are the branches of these entries alone. -/
theorem Reads.dropLast {last : Branch}
    (reads : Reads setup entries frame context (branches ++ [last]))
    (lookup : entries.lookup Keyword.context.text
      = (branches.map (·.row.entry)).lookup Keyword.context.text) :
  Reads setup (branches.map (·.row.entry)) frame context branches
  := by
  apply Reads.of_roles
  · rw [← lookup]
    apply reads.entered
  · have hroles := reads.map_role
    rw [reads.map_key, List.map_append, List.map_append] at hroles
    obtain ⟨others, heq⟩ := roles_append setup.naming context frame.target false {}
      (branches.map (·.row.key)) ([last].map (·.row.key))
    rw [heq] at hroles
    apply (List.append_inj hroles (by simp)).1
  · intro branch hbranch
    apply reads.fits branch (List.mem_append_left _ hbranch)

/-- A branch with another value and another match takes the place of a branch. -/
theorem Reads.replace {others : List Branch} {row : Row} {link : Link} {inner : Context}
    {item : Match} {log : Log}
    (reads : Reads setup entries frame context
      (branches ++ .linked row link inner item log :: others))
    (value : Json) (item' : Match) (log' : Log)
    (lookup : entries.lookup Keyword.context.text
      = (branches.map (·.row.entry) ++ (row.key, value) :: others.map (·.row.entry)).lookup
          Keyword.context.text) :
  Reads setup (branches.map (·.row.entry) ++ (row.key, value) :: others.map (·.row.entry))
    frame context (branches ++ .linked { row with value := value } link inner item' log' :: others)
  := by
  have hentries : branches.map (·.row.entry) ++ (row.key, value) :: others.map (·.row.entry)
      = (branches ++ .linked { row with value := value } link inner item' log' :: others).map
          (·.row.entry) := by
    rw [List.map_append, List.map_cons]
    rfl
  rw [hentries] at lookup ⊢
  apply Reads.of_roles
  · rw [← lookup]
    apply reads.entered
  · have hroles := reads.map_role
    rw [reads.map_key, List.map_append, List.map_append, List.map_cons, List.map_cons] at hroles
    rw [List.map_append, List.map_append, List.map_cons, List.map_cons]
    apply hroles
  · intro branch hbranch
    rcases List.mem_append.mp hbranch with hbranch | hbranch
    · apply reads.fits branch (List.mem_append_left _ hbranch)
    · rcases List.mem_cons.mp hbranch with rfl | hbranch
      · apply reads.fits (.linked row link inner item log)
        simp
      · apply reads.fits branch
        simp [hbranch]

end Branches

/-! ### Entries with links -/

/-- Whether a node object has an entry with a link between other entries: the link is that of its
row, and its value is visited in the context `inner`. -/
structure LinkedAt (setup : Setup) (frame : Frame) (context : Context)
    (before : List (String × Json)) (row : Row) (after : List (String × Json)) (link : Link)
    (inner : Context) : Prop where
  entered : setup.enter frame.context
    ((before ++ row.entry :: after).lookup Keyword.context.text) = .ok context
  held : (roles setup.naming context frame.target false {}
    ((before ++ row.entry :: after).map Prod.fst))[before.length]? = some row.role
  linked : row.link? context = some link
  opened : setup.enter context link.definition.valueContext = .ok inner

section Links

variable {setup : Setup} {frame : Frame} {context : Context} {before after : List (String × Json)}
  {row : Row} {link : Link} {inner : Context}

theorem LinkedAt.meaning_ne (linked : LinkedAt setup frame context before row after link inner)
    (keyword : Keyword) :
  context.meaning row.key ≠ .keyword keyword
  := by
  have hheld := linked.held
  rw [Row.role_of_link linked.linked] at hheld
  apply meaning_ne_keyword _ hheld
  simp [Row.entry]

theorem LinkedAt.key_ne (linked : LinkedAt setup frame context before row after link inner) :
  row.key ≠ Keyword.context.text
  := by
  intro h
  apply linked.meaning_ne .context
  rw [h, Context.meaning_text]

/-- A term without a definition leads to its value, in the context of the node. -/
theorem linkedAt_undefined {target child : Variable} {before after : List (String × Json)}
    {key : String} {value : Json}
    (bare : (before ++ (key, value) :: after).lookup Keyword.context.text = none)
    (held : (roles {} {} target false {}
      (before.map Prod.fst ++ key :: after.map Prod.fst))[before.length]?
        = some (.property key false child))
    (valid : Iri.isValid key = true) :
  LinkedAt {} ⟨target, {}, none⟩ {} before ⟨.property key false child, key, value⟩ after
    ⟨key, false, child, {}⟩ {}
  := by
  constructor
  · simp only [Row.entry, bare]
    rfl
  · simp only [Row.entry, List.map_append, List.map_cons]
    apply held
  · simp only [Row.link?, valid]
    rfl
  · rfl

/-- What the entries of a node object have in common does not depend on an entry with a link. -/
theorem LinkedAt.scopeOf_skip
    (linked : LinkedAt setup frame context before row after link inner) (value : Json) :
  scopeOf context frame.target (before ++ (row.key, value) :: after)
    = scopeOf context frame.target (before ++ after)
  := by
  rw [scopeOf, scopeOf, Context.entryFor?_skip (linked.meaning_ne .id)]

/-- The variable of a link is a child of the variable of the node. -/
theorem LinkedAt.exists_segment
    (linked : LinkedAt setup frame context before row after link inner) :
  ∃ segment, link.child = setup.naming.child frame.target segment
  := by
  obtain ⟨-, -, hchildren⟩ := roles_apart setup.naming context frame.target false {}
    ((before ++ row.entry :: after).map Prod.fst)
  obtain ⟨segment, heq, -⟩ := hchildren row.role (List.mem_of_getElem? linked.held) link.child
    (Row.child_of_link linked.linked)
  use segment, heq

/-- The entry with a link has a branch of the node object. -/
theorem LinkedAt.exists_branches
    (linked : LinkedAt setup frame context before row after link inner) {context' : Context}
    {branches : List Branch}
    (reads : Reads setup (before ++ row.entry :: after) frame context' branches) :
  context' = context ∧ ∃ earlier item log later,
    branches = earlier ++ .linked row link inner item log :: later
      ∧ before = earlier.map (·.row.entry) ∧ after = later.map (·.row.entry)
  := by
  have hcontext := reads.entered
  rw [linked.entered, Except.ok.injEq] at hcontext
  subst hcontext
  use rfl
  obtain ⟨earlier, rest, rfl, rfl, hrest⟩ := List.map_eq_append_iff.mp reads.entries_eq.symm
  obtain ⟨branch, later, rfl, hentry, rfl⟩ := List.map_eq_cons_iff.mp hrest
  have hbranch : branch ∈ earlier ++ branch :: later := by simp
  have hrow : branch.row = row := by
    have hheld := linked.held
    rw [← reads.map_role, List.length_map, List.map_append, List.map_cons,
      List.getElem?_append_right (by simp), List.length_map, Nat.sub_self,
      List.getElem?_cons_zero, Option.some.injEq] at hheld
    obtain ⟨hkey, hvalue⟩ := Prod.mk.inj hentry
    cases hrow : branch.row with
    | mk role key value =>
        rw [hrow] at hheld hkey hvalue
        cases row with
        | mk role' key' value' =>
            simp only at hheld hkey hvalue
            rw [hheld, hkey, hvalue]
  have hfits := reads.fits branch hbranch
  cases branch with
  | plain other =>
      rw [Branch.row] at hrow
      subst hrow
      rw [Branch.Fits, linked.linked] at hfits
      cases hfits
  | linked other link' inner' item log =>
      rw [Branch.row] at hrow
      subst hrow
      obtain ⟨hlink, hinner⟩ := hfits
      rw [linked.linked, Option.some.injEq] at hlink
      subst hlink
      rw [linked.opened, Except.ok.injEq] at hinner
      subst hinner
      use earlier, item, log, later

end Links

end NodeObject

/-! ### Trimmed visits -/

open NodeObject (LinkedAt isOptional)

/-- Two visits to node objects.  The first ends with an entry whose fragment is optional, and the
second is the same without that entry. -/
inductive DropsLast (setup : Setup) : Visit → Visit → Prop where
  | entry {frame : Frame} {context inner : Context} {before : List (String × Json)}
      {row : NodeObject.Row} {link : NodeObject.Link}
      (last : LinkedAt setup frame context before row [] link inner)
      (present : inner.shape row.value ≠ .null)
      (optional : isOptional link.definition (inner.shape row.value) = true) :
      DropsLast setup ⟨.production .nodeObject, .object (before ++ [row.entry]), frame⟩
        ⟨.production .nodeObject, .object before, frame⟩

/-- Two visits to values that differ in that the first comes to the node object `node` where the
second comes to `rest`.  The node is the root of a document or is reached from it through entries
that hold objects and whose terms declare no container. -/
inductive Trims (setup : Setup) (node rest : Visit) : Visit → Visit → Prop where
  | node : Trims setup node rest node rest
  | entry {frame : Frame} {context inner : Context} {before after : List (String × Json)}
      {row : NodeObject.Row} {link : NodeObject.Link} {entries entries' : List (String × Json)}
      (linked : LinkedAt setup frame context before row after link inner)
      (held : row.value = .object entries) (plain : link.definition.containers = [])
      (trims : Trims setup node rest (link.visit inner (.object entries))
        (link.visit inner (.object entries'))) :
      Trims setup node rest
        ⟨.production .nodeObject, .object (before ++ row.entry :: after), frame⟩
        ⟨.production .nodeObject, .object (before ++ (row.key, .object entries') :: after), frame⟩
  | value {frame : Frame} {context : Context} {entries entries' : List (String × Json)}
      (entered : setup.enter frame.context (entries.lookup Keyword.context.text) = .ok context)
      (shape : context.objectShape entries = .nodeObject)
      (trims : Trims setup node rest ⟨.production .nodeObject, .object entries, frame⟩
        ⟨.production .nodeObject, .object entries', frame⟩) :
      Trims setup node rest ⟨.production .entryValue, .object entries, frame⟩
        ⟨.production .entryValue, .object entries', frame⟩
  | document {frame : Frame} {context : Context} {entries entries' : List (String × Json)}
      (entered : setup.enter frame.context (entries.lookup Keyword.context.text) = .ok context)
      (bare : context.entryFor? entries .graph = none)
      (trims : Trims setup node rest ⟨.production .nodeObject, .object entries, frame⟩
        ⟨.production .nodeObject, .object entries', frame⟩) :
      Trims setup node rest ⟨.production .document, .object entries, frame⟩
        ⟨.production .document, .object entries', frame⟩
  | documents {frame : Frame} {items items' : List Json}
      (trims : Trims setup node rest ⟨.production .nodeObjects, .array items, frame⟩
        ⟨.production .nodeObjects, .array items', frame⟩) :
      Trims setup node rest ⟨.production .document, .array items, frame⟩
        ⟨.production .document, .array items', frame⟩
  | nodeObjects {frame : Frame} {first first' : Json} {others : List Json}
      (trims : Trims setup node rest ⟨.production .nodeObject, first, frame⟩
        ⟨.production .nodeObject, first', frame⟩) :
      Trims setup node rest ⟨.production .nodeObjects, .array (first :: others), frame⟩
        ⟨.production .nodeObjects, .array (first' :: others), frame⟩
  | graph {frame : Frame} {context : Context} {before after : List (String × Json)} {key : String}
      {contents contents' : Json} {production : Production}
      (entered : setup.enter frame.context
        ((before ++ (key, contents) :: after).lookup Keyword.context.text) = .ok context)
      (first : context.entryFor? before .graph = none)
      (held : context.meaning key = .keyword .graph)
      (chosen : TopLevelGraph.production? contents = some production)
      (trims : Trims setup node rest
        ⟨.production production, contents, ⟨frame.target, context, none⟩⟩
        ⟨.production production, contents', ⟨frame.target, context, none⟩⟩) :
      Trims setup node rest
        ⟨.production .document, .object (before ++ (key, contents) :: after), frame⟩
        ⟨.production .document, .object (before ++ (key, contents') :: after), frame⟩

section Trims

variable {setup : Setup} {node rest outer outer' : Visit}

/-- The variable of the node is below that of every visit which comes to it. -/
theorem Trims.target_below (trims : Trims setup node rest outer outer') :
  setup.naming.Below outer.frame.target node.frame.target
  := by
  induction trims with
  | node => apply Naming.Below.self
  | entry linked _ _ _ ih =>
      obtain ⟨segment, heq⟩ := linked.exists_segment
      apply Naming.Below.trans _ ih
      simp only [NodeObject.Link.visit, heq]
      apply Naming.Below.self.child
  | value _ _ _ ih | document _ _ _ ih | documents _ ih | nodeObjects _ ih | graph _ _ _ _ _ ih =>
      apply ih

/-- A trimmed value is of the same kind. -/
theorem Trims.kind_eq (drops : DropsLast setup node rest)
    (trims : Trims setup node rest outer outer') :
  outer'.value.kind = outer.value.kind
  := by
  cases trims with
  | node =>
      cases drops
      rfl
  | _ => rfl

theorem Json.isObject_eq (value : Json) :
  value.isObject = (value.kind == .object)
  := by
  cases value with
  | _ => rfl

theorem TopLevelGraph.production?_congr {value value' : Json} (h : value'.kind = value.kind) :
  production? value' = production? value
  := by
  cases value with
  | _ =>
      cases value' with
      | _ => first | rfl | cases h

/-- A trimmed node object has the same local context and the same entries for keywords. -/
theorem Trims.keywords_eq (drops : DropsLast setup node rest) {frame : Frame} {context : Context}
    {entries entries' : List (String × Json)}
    (trims : Trims setup node rest ⟨.production .nodeObject, .object entries, frame⟩
      ⟨.production .nodeObject, .object entries', frame⟩)
    (entered : setup.enter frame.context (entries.lookup Keyword.context.text) = .ok context) :
  entries'.lookup Keyword.context.text = entries.lookup Keyword.context.text
    ∧ ∀ keyword, (context.entryFor? entries' keyword).isSome
      = (context.entryFor? entries keyword).isSome
  := by
  cases trims with
  | node =>
      cases drops with
      | @entry _ _ _ _ row _ last =>
          have hcontext := last.entered
          rw [entered, Except.ok.injEq] at hcontext
          subst hcontext
          constructor
          · rw [NodeObject.Row.entry, lookup_skip last.key_ne, List.append_nil]
          · intro keyword
            rw [NodeObject.Row.entry, Context.entryFor?_skip (last.meaning_ne keyword),
              List.append_nil]
  | entry linked held =>
      have hcontext := linked.entered
      rw [entered, Except.ok.injEq] at hcontext
      subst hcontext
      constructor
      · rw [NodeObject.Row.entry, lookup_skip linked.key_ne, lookup_skip linked.key_ne]
      · intro keyword
        rw [NodeObject.Row.entry, Context.entryFor?_skip (linked.meaning_ne keyword),
          Context.entryFor?_skip (linked.meaning_ne keyword)]

/-- A trimmed node object has the same shape. -/
theorem Trims.objectShape_eq (drops : DropsLast setup node rest) {frame : Frame} {context : Context}
    {entries entries' : List (String × Json)}
    (trims : Trims setup node rest ⟨.production .nodeObject, .object entries, frame⟩
      ⟨.production .nodeObject, .object entries', frame⟩)
    (entered : setup.enter frame.context (entries.lookup Keyword.context.text) = .ok context) :
  context.objectShape entries' = context.objectShape entries
  := by
  simp only [Context.objectShape, (trims.keywords_eq drops entered).2]

end Trims

end LinkedQuery
