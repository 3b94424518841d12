import LinkedQuery.Proofs.Reading.Derivation
import LinkedQuery.Proofs.Variables.Occurrence
import LinkedQuery.Proofs.Variables.Roles

/-!
# The scope of variables

All variables in the match of a visit are below the variable of its frame.  A visit that leads to
another binds the variable of the other's frame or a parent of it, and the branches of a node
object introduce variables below different children of the node's own.
-/

namespace LinkedQuery

/-- The name of an object has no variable but the object's own. -/
theorem eq_target_of_mem_name {identity : Option Identity} {target v : Variable}
    (h : v ∈ (Identity.name identity target).vars) :
  v = target
  := by
  unfold Identity.name at h
  split at h
  · simp [Name.vars, Name.term, Term.vars] at h
  · simpa using h

namespace NodeObject

/-! ### Shares -/

/-- The variables that a branch introduces under its entry: those of the match of a value that is
visited, and the variable for classes.  The variable of the node itself is none of them. -/
def Branch.introduced : Branch → List Variable
  | .plain row =>
    match row.role with
    | .type child => [child]
    | _ => []
  | .linked _ _ _ item _ => item.vars

/-- The name of a node has no variable but the node's own. -/
theorem eq_target_of_mem_subject {scope : Scope} {v : Variable}
    (h : v ∈ scope.subject.vars) :
  v = scope.target
  := eq_target_of_mem_name h

theorem not_mem_vars_warn {key : String} {value : Json} {notice : Notice} {v : Variable} :
  v ∉ (Share.warn key value notice).vars
  := by
  simp [Share.warn, Share.vars, Template.vars]

theorem not_mem_vars_keep {value : Json} {v : Variable} :
  v ∉ (Share.keep value).vars
  := by
  simp [Share.keep, Share.vars, Template.vars]

/-- The share of the name has no variable but the node's own. -/
theorem eq_target_of_mem_idShare {scope : Scope} {key : String} {value : Json} {v : Variable}
    (h : v ∈ (idShare scope key value).vars) :
  v = scope.target
  := by
  rw [idShare] at h
  split at h
  · simpa [Share.vars, Template.vars] using h
  · exact absurd h not_mem_vars_warn
  · exact absurd h not_mem_vars_keep

/-- The variables of a triple that says the class of a node. -/
theorem mem_vars_classTriple {subject class' : Term} {v : Variable} :
  v ∈ (classTriple subject class').vars ↔ v ∈ subject.vars ∨ v ∈ class'.vars
  := by
  simp [classTriple, Triple.vars, Name.vars, Name.term, Term.vars]

/-- The variables of the classes of a node are its own and the one for them. -/
theorem mem_vars_typeShare {scope : Scope} {child : Variable} {key : String} {value : Json}
    {v : Variable} (h : v ∈ (typeShare scope child key value).vars) :
  v = scope.target ∨ v = child
  := by
  have hclasses := typeShare_classes scope child key value
  generalize typeShare scope child key value = share at h hclasses
  rw [Share.mem_vars] at h
  cases hclasses with
  | asked | askedAll =>
      have h : v = child ∨ v ∈ scope.subject.vars := by
        simpa [Template.vars, Pattern.vars, mem_vars_classTriple, Term.vars,
          or_comm, or_assoc] using h
      rcases h with h | h
      · exact .inr h
      · exact .inl (eq_target_of_mem_subject h)
  | given value classes =>
      simp only [Template.vars, Pattern.vars, List.flatMap_map, List.append_nil,
        List.flatMap_cons, List.flatMap_nil, List.not_mem_nil, or_false, false_or,
        List.mem_flatMap] at h
      obtain ⟨iri, -, h⟩ := h
      rcases mem_vars_classTriple.mp h with h | h
      · exact .inl (eq_target_of_mem_subject h)
      · simp [Term.vars] at h
  | unusable value => exact absurd (Share.mem_vars.mpr h) not_mem_vars_warn

/-- The variables of a triple between a node and a value. -/
theorem mem_vars_propertyTriple {subject value : Term} {iri : String} {reverse : Bool}
    {v : Variable} :
  v ∈ (propertyTriple subject iri reverse value).vars
    ↔ v ∈ subject.vars ∨ v ∈ value.vars
  := by
  cases reverse
  · simp [propertyTriple, Triple.vars, Name.vars, Name.term, Term.vars]
  · simp [propertyTriple, Triple.vars, Name.vars, Name.term, Term.vars, or_comm]

/-- The variables of a fragment are those of the subject and of the match of the value. -/
theorem Link.mem_vars_fragment {link : Link} {subject : Term} {item : Match} {v : Variable}
    (h : v ∈ (link.fragment subject item).vars) :
  v ∈ subject.vars ∨ v ∈ item.vars
  := by
  simp only [fragment, Pattern.mem_vars_joinAll, List.flatMap_cons, List.flatMap_nil,
    List.append_nil, List.mem_append, Pattern.vars, mem_vars_propertyTriple] at h
  rcases h with (h | h) | h
  · exact .inl h
  · exact .inr (Match.mem_vars.mpr (.inl h))
  · exact .inr (Match.mem_vars.mpr (.inr (.inr (.inl h))))

/-- The variables of a branch are the node's own and those that the branch introduces. -/
theorem Branch.mem_vars_share {scope : Scope} {branch : Branch} {v : Variable}
    (h : v ∈ (branch.share scope).vars) :
  v = scope.target ∨ v ∈ branch.introduced
  := by
  cases branch with
  | plain row =>
      obtain ⟨role, key, value⟩ := row
      cases role with
      | context => exact absurd h not_mem_vars_keep
      | id => exact .inl (eq_target_of_mem_idShare h)
      | type child => simpa [introduced] using mem_vars_typeShare h
      | property iri reverse child =>
          simp only [Branch.share, Row.plainShare] at h
          split at h
          · exact absurd h not_mem_vars_warn
          · exact absurd h not_mem_vars_warn
      | _ => exact absurd h not_mem_vars_warn
  | linked row link inner item log =>
      have hfragment (h : v ∈ (link.fragment scope.subject item).vars) :
          v = scope.target ∨ v ∈ item.vars := by
        rcases Link.mem_vars_fragment h with h | h
        · exact .inl (eq_target_of_mem_subject h)
        · exact .inr h
      rcases Share.mem_vars.mp h with h | h | h
      · exact .inr (Match.mem_vars.mpr (.inr (.inl h)))
      · apply hfragment
        simp only [Branch.share, Link.share, List.flatMap_append, List.mem_append] at h
        rcases h with h | h
        · split at h
          · simp at h
          · simpa using h
        · split at h
          · simp at h
          · simpa using h
      · exact .inr (Match.mem_vars.mpr (.inr (.inr (.inr h))))

/-- A row with a link has a property for its role. -/
theorem Row.role_of_link {context : Context} {row : Row} {link : Link}
    (h : row.link? context = some link) :
  row.role = .property link.iri link.reverse link.child
  := by
  rw [Row.link?] at h
  split at h
  · rename_i hrole
    simp only [Option.ite_none_right_eq_some, Option.some.injEq] at h
    obtain ⟨-, rfl⟩ := h
    exact hrole
  · cases h

/-- The definition of a link is that of the key of its row. -/
theorem Row.definition_of_link {context : Context} {row : Row} {link : Link}
    (h : row.link? context = some link) :
  link.definition = (context.definition? row.key).getD {}
  := by
  rw [Row.link?] at h
  split at h
  · simp only [Option.ite_none_right_eq_some, Option.some.injEq] at h
    rw [← h.2]
  · cases h

/-- The variable of a link is that of the role of its row. -/
theorem Row.child_of_link {context : Context} {row : Row} {link : Link}
    (h : row.link? context = some link) :
  row.role.child? = some link.child
  := by
  rw [role_of_link h]
  rfl

end NodeObject

/-! ### Matches -/

/-- Whether all variables in a match are below one. -/
def Match.Within (naming : Naming) (found : Match) (target : Variable) : Prop :=
  ∀ v ∈ found.vars, naming.Below target v

variable {setup : Setup}

/-- A constant has no variables. -/
theorem Scalar.constant_vars (scalar : Scalar) (context : Context)
    (coercion : Option Coercion) :
  (scalar.constant context coercion).1.vars = []
  := by
  simp only [Scalar.constant]
  split
  · split
    · rfl
    · rfl
  · split
    · rfl
    · rfl
  all_goals rfl

/-- The only variable of a value object is that of its frame. -/
theorem ValueObject.mem_vars_matchOf {context : Context} {target : Variable}
    {entries : List (String × Json)} {key : String} {value : Json} {v : Variable}
    (h : v ∈ (matchOf context target entries key value).vars) :
  v = target
  := by
  rw [matchOf, Match.mem_vars] at h
  split at h
  · rcases h with h | h | h | h
    · simpa [Term.vars] using h
    · simpa [Template.vars] using Template.mem_vars_around h
    · cases h
    · simpa using h
  · rcases h with h | h | h | h
    · simp only [constantOf] at h
      split at h
      · cases h
      · simpa [Term.vars] using h
    · cases Template.mem_vars_around h
    · cases h
    · cases h

/-- The match of a visit that leads to no other has the variable of the frame, or that of the
members which it refuses. -/
theorem Ends.within {visit : Visit} {found : Match} (last : Ends setup visit found) :
  found.Within setup.naming visit.frame.target
  := by
  intro v h
  rw [Match.mem_vars] at h
  cases last with
  | null | placeholder | setObject | noItems =>
      obtain rfl : v = _ := by
        simpa [nullMatch, placeholderMatch, setMatch, emptyMatch, Term.vars,
          Template.vars, Pattern.vars, Pattern.empty] using h
      apply Naming.Below.self
  | noMembers =>
      simp [emptyMatch, Term.vars, Template.vars, Pattern.vars,
        Pattern.empty] at h
  | noNodes refused =>
      obtain rfl : v = _ := by
        simpa [GraphObject.refusal, Term.vars, Template.vars, Pattern.vars,
          Pattern.empty] using h
      apply Naming.Below.self.child
  | scalar known held =>
      simp [Scalar.matchOf, Scalar.constant_vars, Template.vars, Pattern.vars,
        Pattern.empty] at h
  | valueObject entered held =>
      obtain rfl := ValueObject.mem_vars_matchOf (Match.mem_vars.mpr h)
      apply Naming.Below.self

/-- The frame of a visit binds the variable of the frame from which it comes, or a child of it. -/
theorem Leads.target_below {outer inner : Visit} {make : Match → Match}
    (step : Leads setup outer inner make) :
  setup.naming.Below outer.frame.target inner.frame.target
  := by
  cases step with
  | members | onlyMember | graphNodes | graphNode => apply Naming.Below.self.child
  | _ => apply Naming.Below.self

/-- The share of an entry of a graph object has the variables of the members and of the name. -/
theorem GraphObject.mem_vars_shareOf {context : Context} {target : Variable}
    {entries : List (String × Json)} {graphKey : String} {members : Match} {key : String}
    {value : Json} {v : Variable}
    (h : v ∈ (shareOf context target entries graphKey members key value).template.vars) :
  v = target ∨ v ∈ members.template.vars
  := by
  simp only [shareOf] at h
  split at h
  · exact .inr h
  · split at h
    · simp only [idShare] at h
      split at h
      · exact .inl (by simpa [Template.vars] using h)
      · cases h
      · cases h
    · simp only [otherShare] at h
      split at h
      · cases h
      · cases h
      · cases h

/-- A visit adds the variables of the frames to those of the match to which it leads. -/
theorem Leads.mem_vars {outer inner : Visit} {make : Match → Match}
    (step : Leads setup outer inner make) {found : Match} {v : Variable}
    (h : v ∈ (make found).vars) :
  v = outer.frame.target ∨ v = inner.frame.target ∨ v ∈ found.vars
  := by
  rw [Match.mem_vars] at h
  rw [Match.mem_vars]
  cases step with
  | document | documentGraph | documents | nodeObjects | entryValue | graphNodes | graphNode =>
      exact .inr (.inr h)
  | items =>
      simp only [itemsMatch, mem_itemProjections, Template.vars, List.mem_cons] at h
      grind
  | topLevelGraph entered held chosen =>
      rcases h with h | h | h | h
      · exact .inr (.inr (.inl h))
      · exact .inr (.inr (.inr (.inl (Template.mem_vars_around h))))
      · exact .inr (.inr (.inr (.inr (.inl h))))
      · exact .inr (.inr (.inr (.inr (.inr h))))
  | listObject entered held =>
      rcases h with h | h | h | h
      · exact .inr (.inr (.inl h))
      · exact .inr (.inr (.inr (.inl (Template.mem_vars_around h))))
      · exact .inr (.inr (.inr (.inr (.inl h))))
      · exact .inr (.inr (.inr (.inr (.inr h))))
  | members =>
      simp only [ListObject.membersMatch, mem_itemProjections, Template.vars, if_true,
        Term.vars_var, Pattern.mem_vars_joinAll, Pattern.vars, List.flatMap_cons,
        List.flatMap_nil, List.append_nil, List.mem_append, List.mem_cons, List.not_mem_nil,
        or_false] at h
      grind
  | onlyMember single =>
      simp only [ListObject.membersMatch, Bool.false_eq_true, if_false,
        Term.vars_var, Pattern.mem_vars_joinAll, Pattern.vars, List.flatMap_cons,
        List.flatMap_nil, List.append_nil, List.mem_append, List.mem_cons, List.not_mem_nil,
        or_false] at h
      grind
  | graphObject entered held =>
      rcases h with h | h | h | h
      · exact .inl (eq_target_of_mem_name h)
      · simp only [GraphObject.matchOf, Template.vars_object, List.flatMap_map,
          List.mem_flatMap] at h
        obtain ⟨entry, -, h⟩ := h
        rcases GraphObject.mem_vars_shareOf h with h | h
        · exact .inl h
        · exact .inr (.inr (.inr (.inl h)))
      · simp only [GraphObject.matchOf, Pattern.vars, List.mem_append] at h
        rcases h with h | h
        · exact .inl (eq_target_of_mem_name h)
        · exact .inr (.inr (.inr (.inr (.inl h))))
      · simp only [GraphObject.matchOf, List.mem_append] at h
        rcases h with h | h
        · split at h
          · exact .inl (by simpa using h)
          · cases h
        · exact .inr (.inr (.inr (.inr (.inr h))))
  | graphValue =>
      simp only [GraphObject.ofMembers, Term.vars_var, Pattern.vars, Name.vars_var,
        List.mem_append, List.mem_cons, List.not_mem_nil, or_false] at h
      grind

/-- What is below the inner frame is below the outer one. -/
theorem Leads.within {outer inner : Visit} {make : Match → Match}
    (step : Leads setup outer inner make) {found : Match}
    (h : found.Within setup.naming inner.frame.target) :
  (make found).Within setup.naming outer.frame.target
  := by
  intro v hv
  rcases step.mem_vars hv with rfl | rfl | hv
  · apply Naming.Below.self
  · apply step.target_below
  · apply step.target_below.trans (h v hv)

/-! ### Node objects -/

namespace NodeObject

/-- What a branch introduces is below the variable of its role. -/
theorem Branch.exists_child {context : Context} {branch : Branch} {v : Variable}
    (fits : branch.Fits setup context)
    (within : ∀ row link inner item log, branch = .linked row link inner item log →
      item.Within setup.naming link.child)
    (h : v ∈ branch.introduced) :
  ∃ child ∈ branch.row.role.child?, setup.naming.Below child v
  := by
  cases branch with
  | plain row =>
      simp only [introduced] at h
      split at h
      · rename_i child heq
        rw [List.mem_singleton] at h
        use child
        rw [Branch.row, heq, h]
        exact ⟨rfl, .self⟩
      · cases h
  | linked row link inner item log =>
      use link.child
      constructor
      · apply Row.child_of_link fits.1
      · apply within row link inner item log rfl v h

/-- The branches of a node object have its roles. -/
theorem Reads.map_role {entries : List (String × Json)} {frame : Frame} {context : Context}
    {branches : List Branch} (reads : Reads setup entries frame context branches) :
  branches.map (·.row.role)
    = roles setup.naming context frame.target false {} (entries.map Prod.fst)
  := by
  rw [← map_role_rows, ← reads.rows_eq, List.map_map]
  rfl

/-- The role of a branch suits what its key stands for. -/
theorem Reads.suits {entries : List (String × Json)} {frame : Frame} {context : Context}
    {branches : List Branch} (reads : Reads setup entries frame context branches)
    {branch : Branch} (hbranch : branch ∈ branches) :
  Role.Suits (context.meaning branch.row.key) branch.row.role
  := by
  have h := roles_suit setup.naming context frame.target false {} (entries.map Prod.fst)
  have hkeys : entries.map Prod.fst = branches.map (·.row.key) := by
    rw [reads.entries_eq, List.map_map]
    rfl
  rw [← reads.map_role, hkeys, List.forall₂_map_left_iff, List.forall₂_map_right_iff,
    List.forall₂_same] at h
  apply h branch hbranch

/-- The row that names the node is the first entry for its name. -/
theorem entryFor?_of_mem_rowsOf {naming : Naming} {context : Context} {target : Variable}
    {row : Row} (hrole : row.role = .id) :
    ∀ {entries : List (String × Json)} {siblings : Siblings},
      row ∈ rowsOf (roles naming context target false siblings (entries.map Prod.fst)) entries →
        context.entryFor? entries .id = some (row.key, row.value)
  | [], _, h => by simp [rowsOf, roles] at h
  | (key, value) :: entries, siblings, h => by
      obtain ⟨role, named', siblings', heq, -, hid, hnamed⟩ :=
        roles_cons naming context target false siblings key (entries.map Prod.fst)
      rw [List.map_cons, heq, rowsOf, List.zipWith_cons_cons, ← rowsOf, List.mem_cons] at h
      rw [Bool.false_or] at hnamed
      simp only [Context.entryFor?, List.find?_cons]
      cases hmeaning : context.meaning key == .keyword .id with
      | true =>
          rcases h with rfl | h
          · rfl
          · -- The name is given already, so no later row has the role.
            rw [hnamed, hmeaning] at h
            have hroles := (roles_apart naming context target true siblings'
              (entries.map Prod.fst)).2.1 rfl
            apply absurd _ hroles
            rw [← hrole, ← (map_rowsOf (roles naming context target true siblings'
              (entries.map Prod.fst)) entries (by simp)).1]
            apply List.mem_map_of_mem h
      | false =>
          rcases h with rfl | h
          · simp [hid.mp hrole] at hmeaning
          · rw [hnamed, hmeaning] at h
            apply entryFor?_of_mem_rowsOf hrole h

/-- The branch that names the node is that of the first entry for its name. -/
theorem Reads.entryFor?_id {entries : List (String × Json)} {frame : Frame} {context : Context}
    {branches : List Branch} (reads : Reads setup entries frame context branches)
    {branch : Branch} (hbranch : branch ∈ branches) (hrole : branch.row.role = .id) :
  context.entryFor? entries .id = some (branch.row.key, branch.row.value)
  := by
  apply entryFor?_of_mem_rowsOf hrole
  have hrow := List.mem_map_of_mem (f := Branch.row) hbranch
  rw [reads.rows_eq] at hrow
  apply hrow

/-- An entry under a keyword has no link. -/
theorem Reads.exists_plain {entries : List (String × Json)} {frame : Frame} {context : Context}
    {branches : List Branch} (reads : Reads setup entries frame context branches)
    {branch : Branch} (hbranch : branch ∈ branches) {keyword : Keyword}
    (meaning : context.meaning branch.row.key = .keyword keyword) :
  ∃ row, branch = .plain row
  := by
  have hsuits := reads.suits hbranch
  rw [meaning] at hsuits
  cases branch with
  | plain row => use row
  | linked row link inner item log =>
      rw [Branch.row, Row.role_of_link (reads.fits _ hbranch).1] at hsuits
      cases hsuits

/-- The variables of roles are children of the variable of the node. -/
theorem Reads.exists_segment {entries : List (String × Json)} {frame : Frame} {context : Context}
    {branches : List Branch} (reads : Reads setup entries frame context branches)
    {branch : Branch} (hbranch : branch ∈ branches) {child : Variable}
    (h : child ∈ branch.row.role.child?) :
  ∃ segment, child = setup.naming.child frame.target segment
  := by
  obtain ⟨-, -, hchildren⟩ :=
    roles_apart setup.naming context frame.target false {} (entries.map Prod.fst)
  rw [← reads.map_role] at hchildren
  obtain ⟨segment, heq, -⟩ := hchildren _ (List.mem_map_of_mem hbranch) child h
  use segment, heq

/-- The variables in the match of a node object are its own or are introduced by a branch. -/
theorem mem_vars_matchOf {context : Context} {target : Variable}
    {entries : List (String × Json)} {branches : List Branch} {v : Variable}
    (h : v ∈ (matchOf context target entries branches).vars) :
  v = target ∨ ∃ branch ∈ branches, v ∈ branch.introduced
  := by
  rcases mem_vars_assemble h with h | ⟨share, hshare, h⟩
  · exact .inl (eq_target_of_mem_subject h)
  · obtain ⟨branch, hbranch, rfl⟩ := List.mem_map.mp hshare
    rcases Branch.mem_vars_share h with h | h
    · exact .inl h
    · exact .inr ⟨branch, hbranch, h⟩

end NodeObject

/-- All variables in a match are below the variable of its frame. -/
theorem Derives.within {visit : Visit} {found : Match} {log : Log}
    (derived : Derives setup visit found log) :
  found.Within setup.naming visit.frame.target
  := by
  induction derived with
  | ends last => apply last.within
  | leads step _ ih => apply step.within ih
  | node reads _ ih =>
      intro v h
      rcases NodeObject.mem_vars_matchOf h with rfl | ⟨branch, hbranch, h⟩
      · apply Naming.Below.self
      · obtain ⟨child, hchild, hbelow⟩ := branch.exists_child (reads.fits branch hbranch)
          (fun row link inner item log heq => ih row link inner item log (heq ▸ hbranch)) h
        obtain ⟨segment, rfl⟩ := reads.exists_segment hbranch hchild
        apply hbelow.of_child

/-- The variables of graph members are below the variable for members. -/
theorem Derives.within_graphMembers {value : Json} {frame : Frame} {found : Match} {log : Log}
    (derived : Derives setup ⟨.graphMembers, value, frame⟩ found log) :
  found.Within setup.naming (setup.naming.child frame.target memberSegment)
  := by
  cases derived with
  | ends last =>
      cases last with
      | noNodes refused =>
          intro v h
          obtain rfl : v = _ := by
            simpa [Match.mem_vars, GraphObject.refusal, Template.vars,
              Pattern.vars, Pattern.empty] using h
          apply Naming.Below.self
  | leads step read =>
      cases step with
      | graphNodes | graphNode => apply read.within

/-! ### Separate branches -/

namespace NodeObject

/-- What makes the variables of branches separate: those that one introduces are introduced by no
other and are not the variable of the node, and every variable of a share is the node's or is
introduced. -/
structure Separate (scope : Scope) (branches : List Branch) : Prop where
  apart : branches.Pairwise fun first second => ∀ v ∈ first.introduced, v ∉ second.introduced
  own : ∀ branch ∈ branches, scope.target ∉ branch.introduced
  covered : ∀ branch ∈ branches, ∀ v ∈ (branch.share scope).vars,
    v = scope.target ∨ v ∈ branch.introduced

/-- Whether the matches in branches are those of visits to the values of the rows. -/
def Visited (setup : Setup) (branches : List Branch) : Prop :=
  ∀ row link inner item log, Branch.linked row link inner item log ∈ branches →
    Derives setup (link.visit inner row.value) item log

/-- A node object is derived from the branches of its entries. -/
theorem exists_reads {entries : List (String × Json)} {frame : Frame} {found : Match} {log : Log}
    (derived : Derives setup ⟨.production .nodeObject, .object entries, frame⟩ found log) :
  ∃ context branches, Reads setup entries frame context branches ∧ Visited setup branches ∧
    found = matchOf context frame.target entries branches
  := by
  cases derived with
  | ends last => cases last
  | leads step read => cases step
  | @node _ _ context branches reads read => use context, branches, reads, read

section Reads

variable {entries : List (String × Json)} {frame : Frame} {context : Context}
  {branches : List Branch}

/-- The roles of branches share nothing. -/
theorem Reads.pairwise_apart (reads : Reads setup entries frame context branches) :
  branches.Pairwise fun first second => first.row.role.Apart setup.naming second.row.role
  := by
  have h := (roles_apart setup.naming context frame.target false {} (entries.map Prod.fst)).1
  rw [← reads.map_role] at h
  apply List.pairwise_map.mp h

/-- What a visited branch introduces is below the variable of its role. -/
theorem Reads.exists_child (reads : Reads setup entries frame context branches)
    (visited : Visited setup branches) {branch : Branch} (hbranch : branch ∈ branches)
    {v : Variable} (h : v ∈ branch.introduced) :
  ∃ child ∈ branch.row.role.child?, setup.naming.Below child v
  := by
  apply branch.exists_child (reads.fits branch hbranch) _ h
  intro row link inner item log heq
  apply (visited row link inner item log (heq ▸ hbranch)).within

/-- The branches of a node object are separate. -/
theorem Reads.separate (reads : Reads setup entries frame context branches)
    (visited : Visited setup branches) :
  Separate (scopeOf context frame.target entries) branches
  := by
  constructor
  · apply reads.pairwise_apart.imp_of_mem
    intro first second hfirst hsecond hapart v hv hv'
    obtain ⟨child, hchild, hbelow⟩ := reads.exists_child visited hfirst hv
    obtain ⟨child', hchild', hbelow'⟩ := reads.exists_child visited hsecond hv'
    exact hapart.2 child hchild child' hchild' v hbelow hbelow'
  · intro branch hbranch h
    obtain ⟨child, hchild, hbelow⟩ := reads.exists_child visited hbranch h
    obtain ⟨segment, rfl⟩ := reads.exists_segment hbranch hchild
    exact Naming.Below.not_child _ _ hbelow
  · intro branch hbranch v h
    apply Branch.mem_vars_share h

/-- Nothing that other branches introduce is below the variable of a link, and neither is the
variable of the node. -/
theorem Reads.not_below {others : List Branch} {row : Row} {link : Link} {inner : Context}
    {item : Match} {log : Log}
    (reads : Reads setup entries frame context
      (branches ++ .linked row link inner item log :: others))
    (visited : Visited setup (branches ++ .linked row link inner item log :: others)) {v : Variable}
    (h : v = frame.target ∨ ∃ branch ∈ branches ++ others, v ∈ branch.introduced) :
  ¬ setup.naming.Below link.child v
  := by
  intro hbelow
  have hself : Branch.linked row link inner item log
      ∈ branches ++ .linked row link inner item log :: others := by simp
  have hchild := Row.child_of_link (reads.fits _ hself).1
  rcases h with rfl | ⟨branch, hbranch, hv⟩
  · obtain ⟨segment, heq⟩ := reads.exists_segment hself hchild
    rw [heq] at hbelow
    exact Naming.Below.not_child _ _ hbelow
  · have hmem : branch ∈ branches ++ .linked row link inner item log :: others := by
      simp only [List.mem_append, List.mem_cons] at hbranch ⊢
      rcases hbranch with hbranch | hbranch
      · exact .inl hbranch
      · exact .inr (.inr hbranch)
    obtain ⟨child, hchild', hbelow'⟩ := reads.exists_child visited hmem hv
    have hapart := List.pairwise_append.mp reads.pairwise_apart
    rcases List.mem_append.mp hbranch with hbranch | hbranch
    · apply (hapart.2.2 branch hbranch _ List.mem_cons_self).2 child hchild' link.child hchild v
        hbelow' hbelow
    · apply ((List.pairwise_cons.mp hapart.2.1).1 branch hbranch).2 link.child hchild child hchild'
        v hbelow hbelow'

/-- What is below the variable of a link is in the match of its value or not at all, also when
another match has taken the place of that one. -/
theorem Reads.not_below_matchOf {others : List Branch} {row row' : Row} {link : Link}
    {inner : Context} {item item' : Match} {log log' : Log} {entries' : List (String × Json)}
    (reads : Reads setup entries frame context
      (branches ++ .linked row link inner item log :: others))
    (visited : Visited setup (branches ++ .linked row link inner item log :: others))
    {child : Variable} (below : setup.naming.Below link.child child)
    (fresh : ∀ v ∈ item'.vars, ¬ setup.naming.Below child v) :
    ∀ v ∈ (matchOf context frame.target entries'
      (branches ++ .linked row' link inner item' log' :: others)).vars,
        ¬ setup.naming.Below child v
  := by
  intro v hv hbelow
  rcases mem_vars_matchOf hv with hself | ⟨branch, hbranch, hv⟩
  · apply reads.not_below visited (.inl hself) (below.trans hbelow)
  · simp only [List.mem_append, List.mem_cons] at hbranch
    rcases hbranch with hbranch | rfl | hbranch
    · apply reads.not_below visited (.inr ⟨branch, _, hv⟩) (below.trans hbelow)
      apply List.mem_append_left _ hbranch
    · apply fresh v hv hbelow
    · apply reads.not_below visited (.inr ⟨branch, _, hv⟩) (below.trans hbelow)
      apply List.mem_append_right _ hbranch

end Reads

end NodeObject

end LinkedQuery
