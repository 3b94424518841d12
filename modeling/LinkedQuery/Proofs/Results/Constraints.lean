import LinkedQuery.Proofs.Results.Projections
import LinkedQuery.Proofs.Variables.Scope

/-!
# Constrained variables

A selected variable that no part of the pattern says anything of would have no value in any
solution.  The variable of a value is the object of the triple that leads to it, or the end of the
path to the members of a list, and so it is constrained.  A node object to which nothing leads is
constrained by its own entries only: `projections_constrained` says that a selected variable is
constrained by the pattern unless it is that of such a node object without a pattern.
-/

namespace LinkedQuery

/-! ### Patterns -/

def Triple.ends (triple : Triple) : List Variable :=
  triple.subject.vars ++ triple.object.vars

namespace Pattern

/-- The variables that a pattern constrains: the subjects and objects of triples, the ends of paths
and the names of graphs. -/
def ends : Pattern → List Variable
  | .basic triples => triples.flatMap Triple.ends
  | .members list member => list.vars ++ member.vars
  | .join left right => ends left ++ ends right
  | .leftJoin left right => ends left ++ ends right
  | .graph name inner => name.vars ++ ends inner
  | .project inner _ => ends inner

theorem ends_joinAll (parts : List Pattern) :
  (joinAll parts).ends = parts.flatMap ends
  := by
  apply collect_joinAll
  · intro triples
    rfl
  · intro left right
    rfl

theorem ends_leftJoins (first : Pattern) (parts : List Pattern) :
  (parts.foldl leftJoin first).ends = first.ends ++ parts.flatMap ends
  := by
  apply collect_foldl
  intro left right
  rfl

/-- The conjunction of empty patterns is empty. -/
theorem joinAll_eq_empty {parts : List Pattern} (h : ∀ part ∈ parts, part = .empty) :
  joinAll parts = .empty
  := by
  have hmerge : mergeBasics parts = [] := by
    induction parts with
    | nil => rfl
    | cons part parts ih =>
        rw [List.forall_mem_cons] at h
        obtain ⟨rfl, h⟩ := h
        apply ih h
  rw [joinAll, hmerge]

end Pattern

/-! ### Node objects -/

namespace NodeObject

/-- A share whose patterns all constrain a variable, but for empty ones that are required. -/
structure Share.Constrains (share : Share) (v : Variable) : Prop where
  required : ∀ fragment ∈ share.required, fragment = .empty ∨ v ∈ fragment.ends
  optional : ∀ fragment ∈ share.optional, v ∈ fragment.ends

theorem Share.constrains_warn {key : String} {value : Json} {notice : Notice} {v : Variable} :
  (Share.warn key value notice).Constrains v
  where
  required := List.forall_mem_nil _
  optional := List.forall_mem_nil _

theorem Share.constrains_keep {value : Json} {v : Variable} :
  (Share.keep value).Constrains v
  where
  required := List.forall_mem_nil _
  optional := List.forall_mem_nil _

/-- What the pattern of a link constrains. -/
theorem Link.mem_ends_fragment {link : Link} {subject : Term} {item : Match} {v : Variable} :
  v ∈ (link.fragment subject item).ends
    ↔ v ∈ subject.vars ∨ v ∈ item.term.vars ∨ v ∈ item.pattern.ends
  := by
  simp only [fragment, Pattern.ends_joinAll, propertyTriple]
  split
  · simp only [List.flatMap_cons, List.flatMap_nil, Pattern.ends, Triple.ends, List.append_nil,
      List.mem_append]
    tauto
  · simp only [List.flatMap_cons, List.flatMap_nil, Pattern.ends, Triple.ends, List.append_nil,
      List.mem_append]
    tauto

section Subjects

variable {scope : Scope} {v : Variable}

theorem constrains_typeShare (subject : scope.subject = .var v) (child : Variable) (key : String)
    (value : Json) :
  (typeShare scope child key value).Constrains v
  := by
  have hclass (class' : Term) (classes : List Triple) :
      v ∈ (Pattern.basic (classTriple scope.subject class' :: classes)).ends := by
    simp [Pattern.ends, Triple.ends, classTriple, subject]
  generalize hshare : typeShare scope child key value = share
  have hclasses := typeShare_classes scope child key value
  rw [hshare] at hclasses
  cases hclasses with
  | asked =>
      constructor
      · simp [hclass]
      · simp
  | askedAll =>
      constructor
      · simp
      · simp [hclass]
  | given value classes =>
      constructor
      · cases classes with
        | nil => simp [Pattern.empty]
        | cons iri classes => simp [hclass]
      · simp
  | unusable => apply Share.constrains_warn

/-- The patterns of an entry constrain the variable of its node. -/
theorem Branch.constrains_share (subject : scope.subject = .var v) (branch : Branch) :
  (branch.share scope).Constrains v
  := by
  cases branch with
  | plain row =>
      obtain ⟨role, key, value⟩ := row
      cases role with
      | context => apply Share.constrains_keep
      | id =>
          simp only [share, Row.plainShare, idShare]
          split
          · constructor
            · simp
            · simp
          · apply Share.constrains_warn
          · apply Share.constrains_keep
      | type child => apply constrains_typeShare subject
      | property iri reverse child =>
          simp only [share, Row.plainShare]
          split
          · apply Share.constrains_warn
          · apply Share.constrains_warn
      | _ => apply Share.constrains_warn
  | linked row link inner item log =>
      have hfragment : v ∈ (link.fragment scope.subject item).ends := by
        simp [Link.mem_ends_fragment, subject]
      constructor
      · intro fragment hmem
        simp only [share, Link.share] at hmem
        split at hmem
        · cases hmem
        · rw [List.mem_singleton] at hmem
          exact .inr (hmem ▸ hfragment)
      · intro fragment hmem
        simp only [share, Link.share] at hmem
        split at hmem
        · cases hmem
        · rw [List.mem_singleton] at hmem
          exact hmem ▸ hfragment

/-- A pattern that a branch adds is a part of the pattern of its node. -/
theorem mem_ends_matchOf {context : Context} {target : Variable} {entries : List (String × Json)}
    {branches : List Branch} {branch : Branch} (hmem : branch ∈ branches)
    (h : ∃ fragment ∈ (branch.share (scopeOf context target entries)).required
      ++ (branch.share (scopeOf context target entries)).optional, v ∈ fragment.ends) :
  v ∈ (matchOf context target entries branches).pattern.ends
  := by
  obtain ⟨fragment, hfragment, hends⟩ := h
  simp only [matchOf, assemble, Pattern.ends_leftJoins, Pattern.ends_joinAll, List.flatMap_map,
    List.mem_append, List.mem_flatMap]
  rcases List.mem_append.mp hfragment with hfragment | hfragment
  · exact .inl ⟨fragment, ⟨branch, hmem, hfragment⟩, hends⟩
  · exact .inr ⟨fragment, ⟨branch, hmem, hfragment⟩, hends⟩

/-- A node object whose variable is not constrained by its pattern has no pattern. -/
theorem matchOf_pattern {context : Context} {target : Variable} {entries : List (String × Json)}
    {branches : List Branch}
    (subject : (matchOf context target entries branches).term = .var v) :
  v ∈ (matchOf context target entries branches).pattern.ends
    ∨ (matchOf context target entries branches).pattern = .empty
  := by
  have hbranch (branch : Branch) :
      (branch.share (scopeOf context target entries)).Constrains v :=
    Branch.constrains_share subject branch
  by_cases hv : v ∈ (matchOf context target entries branches).pattern.ends
  · exact .inl hv
  · right
    have hnone : (branches.flatMap fun branch =>
        (branch.share (scopeOf context target entries)).optional) = [] := by
      apply List.flatMap_eq_nil_iff.mpr
      intro branch hmem
      apply List.eq_nil_iff_forall_not_mem.mpr
      intro fragment hfragment
      apply hv
      apply mem_ends_matchOf hmem
      use fragment, List.mem_append_right _ hfragment
      apply (hbranch branch).optional fragment hfragment
    simp only [matchOf, assemble, List.flatMap_map, hnone]
    apply Pattern.joinAll_eq_empty
    intro fragment hfragment
    obtain ⟨branch, hmem, hfragment⟩ := List.mem_flatMap.mp hfragment
    apply ((hbranch branch).required fragment hfragment).resolve_right
    intro hends
    apply hv
    apply mem_ends_matchOf hmem
    use fragment, List.mem_append_left _ hfragment

end Subjects

end NodeObject

/-! ### Node objects to which nothing leads -/

/-- Whether a value is another one or the first item of it. -/
inductive Json.Leading (value : Json) : Json → Prop where
  | self : value.Leading value
  | item {rest : List Json} : value.Leading (.array (value :: rest))

variable {setup : Setup}

/-- The frame in which the members of a graph are read. -/
def Setup.memberFrame (setup : Setup) (frame : Frame) : Frame :=
  ⟨setup.naming.child frame.target memberSegment, frame.context, none⟩

/-- Whether a log has a node object with a variable and without a pattern, which is a value or its
first item, read in a frame. -/
def Bare (log : Log) (v : Variable) (value : Json) (frame : Frame) : Prop :=
  ∃ node found, node.Leading value ∧ frame.target = v ∧
    (⟨.production .nodeObject, node, frame⟩, found) ∈ log ∧ found.pattern = .empty

/-- Whether a log has a member of a graph with a variable and without a pattern. -/
def BareMember (setup : Setup) (log : Log) (v : Variable) : Prop :=
  ∃ value frame found, (⟨.graphMembers, value, frame⟩, found) ∈ log ∧
    Bare log v value (setup.memberFrame frame)

theorem Bare.mono {log log' : Log} {v : Variable} {value : Json} {frame : Frame} (sub : log ⊆ log')
    (bare : Bare log v value frame) :
  Bare log' v value frame
  := by
  obtain ⟨node, found, leading, target, hmem, empty⟩ := bare
  use node, found, leading, target, sub hmem

theorem BareMember.mono {log log' : Log} {v : Variable} (sub : log ⊆ log')
    (bare : BareMember setup log v) :
  BareMember setup log' v
  := by
  obtain ⟨value, frame, found, hmem, bare⟩ := bare
  exact ⟨value, frame, found, sub hmem, bare.mono sub⟩

/-- A node object with a variable has a pattern that constrains it, or none. -/
theorem Derives.node_constrains {value : Json} {frame : Frame} {found : Match} {log : Log}
    {v : Variable} (derived : Derives setup ⟨.production .nodeObject, value, frame⟩ found log)
    (hterm : found.term = .var v) :
  v ∈ found.pattern.ends ∨ (frame.target = v ∧ found.pattern = .empty)
  := by
  cases derived with
  | ends last => cases last
  | leads step read => cases step
  | @node entries _ context branches reads read =>
      have hmem : v ∈ (NodeObject.scopeOf context frame.target entries).subject.vars := by
        rw [show NodeObject.Scope.subject _ = _ from hterm]
        simp
      apply (NodeObject.matchOf_pattern hterm).imp_right
      intro empty
      exact ⟨(NodeObject.eq_target_of_mem_subject hmem).symm, empty⟩

section Nodes

variable {value : Json} {frame : Frame} {found : Match} {log : Log} {v : Variable}

theorem Derives.bare_node
    (derived : Derives setup ⟨.production .nodeObject, value, frame⟩ found log)
    (hterm : found.term = .var v) :
  v ∈ found.pattern.ends ∨
    Bare ((⟨.production .nodeObject, value, frame⟩, found) :: log) v value frame
  := by
  apply (derived.node_constrains hterm).imp_right
  rintro ⟨target, empty⟩
  use value, found, .self, target, List.mem_cons_self

/-- The node object that an array of node objects stands for is its first item. -/
theorem Derives.bare_items
    (derived : Derives setup ⟨.items .nodeObject, value, frame⟩ found log)
    (hv : v ∈ found.projections) (hterm : found.term = .var v) :
  v ∈ found.pattern.ends ∨ Bare log v value frame
  := by
  cases derived with
  | ends last =>
      cases last
      cases hv
  | @leads _ _ _ item log step read =>
      cases step with
      | @items _ first rest =>
          apply (read.node_constrains hterm).imp_right
          rintro ⟨target, empty⟩
          use first, item, .item, target, List.mem_cons_self

theorem Derives.bare_nodeObjects
    (derived : Derives setup ⟨.production .nodeObjects, value, frame⟩ found log)
    (hv : v ∈ found.projections) (hterm : found.term = .var v) :
  v ∈ found.pattern.ends ∨ Bare log v value frame
  := by
  cases derived with
  | ends last => cases last
  | leads step read =>
      cases step with
      | nodeObjects objects =>
          apply (read.bare_items hv hterm).imp_right
          apply Bare.mono (List.subset_cons_self _ _)

theorem Derives.bare_graphMembers (derived : Derives setup ⟨.graphMembers, value, frame⟩ found log)
    (hv : v ∈ found.projections) (hterm : found.term = .var v) :
  v ∈ found.pattern.ends ∨ Bare log v value (setup.memberFrame frame)
  := by
  cases derived with
  | ends last =>
      cases last
      cases hv
  | leads step read =>
      cases step with
      | graphNodes objects =>
          apply (read.bare_items hv hterm).imp_right
          apply Bare.mono (List.subset_cons_self _ _)
      | graphNode => apply read.bare_node hterm

end Nodes

/-! ### Visits -/

/-- What a visit that ends projects is its term. -/
theorem Ends.term_of_mem_projections {visit : Visit} {found : Match}
    (last : Ends setup visit found) {v : Variable} (hv : v ∈ found.projections) :
  found.term = .var v
  := by
  cases last with
  | placeholder =>
      obtain rfl := List.mem_singleton.mp hv
      rfl
  | valueObject entered held =>
      simp only [ValueObject.matchOf] at hv ⊢
      split at hv
      · obtain rfl := List.mem_singleton.mp hv
        rw [if_pos ‹_›]
      · cases hv
  | _ => cases hv

/-- The path to the members of a list ends at the term of the first one. -/
theorem ListObject.mem_ends_membersMatch {target member v : Variable} {several : Bool}
    {item : Match} :
  v ∈ (membersMatch target member several item).pattern.ends
    ↔ v = target ∨ v ∈ item.term.vars ∨ v ∈ item.pattern.ends
  := by
  simp only [membersMatch, Pattern.ends_joinAll, List.flatMap_cons, List.flatMap_nil, Pattern.ends,
    List.append_nil, List.mem_append, Term.vars_var, List.mem_singleton, or_assoc]

/-- Whether a variable is constrained by a match, or the term of the match, or that of a member of a
graph without a pattern in the log. -/
def Match.Accounts (setup : Setup) (found : Match) (log : Log) (v : Variable) : Prop :=
  v ∈ found.pattern.ends ∨ found.term = .var v ∨ BareMember setup log v

theorem Match.Accounts.mono {found : Match} {log log' : Log} {v : Variable} (sub : log ⊆ log')
    (accounts : found.Accounts setup log v) :
  found.Accounts setup log' v
  := by
  apply accounts.imp_right
  apply Or.imp_right (BareMember.mono sub)

/-- A visit accounts for what it projects when the visit does to which it leads. -/
theorem Leads.accounts {outer inner : Visit} {make : Match → Match} {found : Match} {log : Log}
    {v : Variable} (step : Leads setup outer inner make) (read : Derives setup inner found log)
    (h : v ∈ found.projections → found.Accounts setup ((inner, found) :: log) v)
    (hv : v ∈ (make found).projections) :
  (make found).Accounts setup ((inner, found) :: log) v
  := by
  -- The variable of the members of a graph is not the term of the graph.
  have hgraph (value : Json) (frame : Frame) (members : inner = ⟨.graphMembers, value, frame⟩)
      (hv : v ∈ found.projections) :
      v ∈ found.pattern.ends ∨ BareMember setup ((inner, found) :: log) v := by
    subst members
    rcases h hv with hends | hterm | bare
    · exact .inl hends
    · apply (read.bare_graphMembers hv hterm).imp_right
      intro bare
      exact ⟨value, frame, found, List.mem_cons_self, bare.mono (List.subset_cons_self _ _)⟩
    · exact .inr bare
  cases step with
  | items =>
      rcases mem_itemProjections.mp hv with ⟨rfl, hterm⟩ | hv
      · exact .inr (.inl hterm)
      · apply h hv
  | members =>
      simp only [ListObject.membersMatch, if_true, mem_itemProjections] at hv
      rw [Match.Accounts, ListObject.mem_ends_membersMatch]
      rcases hv with ⟨rfl, hterm⟩ | hv
      · simp [hterm]
      · rcases h hv with hends | hterm | bare
        · exact .inl (.inr (.inr hends))
        · simp [hterm]
        · exact .inr (.inr bare)
  | onlyMember single =>
      rw [Match.Accounts, ListObject.mem_ends_membersMatch]
      rcases h hv with hends | hterm | bare
      · exact .inl (.inr (.inr hends))
      · simp [hterm]
      · exact .inr (.inr bare)
  | @graphObject entries frame context key graph entered held =>
      simp only [Match.Accounts, GraphObject.matchOf, List.mem_append, Pattern.ends] at hv ⊢
      rcases hv with hv | hv
      · split at hv
        · rename_i hidentity
          obtain rfl := List.mem_singleton.mp hv
          simp [hidentity, Identity.name]
        · cases hv
      · rcases hgraph graph ⟨frame.target, context, none⟩ rfl hv with hends | bare
        · exact .inl (.inr hends)
        · exact .inr (.inr bare)
  | @graphValue value frame =>
      rcases hgraph value frame rfl hv with hends | bare
      · left
        simp [GraphObject.ofMembers, Pattern.ends, hends]
      · exact .inr (.inr bare)
  | _ => apply h hv

namespace NodeObject

/-- What an entry projects without a visit is the variable of the node or constrained. -/
theorem Row.constrains_plainShare {scope : Scope} {row : Row} {v : Variable}
    (hv : v ∈ (row.plainShare scope).projections) :
  scope.subject = .var v ∨ ∃ fragment ∈ (row.plainShare scope).required
    ++ (row.plainShare scope).optional, v ∈ fragment.ends
  := by
  obtain ⟨role, key, value⟩ := row
  cases role with
  | id =>
      simp only [plainShare, idShare] at hv
      split at hv
      · rename_i hidentity
        obtain rfl := List.mem_singleton.mp hv
        left
        simp [Scope.subject, hidentity, Identity.name, Name.term]
      · cases hv
      · cases hv
  | type child =>
      right
      have hclass : child ∈ (Pattern.basic [classTriple scope.subject (.var child)]).ends := by
        simp [Pattern.ends, Triple.ends, classTriple]
      simp only [plainShare] at hv ⊢
      generalize hshare : typeShare scope child key value = share at hv
      have hclasses := typeShare_classes scope child key value
      rw [hshare] at hclasses
      cases hclasses with
      | asked | askedAll =>
          obtain rfl := List.mem_singleton.mp hv
          exact ⟨_, List.mem_singleton_self _, hclass⟩
      | _ => cases hv
  | property iri reverse child =>
      simp only [plainShare] at hv
      split at hv
      · cases hv
      · cases hv
  | _ => cases hv

/-- What the value of a link projects is constrained by the link or the value where it is so that
the value constrains it or has it for its term. -/
theorem Link.constrains_share {link : Link} {subject : Term} {key : String} {shape : Shape}
    {item : Match} {v : Variable} (valued : shape ≠ .null)
    (hv : v ∈ item.pattern.ends ∨ item.term = .var v) :
  ∃ fragment ∈ (link.share subject key shape item).required
    ++ (link.share subject key shape item).optional, v ∈ fragment.ends
  := by
  use link.fragment subject item
  constructor
  · cases hoptional : isOptional link.definition shape with
    | true => simp [share, valued, hoptional]
    | false => simp [share, valued, hoptional]
  · rw [mem_ends_fragment]
    rcases hv with hv | hterm
    · exact .inr (.inr hv)
    · simp [hterm]

end NodeObject

/-- Every visit accounts for what it projects. -/
theorem Derives.accounts {visit : Visit} {found : Match} {log : Log} {v : Variable}
    (derived : Derives setup visit found log) (hv : v ∈ found.projections) :
  found.Accounts setup ((visit, found) :: log) v
  := by
  induction derived with
  | ends last => exact .inr (.inl (last.term_of_mem_projections hv))
  | leads step read ih => apply (step.accounts read ih hv).mono (List.subset_cons_self _ _)
  | @node entries frame context branches reads read ih =>
      obtain ⟨branch, hmem, hv⟩ : ∃ branch ∈ branches,
          v ∈ (branch.share (NodeObject.scopeOf context frame.target entries)).projections := by
        simpa [NodeObject.matchOf, NodeObject.assemble, List.flatMap_map] using hv
      cases branch with
      | plain row =>
          rcases NodeObject.Row.constrains_plainShare hv with hterm | h
          · exact .inr (.inl hterm)
          · exact .inl (NodeObject.mem_ends_matchOf hmem h)
      | linked row link inner item log =>
          have valued : inner.shape row.value ≠ .null := by
            intro null
            obtain rfl := NodeObject.Link.eq_nullMatch null (read _ _ _ _ _ hmem).run
            cases hv
          rcases ih row link inner item log hmem hv with hends | hterm | bare
          · left
            apply NodeObject.mem_ends_matchOf hmem
            apply NodeObject.Link.constrains_share valued (.inl hends)
          · left
            apply NodeObject.mem_ends_matchOf hmem
            apply NodeObject.Link.constrains_share valued (.inr hterm)
          · right
            right
            apply bare.mono
            intro entry hentry
            apply List.mem_cons_of_mem
            apply NodeObject.mem_flatMap_log.mpr
            exact ⟨row, link, inner, item, log, hmem, hentry⟩

/-! ### Queries -/

/-- The node objects to which no entry of another one leads, with the frames in which they are read:
the document, or its first item; what is in the top-level graph, or the first item of that; and the
member of a graph, or the first one. -/
inductive Setup.Unlinked (setup : Setup) (document : Json) : Json → Frame → Prop where
  | document {node : Json} (leading : node.Leading document) :
      Unlinked setup document node ⟨setup.naming.rootVariable, {}, none⟩
  | topLevel {entries : List (String × Json)} {context : Context} {key : String} {graph node : Json}
      (whole : document = .object entries)
      (entered : setup.enter {} (entries.lookup Keyword.context.text) = .ok context)
      (held : context.entryFor? entries .graph = some (key, graph)) (leading : node.Leading graph) :
      Unlinked setup document node ⟨setup.naming.rootVariable, context, none⟩
  | member {members node : Json} {frame : Frame} {found : Match}
      (met : setup.Meets document ⟨.graphMembers, members, frame⟩ found)
      (leading : node.Leading members) :
      Unlinked setup document node (setup.memberFrame frame)

/-- What is in a top-level graph is a node object, or stands for its first item. -/
theorem Derives.bare_graph {graph : Json} {production : Production} {frame : Frame} {found : Match}
    {log : Log} {v : Variable} (chosen : TopLevelGraph.production? graph = some production)
    (derived : Derives setup ⟨.production production, graph, frame⟩ found log)
    (hv : v ∈ found.projections) (hterm : found.term = .var v) :
  v ∈ found.pattern.ends ∨
    Bare ((⟨.production production, graph, frame⟩, found) :: log) v graph frame
  := by
  cases graph with
  | array items =>
      obtain rfl := Option.some.inj chosen
      apply (derived.bare_nodeObjects hv hterm).imp_right
      apply Bare.mono (List.subset_cons_self _ _)
  | object entries =>
      obtain rfl := Option.some.inj chosen
      apply derived.bare_node hterm
  | _ => cases chosen

/-- The variable that a document has for its term is constrained, or it is that of a node object to
which nothing leads. -/
theorem Derives.bare_document {document : Json} {found : Match} {log : Log} {v : Variable}
    (derived : Derives setup (setup.documentVisit document) found log)
    (hv : v ∈ found.projections) (hterm : found.term = .var v) :
  v ∈ found.pattern.ends ∨ ∃ value frame, Bare log v value frame ∧
    ∀ node, node.Leading value → setup.Unlinked document node frame
  := by
  rw [Setup.documentVisit] at derived
  cases derived with
  | ends last => cases last
  | leads step read =>
      cases step with
      | document entered bare =>
          apply (read.bare_node hterm).imp_right
          intro bare
          exact ⟨_, _, bare, fun node leading => .document leading⟩
      | documents =>
          apply (read.bare_nodeObjects hv hterm).imp_right
          intro bare
          exact ⟨_, _, bare.mono (List.subset_cons_self _ _), fun node leading => .document leading⟩
      | documentGraph =>
          cases read with
          | ends last => cases last
          | leads step read =>
              cases step with
              | topLevelGraph entered held chosen =>
                  apply (read.bare_graph chosen hv hterm).imp_right
                  intro bare
                  exact ⟨_, _, bare.mono (List.subset_cons_self _ _),
                    fun node leading => .topLevel rfl entered held leading⟩

/-- A variable that a query selects is constrained by the pattern, as the subject or object of a
triple, the end of a path or the name of a graph, unless it is the variable of a node object to
which nothing leads and which has no pattern itself. -/
theorem projections_constrained {document : Json} {query : Query}
    (h : setup.grammar.query document = .ok query) {v : Variable} (hv : v ∈ query.projections) :
  v ∈ query.body.ends ∨ ∃ node frame found, setup.Unlinked document node frame ∧
    setup.Meets document ⟨.production .nodeObject, node, frame⟩ found ∧
    frame.target = v ∧ found.pattern = .empty
  := by
  obtain ⟨whole, log, derived, rfl⟩ := query_eq_ok.mp h
  rw [Match.mem_projections_query] at hv
  have hmeets {value : Json} {frame : Frame}
      (bare : Bare ((setup.documentVisit document, whole) :: log) v value frame)
      (unlinked : ∀ node, node.Leading value → setup.Unlinked document node frame) :
      ∃ node frame found, setup.Unlinked document node frame ∧
        setup.Meets document ⟨.production .nodeObject, node, frame⟩ found ∧
        frame.target = v ∧ found.pattern = .empty := by
    obtain ⟨node, found, leading, target, hmem, empty⟩ := bare
    exact ⟨node, frame, found, unlinked node leading, ⟨whole, log, derived, hmem⟩, target, empty⟩
  rcases derived.accounts hv with hends | hterm | ⟨value, frame, found, hmem, bare⟩
  · exact .inl hends
  · apply (derived.bare_document hv hterm).imp_right
    rintro ⟨value, frame, bare, unlinked⟩
    apply hmeets (bare.mono (List.subset_cons_self _ _)) unlinked
  · right
    apply hmeets bare
    intro node leading
    apply Setup.Unlinked.member ⟨whole, log, derived, hmem⟩ leading

/-- A picture with its title, and a graph of what it depicts, with a member that only has a name. -/
def panorama : Json :=
  .array
    [.object
      [("ex:title", .string "?"),
        ("ex:depicts", .object [("@graph", .array [.object [("@id", .string "?")]])])]]

/-- The picture and its title are constrained by the query for them; the member of the graph is not,
and it has no pattern. -/
theorem projections_constrained_panorama :
  ∃ query, ({} : Setup).grammar.query panorama = .ok query ∧
    query.projections = [⟨"root"⟩, ⟨"root·title"⟩, ⟨"root·depicts·item"⟩] ∧
    query.body.ends
      = [⟨"root"⟩, ⟨"root·title"⟩, ⟨"root"⟩, ⟨"root·depicts"⟩, ⟨"root·depicts"⟩] ∧
    ∃ node frame found, Setup.Unlinked {} panorama node frame ∧
      Setup.Meets {} panorama ⟨.production .nodeObject, node, frame⟩ found ∧
      frame.target = ⟨"root·depicts·item"⟩ ∧ found.pattern = .empty
  := by
  have houtcome : (({} : Setup).grammar.query panorama).toOption.map
      (fun query => (query.projections, query.body.ends))
        = some ([⟨"root"⟩, ⟨"root·title"⟩, ⟨"root·depicts·item"⟩],
          [⟨"root"⟩, ⟨"root·title"⟩, ⟨"root"⟩, ⟨"root·depicts"⟩, ⟨"root·depicts"⟩]) := by
    decide +kernel
  obtain ⟨query, h, heq⟩ := exists_of_outcome _ _ houtcome
  obtain ⟨hselected, hends⟩ := Prod.mk.inj heq
  have hv : ⟨"root·depicts·item"⟩ ∈ query.projections := by simp [hselected]
  use query, h, hselected, hends
  apply (projections_constrained h hv).resolve_left
  rw [hends]
  decide

end LinkedQuery
