import LinkedQuery.Proofs.Reading.Change
import LinkedQuery.Proofs.Variables.Substitution
import Mathlib.Data.List.Forall2

/-!
# Filled matches

When a constant takes the place of the placeholder that binds a variable, the match of the value is
`Filled`: its term and pattern have the constant in the place of the variable, and the variable is
no longer selected.  Everything around the value is filled in the same way, since nothing else has
the variable.
-/

namespace LinkedQuery

/-- Whether a match is another with a term in the place of a variable, which is not selected. -/
structure Filled (v : Variable) (part : Term) (found found' : Match) : Prop where
  term_eq : found'.term = found.term.fill v part
  pattern_eq : found'.pattern = found.pattern.fill v part
  free : v ∉ found'.pattern.vars
  projections_eq : found'.projections = found.projections.filter (· ≠ v)

variable {setup : Setup} {v : Variable} {part : Term}

/-- Selected variables other than one stay when the one is left out. -/
theorem filter_ne_of_notMem {selected : List Variable} (h : v ∉ selected) :
  selected.filter (· ≠ v) = selected
  := by
  apply List.filter_eq_self.mpr
  intro w hw
  have hne : w ≠ v := fun heq => h (heq ▸ hw)
  simp [hne]

/-- A match without a variable is filled as it is. -/
theorem Filled.of_notMem {found : Match} (h : v ∉ found.vars) :
  Filled v part found found
  := by
  simp only [Match.mem_vars, not_or] at h
  exact ⟨(Term.fill_of_notMem h.1).symm, (Pattern.fill_of_notMem h.2.2.1).symm, h.2.2.1,
    (filter_ne_of_notMem h.2.2.2).symm⟩

/-- The items of an array leave out a variable that has been filled. -/
theorem Filled.itemProjections {item item' : Match} (filled : Filled v part item item')
    (closed : part.vars = []) (target : Variable) :
  itemProjections target item' = (itemProjections target item).filter (· ≠ v)
  := by
  have hterm := filled.term_eq
  simp only [LinkedQuery.itemProjections, filled.projections_eq]
  by_cases hbound : item.term = .var target
  · rw [hbound, Term.fill] at hterm
    by_cases htarget : target = v
    · have hpart : part ≠ .var v := by
        rintro rfl
        simp at closed
      simp [hterm, hbound, htarget, hpart]
    · simp [hterm, hbound, htarget]
  · have hbound' : item'.term ≠ .var target := by
      intro heq
      rw [heq] at hterm
      cases hitem : item.term with
      | var w =>
          rw [hitem, Term.fill] at hterm
          split at hterm
          · simp [← hterm] at closed
          · exact hbound (hitem.trans hterm.symm)
      | _ => simp [hitem, Term.fill] at hterm
    simp [hbound, hbound']

/-- The members of a list are filled with the first of them. -/
theorem Filled.members {item item' : Match} (filled : Filled v part item item')
    (closed : part.vars = []) {target : Variable} (apart : v ≠ target) (member : Variable)
    (several : Bool) :
  Filled v part (ListObject.membersMatch target member several item)
    (ListObject.membersMatch target member several item')
  := by
  have htarget : v ∉ (Term.var target).vars := by simpa using apart
  constructor
  · apply (Term.fill_of_notMem htarget).symm
  · simp only [ListObject.membersMatch, Pattern.fill_joinAll, List.map_cons, List.map_nil,
      Pattern.fill, Term.fill_of_notMem htarget, filled.term_eq, filled.pattern_eq]
  · have hterm : v ∉ item'.term.vars := by
      rw [filled.term_eq]
      apply Term.notMem_vars_fill
      simp [closed]
    simp only [ListObject.membersMatch, Pattern.mem_vars_joinAll, List.flatMap_cons,
      List.flatMap_nil, List.append_nil, List.mem_append, Pattern.vars, not_or]
    exact ⟨⟨htarget, hterm⟩, filled.free⟩
  · cases several with
    | false => apply filled.projections_eq
    | true => apply filled.itemProjections closed

/-- A graph is filled with its members. -/
theorem Filled.graph {item item' found found' : Match} (filled : Filled v part item item')
    (name : Name) (apart : v ∉ name.vars) (own : List Variable) (other : v ∉ own)
    (term : found.term = name.term) (term' : found'.term = name.term)
    (pattern : found.pattern = .graph name item.pattern)
    (pattern' : found'.pattern = .graph name item'.pattern)
    (projections : found.projections = own ++ item.projections)
    (projections' : found'.projections = own ++ item'.projections) :
  Filled v part found found'
  := by
  constructor
  · rw [term', term, Term.fill_of_notMem apart]
  · rw [pattern', pattern, Pattern.fill, Name.fill_of_notMem apart, filled.pattern_eq]
  · rw [pattern', Pattern.vars, List.mem_append, not_or]
    exact ⟨apart, filled.free⟩
  · rw [projections', projections, List.filter_append, filter_ne_of_notMem other,
      filled.projections_eq]

/-- What leads to a filled match is filled. -/
theorem Filled.lead {outer inner last : Visit} {make : Match → Match} {path : List Step}
    {item item' : Match} (step : Leads setup outer inner make) (comes : Comes setup inner path last)
    (other : last.task ≠ .graphMembers) (closed : part.vars = [])
    (filled : Filled last.frame.target part item item') :
  Filled last.frame.target part (make item) (make item')
  := by
  -- What is above the variable of the place is another variable.
  have hapart (target : Variable) (segment : String)
      (below : setup.naming.Below (setup.naming.child target segment) last.frame.target) :
      last.frame.target ≠ target := by
    rintro rfl
    apply Naming.Below.not_child _ _ below
  cases step with
  | document | documentGraph | documents | nodeObjects | entryValue | graphNodes | graphNode =>
      exact filled
  | items => exact ⟨filled.term_eq, filled.pattern_eq, filled.free, filled.itemProjections closed _⟩
  | topLevelGraph | listObject => exact ⟨filled.1, filled.2, filled.3, filled.4⟩
  | members | onlyMember =>
      apply filled.members closed
      apply hapart _ _ comes.target_below
  | @graphObject entries frame context key graph entered held =>
      have hne := hapart _ _ (comes.target_below_members rfl other)
      have hname : last.frame.target
          ∉ (Identity.name (GraphObject.identityOf context entries) frame.target).vars := by
        intro hmem
        exact hne (eq_target_of_mem_name hmem)
      apply filled.graph _ hname (if GraphObject.identityOf context entries = some .placeholder
        then [frame.target] else []) _ rfl rfl rfl rfl rfl rfl
      split
      · simpa using hne
      · simp
  | @graphValue value frame =>
      have hne := hapart _ _ (comes.target_below_members rfl other)
      exact filled.graph (.var frame.target) (by simpa using hne) [] (by simp) rfl rfl rfl rfl rfl
        rfl

/-! ### Node objects -/

namespace NodeObject

/-- How two shares are related when one has a term in the place of a variable. -/
structure Share.Filled (v : Variable) (part : Term) (share share' : Share) : Prop where
  required_eq : share'.required = share.required.map (Pattern.fill v part)
  optional_eq : share'.optional = share.optional.map (Pattern.fill v part)
  free : ∀ pattern ∈ share'.required ++ share'.optional, v ∉ pattern.vars
  projections_eq : share'.projections = share.projections.filter (· ≠ v)

/-- A share without a variable is filled as it is. -/
theorem Share.Filled.of_notMem {share : Share} (h : v ∉ share.vars) :
  Share.Filled v part share share
  := by
  simp only [Share.mem_vars, List.flatMap_append, List.mem_append, not_or] at h
  obtain ⟨-, ⟨hrequired, hoptional⟩, hprojections⟩ := h
  refine ⟨(Pattern.map_fill_of_notMem hrequired).symm, (Pattern.map_fill_of_notMem hoptional).symm,
    ?_, (filter_ne_of_notMem hprojections).symm⟩
  intro pattern hpattern hv
  rcases List.mem_append.mp hpattern with hpattern | hpattern
  · apply hrequired (List.mem_flatMap.mpr ⟨pattern, hpattern, hv⟩)
  · apply hoptional (List.mem_flatMap.mpr ⟨pattern, hpattern, hv⟩)

/-- Shares one after the other are filled one by one. -/
theorem Share.Filled.flatMap {scope scope' : Scope} {branches branches' : List Branch}
    (shares : List.Forall₂ (fun branch branch' =>
      Share.Filled v part (branch.share scope) (branch'.share scope')) branches branches') :
  (branches'.flatMap fun branch => (branch.share scope').required)
      = (branches.flatMap fun branch => (branch.share scope).required).map (Pattern.fill v part) ∧
    (branches'.flatMap fun branch => (branch.share scope').optional)
      = (branches.flatMap fun branch => (branch.share scope).optional).map (Pattern.fill v part) ∧
    (branches'.flatMap fun branch => (branch.share scope').projections)
      = (branches.flatMap fun branch => (branch.share scope).projections).filter (· ≠ v) ∧
    ∀ branch ∈ branches', ∀ pattern ∈ (branch.share scope').required
      ++ (branch.share scope').optional, v ∉ pattern.vars
  := by
  induction shares with
  | nil => exact ⟨rfl, rfl, rfl, by simp⟩
  | cons first _ ih =>
      obtain ⟨hrequired, hoptional, hprojections, hfree⟩ := ih
      refine ⟨?_, ?_, ?_, List.forall_mem_cons.mpr ⟨first.free, hfree⟩⟩
      · simp only [List.flatMap_cons, List.map_append, first.required_eq, hrequired]
      · simp only [List.flatMap_cons, List.map_append, first.optional_eq, hoptional]
      · simp only [List.flatMap_cons, List.filter_append, first.projections_eq, hprojections]

/-- A node object is filled with its shares. -/
theorem filled_matchOf {context : Context} {target : Variable}
    {entries entries' : List (String × Json)} {branches branches' : List Branch}
    (subject : (scopeOf context target entries').subject
      = (scopeOf context target entries).subject.fill v part)
    (shares : List.Forall₂ (fun branch branch' => Share.Filled v part
      (branch.share (scopeOf context target entries))
      (branch'.share (scopeOf context target entries'))) branches branches') :
  LinkedQuery.Filled v part (matchOf context target entries branches)
    (matchOf context target entries' branches')
  := by
  obtain ⟨hrequired, hoptional, hprojections, hfree⟩ := Share.Filled.flatMap shares
  constructor
  · apply subject
  · simp only [matchOf, assemble, List.flatMap_map, hrequired, hoptional,
      Pattern.fill_foldl Pattern.leftJoin fun _ _ => rfl, Pattern.fill_joinAll]
  · intro hv
    simp only [matchOf, assemble, List.flatMap_map,
      Pattern.mem_vars_foldl Pattern.leftJoin (fun _ _ => rfl), Pattern.mem_vars_joinAll,
      List.mem_flatMap] at hv
    rcases hv with ⟨pattern, ⟨branch, hbranch, hpattern⟩, hv⟩ |
      ⟨pattern, ⟨branch, hbranch, hpattern⟩, hv⟩
    · apply hfree branch hbranch pattern (List.mem_append_left _ hpattern) hv
    · apply hfree branch hbranch pattern (List.mem_append_right _ hpattern) hv
  · simp only [matchOf, assemble, List.flatMap_map, hprojections]

/-- The fragment of a link is filled with the match of its value. -/
theorem Link.fill_fragment (link : Link) (subject : Term) {item item' : Match}
    (term_eq : item'.term = item.term.fill v part)
    (pattern_eq : item'.pattern = item.pattern.fill v part) :
  (link.fragment subject item).fill v part = link.fragment (subject.fill v part) item'
  := by
  simp only [fragment, Pattern.fill_joinAll, List.map_cons, List.map_nil, Pattern.fill,
    propertyTriple, pattern_eq, term_eq]
  split
  · rfl
  · rfl

/-- The share of a link is filled with the match of its value. -/
theorem Link.filled_share (link : Link) (subject : Term) {item item' : Match}
    (filled : LinkedQuery.Filled v part item item') (closed : part.vars = [])
    (key : String) (shape : Shape) :
  Share.Filled v part (link.share subject key shape item)
    (link.share (subject.fill v part) key shape item')
  := by
  have hfragment := link.fill_fragment subject filled.term_eq filled.pattern_eq
  have hclosed : v ∉ part.vars := by simp [closed]
  have hfree : v ∉ (link.fragment (subject.fill v part) item').vars := by
    intro hv
    simp only [fragment, Pattern.mem_vars_joinAll, List.flatMap_cons, List.flatMap_nil,
      List.append_nil, List.mem_append, Pattern.vars, mem_vars_propertyTriple,
      filled.term_eq] at hv
    rcases hv with (hv | hv) | hv
    · exact Term.notMem_vars_fill hclosed hv
    · exact Term.notMem_vars_fill hclosed hv
    · exact filled.free hv
  constructor
  · simp only [share]
    split
    · rfl
    · rw [List.map_singleton, hfragment]
  · simp only [share]
    split
    · rfl
    · rw [List.map_singleton, hfragment]
  · intro pattern hpattern
    simp only [share, List.mem_append] at hpattern
    rcases hpattern with hpattern | hpattern
    · split at hpattern
      · cases hpattern
      · rw [List.mem_singleton.mp hpattern]
        apply hfree
    · split at hpattern
      · cases hpattern
      · rw [List.mem_singleton.mp hpattern]
        apply hfree
  · apply filled.projections_eq

/-- A node object is filled with the match of the value of one entry. -/
theorem Reads.filled {entries : List (String × Json)} {frame : Frame} {context : Context}
    {earlier later : List Branch} {row : Row} {link : Link} {inner : Context}
    {item item' : Match} {log : Log}
    (reads : Reads setup entries frame context
      (earlier ++ .linked row link inner item log :: later))
    (visited : Visited setup (earlier ++ .linked row link inner item log :: later))
    (below : setup.naming.Below link.child v) (closed : part.vars = [])
    (filled : LinkedQuery.Filled v part item item') :
  LinkedQuery.Filled v part
    (matchOf context frame.target entries (earlier ++ .linked row link inner item log :: later))
    (matchOf context frame.target entries (earlier ++ .linked row link inner item' log :: later))
  := by
  have hother (u : Variable)
      (h : u = frame.target ∨ ∃ branch ∈ earlier ++ later, u ∈ branch.introduced) : v ≠ u := by
    rintro rfl
    apply reads.not_below visited h below
  have hsubject : (scopeOf context frame.target entries).subject.fill v part
      = (scopeOf context frame.target entries).subject := by
    apply Term.fill_of_notMem
    intro hv
    exact hother v (.inl (eq_target_of_mem_subject hv)) rfl
  have hstays (branch : Branch) (hbranch : branch ∈ earlier ++ later) :
      Share.Filled v part (branch.share (scopeOf context frame.target entries))
        (branch.share (scopeOf context frame.target entries)) := by
    apply Share.Filled.of_notMem
    intro hv
    rcases Branch.mem_vars_share hv with hv | hv
    · exact hother v (.inl hv) rfl
    · exact hother v (.inr ⟨branch, hbranch, hv⟩) rfl
  apply filled_matchOf hsubject.symm
  apply List.rel_append
  · apply List.forall₂_same.mpr
    intro branch hbranch
    apply hstays branch (List.mem_append_left _ hbranch)
  · constructor
    · have hshare := link.filled_share (scopeOf context frame.target entries).subject filled closed
        row.key (inner.shape row.value)
      rw [hsubject] at hshare
      apply hshare
    · apply List.forall₂_same.mpr
      intro branch hbranch
      apply hstays branch (List.mem_append_right _ hbranch)

/-! ### The name of a node -/

/-- The classes of a node are filled with its name. -/
theorem filled_classTriples (subject : Term) (classes : List Term) (closed : part.vars = [])
    (apart : v ∉ classes.flatMap Term.vars) :
  (Pattern.basic (classes.map (classTriple subject))).fill v part
      = .basic (classes.map (classTriple (subject.fill v part))) ∧
    v ∉ (Pattern.basic (classes.map (classTriple (subject.fill v part)))).vars
  := by
  constructor
  · simp only [Pattern.fill, List.map_map]
    congr 1
    apply List.map_congr_left
    intro class' hclass
    have hfree : v ∉ class'.vars := fun hv => apart (List.mem_flatMap.mpr ⟨class', hclass, hv⟩)
    simp [classTriple, Triple.fill, Name.fill, Term.fill_of_notMem hfree]
  · simp only [Pattern.vars, List.flatMap_map, List.mem_flatMap, not_exists, not_and,
      mem_vars_classTriple, not_or]
    intro class' hclass
    constructor
    · apply Term.notMem_vars_fill
      simp [closed]
    · intro hv
      apply apart (List.mem_flatMap.mpr ⟨class', hclass, hv⟩)

/-- The share for the classes of a node is filled with the name of the node. -/
theorem filled_typeShare {scope scope' : Scope} (context : scope'.context = scope.context)
    (subject : scope'.subject = scope.subject.fill v part) (closed : part.vars = [])
    {child : Variable} (apart : v ≠ child) (key : String) (value : Json) :
  Share.Filled v part (typeShare scope child key value) (typeShare scope' child key value)
  := by
  obtain ⟨hfound, hfound'⟩ := filled_classTriples (v := v) scope.subject [.var child] closed
    (by simpa using apart)
  simp only [List.map_cons, List.map_nil, ← subject] at hfound hfound'
  have hgiven (classes : List String) := filled_classTriples (v := v) scope.subject
    (classes.map Term.iri) closed (by simp [List.flatMap_map, Term.vars])
  simp only [List.map_map, ← subject] at hgiven
  have hkept (classes : List String) : Share.Filled v part
      { template := .value value
        required := [.basic (classes.map fun iri => classTriple scope.subject (.iri iri))] }
      { template := .value value
        required := [.basic (classes.map fun iri => classTriple scope'.subject (.iri iri))] } := by
    constructor
    · rw [List.map_singleton]
      exact congrArg (fun pattern => [pattern]) (hgiven classes).1.symm
    · rfl
    · simp only [List.append_nil, List.forall_mem_singleton]
      exact (hgiven classes).2
    · rfl
  have hwarned : Share.Filled v part (.warn key value .unusableType)
      (.warn key value .unusableType) := .of_notMem not_mem_vars_warn
  have hselected : [child] = [child].filter (· ≠ v) := by simp [Ne.symm apart]
  simp only [typeShare, context]
  split
  · split
    · exact ⟨congrArg (fun pattern => [pattern]) hfound.symm, rfl, by simpa using hfound',
        hselected⟩
    · split
      · rename_i iri _
        exact hkept [iri]
      · exact hwarned
  · split
    · exact ⟨rfl, congrArg (fun pattern => [pattern]) hfound.symm, by simpa using hfound',
        hselected⟩
    · split
      · rename_i classes _
        exact hkept classes
      · exact hwarned
  · exact hwarned

/-- When the placeholder for the name of a node gives way to an IRI, the share of a branch is
filled. -/
theorem Branch.filled_name {context : Context} {branch : Branch}
    (free : v ∉ branch.introduced) (iri : String) :
  Share.Filled v (.iri iri) (branch.share ⟨v, context, some .placeholder⟩)
    (branch.share ⟨v, context, some (.iri iri)⟩)
  := by
  have hsubject : Scope.subject ⟨v, context, some (.iri iri)⟩
      = (Scope.subject ⟨v, context, some .placeholder⟩).fill v (.iri iri) :=
    (Term.fill_self v (.iri iri)).symm
  cases branch with
  | plain row =>
      obtain ⟨role, key, value⟩ := row
      cases role with
      | id => exact ⟨rfl, rfl, by simp [share, Row.plainShare, idShare, Share.keep],
          by simp [share, Row.plainShare, idShare, Share.keep]⟩
      | type child =>
          have hne : v ≠ child := by simpa [introduced] using free
          refine filled_typeShare ?_ hsubject ?_ hne key value
          · rfl
          · rfl
      | context => exact .of_notMem not_mem_vars_keep
      | property iri' reverse child =>
          simp only [share, Row.plainShare]
          split
          · exact .of_notMem not_mem_vars_warn
          · exact .of_notMem not_mem_vars_warn
      | _ => exact .of_notMem not_mem_vars_warn
  | linked row link inner item log =>
      rw [share, share, hsubject]
      apply link.filled_share _ (.of_notMem free) rfl

end NodeObject

/-- Being filled is carried to what is around a place. -/
theorem carries_filled {last : Visit} (other : last.task ≠ .graphMembers)
    (closed : part.vars = []) :
  Carries setup last fun _ => Filled last.frame.target part
  := by
  constructor
  · intro outer inner make path item item' step _ comes _ filled
    apply filled.lead step comes other closed
  · intro entries frame context earlier later row link inner path item item' log reads visited _
      comes filled
    apply reads.filled visited comes.target_below closed filled

end LinkedQuery
