import LinkedQuery.Proofs.Reading.Log
import LinkedQuery.Proofs.Variables.Scope
import Mathlib.Tactic.Use

/-!
# The tokens of queries

Whatever a document holds, its query is put together from tokens of a fixed form (`query_tokens`).
Variables are named by segments between separators, and every IRI and language tag has passed its
check, wherever its text comes from: keys, names, classes, datatypes, coercions or contexts.  What a
document says freely is only the text of literals, which is written between quotes.
-/

namespace LinkedQuery

/-! ### Names of variables -/

/-- Whether a variable is named by a root, behind which there are groups of marks with a segment. -/
def Variable.WellFormed (v : Variable) : Prop :=
  ∃ (root : List Char) (groups : List (Nat × List Char)),
    root ≠ [] ∧ (∀ c ∈ root, isSegmentChar c = true)
      ∧ (∀ group ∈ groups, 0 < group.1 ∧ ∀ c ∈ group.2, isSegmentChar c = true)
      ∧ v.name.toList
        = root ++ groups.flatMap fun group => List.replicate group.1 separatorMark ++ group.2

namespace Naming

variable (naming : Naming)

theorem rootVariable_wellFormed :
  naming.rootVariable.WellFormed
  := by
  have h := naming.root_valid
  simp only [isRootName, Bool.and_eq_true, Bool.not_eq_true', List.isEmpty_eq_false_iff,
    List.all_eq_true] at h
  use naming.root.toList, [], h.1, h.2
  simp [rootVariable]

/-- A separator is some marks. -/
theorem separator_eq_replicate :
  ∃ count, 0 < count ∧ naming.separator.toList = List.replicate count separatorMark
  := by
  have h := naming.separator_valid
  simp only [isSeparator, Bool.and_eq_true, Bool.not_eq_true', List.isEmpty_eq_false_iff,
    List.all_eq_true, decide_eq_true_eq] at h
  use naming.separator.toList.length, List.length_pos_iff.mpr h.1
  apply List.eq_replicate_of_mem h.2

/-- A child is named by one more group than its parent. -/
theorem child_wellFormed {v : Variable} (wellFormed : v.WellFormed) (segment : String) :
  (naming.child v segment).WellFormed
  := by
  obtain ⟨root, groups, nonempty, hroot, hgroups, hname⟩ := wellFormed
  obtain ⟨count, pos, hseparator⟩ := naming.separator_eq_replicate
  use root, groups ++ [(count, (segmentOf segment).toList)], nonempty, hroot
  constructor
  · intro group hgroup
    obtain hgroup | hgroup := List.mem_append.mp hgroup
    · apply hgroups group hgroup
    · obtain rfl := List.mem_singleton.mp hgroup
      apply And.intro pos
      apply List.all_eq_true.mp (all_isSegmentChar_segmentOf segment)
  · simp [child, hname, hseparator]

variable {naming}

theorem Below.wellFormed {u v : Variable} (below : naming.Below u v) (wellFormed : u.WellFormed) :
  v.WellFormed
  := by
  induction below with
  | self => apply wellFormed
  | child segment _ ih => apply naming.child_wellFormed ih

end Naming

/-! ### Checked terms -/

/-- Whether the datatype or the language of a literal has passed its check. -/
inductive Literal.Accepted : Literal → Prop where
  | plain (text : String) : Accepted (.plain text)
  | tagged (text : String) {written language : String}
      (normal : LanguageTag.normalize? written = some language) : Accepted (.tagged text language)
  | typed (text : String) {datatype : String} (valid : Iri.isValid datatype = true) :
      Accepted (.typed text datatype)

/-- Whether a term has passed its check, if it needs one. -/
inductive Term.Accepted : Term → Prop where
  | var (v : Variable) : Accepted (.var v)
  | iri {value : String} (valid : Iri.isValid value = true) : Accepted (.iri value)
  | literal {literal : Literal} (accepted : literal.Accepted) : Accepted (.literal literal)

section Constants

variable {context : Context}

theorem Context.isValid_of_validIri? {value iri : String} {inVocab : Bool}
    (h : context.validIri? value inVocab = some iri) :
  Iri.isValid iri = true
  := (Option.filter_eq_some_iff.mp h).2

theorem Literal.ofDatatype_accepted (text : String) {datatype : String}
    (valid : Iri.isValid datatype = true) :
  (ofDatatype text datatype).Accepted
  := by
  unfold ofDatatype
  split
  · apply Accepted.plain
  · apply Accepted.typed text valid

/-- The datatypes of numbers and truth values are IRIs. -/
theorem Scalar.literal_accepted (scalar : Scalar) :
  scalar.literal.Accepted
  := by
  cases scalar with
  | boolean value => apply Literal.Accepted.typed _ (by decide +kernel)
  | number value => cases value <;> apply Literal.Accepted.typed _ (by decide +kernel)
  | string text => apply Literal.Accepted.plain

/-- The constant of a scalar is checked under every coercion. -/
theorem Scalar.constant_accepted (scalar : Scalar) (coercion : Option Coercion) :
  (scalar.constant context coercion).1.Accepted
  := by
  unfold constant
  dsimp only
  split
  · split
    · rename_i iri hiri
      apply Term.Accepted.iri (context.isValid_of_validIri? hiri)
    · apply Term.Accepted.literal (.plain _)
  · split
    · rename_i iri hiri
      apply Term.Accepted.iri (context.isValid_of_validIri? hiri)
    · apply Term.Accepted.literal (.plain _)
  · apply Term.Accepted.literal (Literal.ofDatatype_accepted _ (by decide +kernel))
  · apply Term.Accepted.literal
    unfold Literal.ofUncheckedDatatype
    split
    · rename_i valid
      apply Literal.ofDatatype_accepted _ valid
    · apply Literal.Accepted.plain
  · apply Term.Accepted.literal scalar.literal_accepted

/-- The literal of a value object is checked if its datatype is. -/
theorem ValueObject.literalOf_accepted (scalar : Scalar) (language : Option (String × String))
    {datatype : Option String} (valid : ∀ iri ∈ datatype, Iri.isValid iri = true) :
  (literalOf scalar language datatype).1.Accepted
  := by
  unfold literalOf
  split
  · split
    · rename_i normal
      apply Literal.Accepted.tagged _ normal
    · apply Literal.Accepted.plain
  · unfold withDatatype
    split
    · apply Literal.ofDatatype_accepted _ (valid _ rfl)
    · apply scalar.literal_accepted

theorem ValueObject.datatypeIn_valid (entries : List (String × Json)) :
  ∀ iri ∈ (datatypeIn context entries).1, Iri.isValid iri = true
  := by
  intro iri h
  unfold datatypeIn at h
  split at h
  · unfold datatypeOf at h
    split at h
    · rename_i found hfound
      obtain rfl : found = iri := by simpa using h
      obtain ⟨text, -, hvalid⟩ := Option.bind_eq_some_iff.mp hfound
      apply context.isValid_of_validIri? hvalid
    · simp at h
  · simp at h

theorem Context.identity_valid {value : Json} {iri : String}
    (h : context.identity value = .iri iri) :
  Iri.isValid iri = true
  := by
  unfold identity at h
  split at h
  · cases h
  · split at h
    · split at h
      · rename_i hvalid
        cases h
        apply isValid_of_validIri? hvalid
      · cases h
    · cases h

/-- The name of an object is its variable or an IRI. -/
theorem Context.name_accepted (entry : Option (String × Json)) (target : Variable) :
  (Identity.name (entry.map fun entry => context.identity entry.2) target).term.Accepted
  := by
  unfold Identity.name
  split
  · rename_i iri h
    obtain ⟨entry, -, hidentity⟩ := Option.map_eq_some_iff.mp h
    apply Term.Accepted.iri (context.identity_valid hidentity)
  · apply Term.Accepted.var

end Constants

/-! ### Checked patterns -/

/-- The terms of a triple. -/
def Triple.terms (triple : Triple) : List Term :=
  [triple.subject, triple.predicate.term, triple.object]

namespace Pattern

/-- The terms of a pattern, with the IRIs of the steps that lead to the members of a list. -/
def terms : Pattern → List Term
  | .basic triples => triples.flatMap Triple.terms
  | .members list member => [list, .iri Vocabulary.rdfRest, .iri Vocabulary.rdfFirst, member]
  | .join left right => terms left ++ terms right
  | .leftJoin left right => terms left ++ terms right
  | .graph name inner => name.term :: terms inner
  | .project inner _ => terms inner

/-- Whether all terms of a pattern have passed their checks. -/
def Accepted (pattern : Pattern) : Prop :=
  ∀ term ∈ pattern.terms, term.Accepted

theorem empty_accepted :
  empty.Accepted
  := by simp [Accepted, empty, terms]

theorem joinAll_accepted {parts : List Pattern} (accepted : ∀ part ∈ parts, part.Accepted) :
  (joinAll parts).Accepted
  := by
  intro term h
  have hterms : (joinAll parts).terms = parts.flatMap terms :=
    collect_joinAll (fun _ => rfl) (fun _ _ => rfl) parts
  rw [hterms] at h
  obtain ⟨part, hpart, hterm⟩ := List.mem_flatMap.mp h
  apply accepted part hpart term hterm

theorem leftJoins_accepted {first : Pattern} {parts : List Pattern} (start : first.Accepted)
    (accepted : ∀ part ∈ parts, part.Accepted) :
  (parts.foldl leftJoin first).Accepted
  := by
  intro term h
  have hterms : (parts.foldl leftJoin first).terms = first.terms ++ parts.flatMap terms :=
    collect_foldl leftJoin (fun _ _ => rfl) first parts
  rw [hterms] at h
  obtain h | h := List.mem_append.mp h
  · apply start term h
  · obtain ⟨part, hpart, hterm⟩ := List.mem_flatMap.mp h
    apply accepted part hpart term hterm

theorem triple_accepted {subject object : Term} {predicate : String} (hsubject : subject.Accepted)
    (valid : Iri.isValid predicate = true) (hobject : object.Accepted) :
  (basic [⟨subject, .iri predicate, object⟩]).Accepted
  := by
  have hpredicate : (Term.iri predicate).Accepted := .iri valid
  simp [Accepted, terms, Triple.terms, Name.term, hsubject, hpredicate, hobject]

/-- The steps to the members of a list are fixed IRIs. -/
theorem members_accepted {list member : Term} (hlist : list.Accepted) (hmember : member.Accepted) :
  (members list member).Accepted
  := by
  have hrest : (Term.iri Vocabulary.rdfRest).Accepted := .iri (by decide +kernel)
  have hfirst : (Term.iri Vocabulary.rdfFirst).Accepted := .iri (by decide +kernel)
  simp [Accepted, terms, hlist, hrest, hfirst, hmember]

theorem graph_accepted {name : Name} {inner : Pattern} (hname : name.term.Accepted)
    (hinner : inner.Accepted) :
  (graph name inner).Accepted
  := List.forall_mem_cons.mpr ⟨hname, hinner⟩

end Pattern

/-- Whether what an element stands for and its pattern have passed their checks. -/
structure Match.Accepted (found : Match) : Prop where
  term : found.term.Accepted
  pattern : found.pattern.Accepted

/-! ### Checked shares -/

namespace NodeObject

/-- Whether the patterns of a share have passed their checks. -/
def Share.Accepted (share : Share) : Prop :=
  ∀ part ∈ share.required ++ share.optional, part.Accepted

theorem Share.keep_accepted (value : Json) :
  (keep value).Accepted
  := by simp [Accepted, keep]

theorem Share.warn_accepted (key : String) (value : Json) (notice : Notice) :
  (warn key value notice).Accepted
  := by simp [Accepted, warn]

section Shares

variable {setup : Setup} {scope : Scope}

theorem idShare_accepted (key : String) (value : Json) :
  (idShare scope key value).Accepted
  := by
  unfold idShare
  split
  · simp [Share.Accepted]
  · apply Share.warn_accepted
  · apply Share.keep_accepted

theorem classOf?_valid {value : Json} {iri : String} (h : classOf? scope.context value = some iri) :
  Iri.isValid iri = true
  := by
  simp only [classOf?, Option.ite_none_left_eq_some] at h
  obtain ⟨text, -, hvalid⟩ := Option.bind_eq_some_iff.mp h.2
  apply Context.isValid_of_validIri? hvalid

theorem mapM_classOf?_valid {items : List Json} {classes : List String}
    (h : items.mapM (classOf? scope.context) = some classes) :
  ∀ iri ∈ classes, Iri.isValid iri = true
  := by
  induction items generalizing classes with
  | nil =>
      obtain rfl : classes = [] := by simpa using h.symm
      simp
  | cons item items ih =>
      rw [List.mapM_cons] at h
      obtain ⟨first, hfirst, h⟩ := Option.bind_eq_some_iff.mp h
      obtain ⟨others, hothers, h⟩ := Option.bind_eq_some_iff.mp h
      obtain rfl := Option.some.inj h
      intro iri hiri
      obtain rfl | hiri := List.mem_cons.mp hiri
      · apply classOf?_valid hfirst
      · apply ih hothers iri hiri

theorem class_accepted {class' : Term} (subject : scope.subject.Accepted)
    (accepted : class'.Accepted) :
  (Pattern.basic [classTriple scope.subject class']).Accepted
  := Pattern.triple_accepted subject (by decide +kernel) accepted

theorem classes_accepted {classes : List String} (subject : scope.subject.Accepted)
    (valid : ∀ iri ∈ classes, Iri.isValid iri = true) :
  (Pattern.basic (classes.map fun iri => classTriple scope.subject (.iri iri))).Accepted
  := by
  intro term hterm
  simp only [Pattern.terms, List.flatMap_map, List.mem_flatMap] at hterm
  obtain ⟨iri, hiri, hterm⟩ := hterm
  apply class_accepted subject (.iri (valid iri hiri)) term
  simpa [Pattern.terms] using hterm

/-- The classes of a node are found through a variable or are IRIs. -/
theorem typeShare_accepted (subject : scope.subject.Accepted) (child : Variable) (key : String)
    (value : Json) :
  (typeShare scope child key value).Accepted
  := by
  have found : (Pattern.basic [classTriple scope.subject (.var child)]).Accepted :=
    class_accepted subject (.var child)
  unfold typeShare
  split
  · split
    · simpa [Share.Accepted] using found
    · split
      · rename_i iri hiri
        have given := class_accepted subject (.iri (classOf?_valid hiri))
        simpa [Share.Accepted] using given
      · apply Share.warn_accepted
  · split
    · simpa [Share.Accepted] using found
    · split
      · rename_i classes hclasses
        have given := classes_accepted subject (mapM_classOf?_valid hclasses)
        simpa [Share.Accepted] using given
      · apply Share.warn_accepted
  · apply Share.warn_accepted

theorem Row.plainShare_accepted (subject : scope.subject.Accepted) (row : Row) :
  (row.plainShare scope).Accepted
  := by
  obtain ⟨role, key, value⟩ := row
  cases role with
  | context => apply Share.keep_accepted
  | id => apply idShare_accepted
  | type child => apply typeShare_accepted subject
  | property iri reverse child =>
      simp only [plainShare]
      split
      · apply Share.warn_accepted
      · apply Share.warn_accepted
  | _ => apply Share.warn_accepted

theorem Row.isValid_of_link {context : Context} {row : Row} {link : Link}
    (h : row.link? context = some link) :
  Iri.isValid link.iri = true
  := by
  rw [link?] at h
  split at h
  · simp only [Option.ite_none_right_eq_some, Option.some.injEq] at h
    rw [← h.2]
    apply h.1.2
  · cases h

/-- The fragment of a link relates the node by a checked IRI. -/
theorem Link.fragment_accepted {link : Link} {subject : Term} {item : Match}
    (valid : Iri.isValid link.iri = true) (hsubject : subject.Accepted) (hitem : item.Accepted) :
  (link.fragment subject item).Accepted
  := by
  apply Pattern.joinAll_accepted
  intro part hpart
  obtain rfl | rfl : part = _ ∨ part = _ := by simpa using hpart
  · unfold propertyTriple
    split
    · apply Pattern.triple_accepted hitem.term valid hsubject
    · apply Pattern.triple_accepted hsubject valid hitem.term
  · apply hitem.pattern

/-- The share of a branch is checked if the match of its value is. -/
theorem Branch.share_accepted {branch : Branch} (subject : scope.subject.Accepted)
    (fits : branch.Fits setup scope.context)
    (read : ∀ row link inner item log, branch = .linked row link inner item log → item.Accepted) :
  (branch.share scope).Accepted
  := by
  cases branch with
  | plain row => apply row.plainShare_accepted subject
  | linked row link inner item log =>
      have hfragment := Link.fragment_accepted (Row.isValid_of_link fits.1) subject
        (read row link inner item log rfl)
      intro part hpart
      obtain rfl : part = link.fragment scope.subject item := by
        simp only [share, Link.share, List.mem_append] at hpart
        obtain hpart | hpart := hpart
        · split at hpart
          · simp at hpart
          · simpa using hpart
        · split at hpart
          · simp at hpart
          · simpa using hpart
      apply hfragment

end Shares

/-- The match of a node object is checked if its branches are. -/
theorem matchOf_accepted {context : Context} {target : Variable} {entries : List (String × Json)}
    {branches : List Branch}
    (accepted : ∀ branch ∈ branches, (branch.share (scopeOf context target entries)).Accepted) :
  (matchOf context target entries branches).Accepted
  where
  term := context.name_accepted _ _
  pattern := by
    have within (part : Pattern)
        (h : ∃ branch ∈ branches, part ∈ (branch.share (scopeOf context target entries)).required
          ++ (branch.share (scopeOf context target entries)).optional) :
        part.Accepted := by
      obtain ⟨branch, hbranch, hpart⟩ := h
      apply accepted branch hbranch part hpart
    apply Pattern.leftJoins_accepted
    · apply Pattern.joinAll_accepted
      intro part hpart
      apply within
      simp only [List.flatMap_map, List.mem_flatMap] at hpart
      obtain ⟨branch, hbranch, hpart⟩ := hpart
      use branch, hbranch, List.mem_append_left _ hpart
    · intro part hpart
      apply within
      simp only [List.flatMap_map, List.mem_flatMap] at hpart
      obtain ⟨branch, hbranch, hpart⟩ := hpart
      use branch, hbranch, List.mem_append_right _ hpart

end NodeObject

/-! ### Checked matches -/

section Derivations

variable {setup : Setup}

theorem ValueObject.matchOf_accepted (context : Context) (target : Variable)
    (entries : List (String × Json)) (key : String) (value : Json) :
  (matchOf context target entries key value).Accepted
  := by
  unfold matchOf
  split
  · use .var target, Pattern.empty_accepted
  · constructor
    · dsimp only
      unfold constantOf
      split
      · apply Term.Accepted.literal (literalOf_accepted _ _ (datatypeIn_valid entries))
      · apply Term.Accepted.var
    · apply Pattern.empty_accepted

/-- The match of a visit that leads to no other is checked. -/
theorem Ends.accepted {visit : Visit} {found : Match} (last : Ends setup visit found) :
  found.Accepted
  := by
  cases last with
  | scalar known held => use Scalar.constant_accepted _ _, Pattern.empty_accepted
  | valueObject entered held => apply ValueObject.matchOf_accepted
  | noMembers => use .iri (by decide +kernel), Pattern.empty_accepted
  | _ => use .var _, Pattern.empty_accepted

/-- A visit makes a checked match of a checked one. -/
theorem Leads.accepted {outer inner : Visit} {make : Match → Match}
    (step : Leads setup outer inner make) {found : Match} (accepted : found.Accepted) :
  (make found).Accepted
  := by
  have members (target member : Variable) (several : Bool) :
      (ListObject.membersMatch target member several found).Accepted := by
    use .var target
    unfold ListObject.membersMatch
    dsimp only
    apply Pattern.joinAll_accepted
    intro part hpart
    obtain rfl | rfl : part = _ ∨ part = _ := by simpa using hpart
    · apply Pattern.members_accepted (.var target) accepted.term
    · apply accepted.pattern
  cases step with
  | members | onlyMember => apply members
  | @graphObject entries frame context key graph entered held =>
      have name := context.name_accepted (context.entryFor? entries .id) frame.target
      use name, Pattern.graph_accepted name accepted.pattern
  | graphValue => use .var _, Pattern.graph_accepted (.var _) accepted.pattern
  | _ => use accepted.term, accepted.pattern

/-- All matches are checked. -/
theorem Derives.accepted {visit : Visit} {found : Match} {log : Log}
    (derived : Derives setup visit found log) :
  found.Accepted
  := by
  induction derived with
  | ends last => apply last.accepted
  | leads step _ ih => apply step.accepted ih
  | @node entries frame context branches reads _ ih =>
      have subject : (NodeObject.scopeOf context frame.target entries).subject.Accepted :=
        context.name_accepted _ _
      apply NodeObject.matchOf_accepted
      intro branch hbranch
      apply NodeObject.Branch.share_accepted subject (reads.fits branch hbranch)
      rintro row link inner item log rfl
      apply ih row link inner item log hbranch

end Derivations

/-! ### Tokens of queries -/

/-- No IRI is the label of a blank node. -/
theorem Iri.not_blank {iri : String} (valid : isValid iri = true) :
  ¬ ['_', ':'] <+: iri.toList
  := by
  rintro ⟨rest, heq⟩
  have noScheme : splitScheme iri.toList = (none, iri.toList) := by
    simp [← heq, splitScheme, splitAtColon, isScheme, isLetter]
  simp [isValid, Components.ofList, noScheme] at valid

/-- The tokens of a query: its variables are well formed, and its other terms have passed their
checks.  None of them is a blank node. -/
theorem query_tokens {loader : Loader} {root separator : String} {document : Json} {query : Query}
    (h : (⟨loader, .ofText root separator⟩ : Setup).grammar.query document = .ok query) :
  (∀ v ∈ query.pattern.vars ++ query.projections ++ query.template.vars, v.WellFormed)
    ∧ (∀ term ∈ query.pattern.terms, term.Accepted)
    ∧ ∀ value, .iri value ∈ query.pattern.terms → ¬ ['_', ':'] <+: value.toList
  := by
  obtain ⟨found, log, derived, rfl⟩ := query_eq_ok.mp h
  have accepted : ∀ term ∈ found.query.pattern.terms, term.Accepted := derived.accepted.pattern
  constructor
  · intro v hv
    have hv : v ∈ found.vars := by
      simp only [Match.query, Query.projections, Pattern.vars, distinct, List.mem_append,
        List.mem_eraseDups] at hv
      rw [Match.mem_vars]
      grind
    apply (derived.within v hv).wellFormed
    apply Naming.rootVariable_wellFormed
  · apply And.intro accepted
    intro value hvalue
    cases accepted _ hvalue with
    | iri valid => apply Iri.not_blank valid

/-- A film with texts that would end a token in a query. -/
def untidyFilm : Json :=
  .object
    [("@id", .string "ex:film> . ?s"),
      ("ex:title", .object [("@value", .string "\"A film\" . ?s"), ("@language", .string "EN-gb")]),
      ("ex:year ;", .string "?"), ("ex:actor", .array [.object [("ex:name", .string "?")]])]

/-- The film is not named and its year is not asked for; the tag of the title is in small letters,
and the root and the separator fit for names. -/
theorem query_tokens_film :
  ∃ query, (⟨.disabled, .ofText "the film" " · "⟩ : Setup).grammar.query untidyFilm = .ok query
    ∧ query.projections = [⟨"the_film·actor"⟩, ⟨"the_film·actor·name"⟩]
    ∧ .literal (.tagged "\"A film\" . ?s" "en-gb") ∈ query.pattern.terms
    ∧ (∀ v ∈ query.pattern.vars ++ query.projections ++ query.template.vars, v.WellFormed)
    ∧ (∀ term ∈ query.pattern.terms, term.Accepted)
    ∧ ∀ value, .iri value ∈ query.pattern.terms → ¬ ['_', ':'] <+: value.toList
  := by
  have houtcome : ((⟨.disabled, .ofText "the film" " · "⟩ : Setup).grammar.query
        untidyFilm).toOption.map (fun query => (query.projections,
          decide (.literal (.tagged "\"A film\" . ?s" "en-gb") ∈ query.pattern.terms)))
      = some ([⟨"the_film·actor"⟩, ⟨"the_film·actor·name"⟩], true) := by
    decide +kernel
  obtain ⟨query, h, heq⟩ := exists_of_outcome _ _ houtcome
  obtain ⟨hselected, htitle⟩ := Prod.mk.inj heq
  use query, h, hselected, of_decide_eq_true htitle
  apply query_tokens h

end LinkedQuery
