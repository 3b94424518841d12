import LinkedQuery.Proofs.Reading.Log
import LinkedQuery.Proofs.Reading.Place
import LinkedQuery.Proofs.Reading.Progress

/-!
# The subjects of queries

The subject of a triple is a variable or an IRI, since literals have no properties.  The node objects
of a document are never literals, so a literal can only become a subject when a reversed property
leads to it.  Nothing stops it there: `query_subjects_iff` says that the subjects of a query are
variables and IRIs exactly when no reversed property leads to a literal.
-/

namespace LinkedQuery

open NodeObject (LinkedAt)

/-! ### Subjects of patterns -/

/-- Whether a term is a literal. -/
def Term.isLiteral : Term → Bool
  | .literal _ => true
  | _ => false

theorem Term.isLiteral_eq_false {term : Term} :
  term.isLiteral = false ↔ (∃ v, term = .var v) ∨ ∃ iri, term = .iri iri
  := by
  cases term with
  | var v => simp [isLiteral]
  | iri value => simp [isLiteral]
  | literal value => simp [isLiteral]

/-- Names are no literals. -/
@[simp]
theorem Name.isLiteral_term (name : Name) :
  name.term.isLiteral = false
  := by
  cases name with
  | var v => rfl
  | iri value => rfl

namespace Pattern

/-- The subjects of the triples and of the paths of a pattern. -/
def subjects : Pattern → List Term
  | .basic triples => triples.flatMap fun triple => [triple.subject]
  | .members list _ => [list]
  | .join left right => subjects left ++ subjects right
  | .leftJoin left right => subjects left ++ subjects right
  | .graph _ inner => subjects inner
  | .project inner _ => subjects inner

/-- Whether a literal is the subject of a triple or of a path. -/
def HasLiteralSubject (pattern : Pattern) : Prop :=
  ∃ subject ∈ pattern.subjects, subject.isLiteral = true

@[simp]
theorem not_hasLiteralSubject_empty :
  ¬ empty.HasLiteralSubject
  := by
  rintro ⟨subject, hsubject, -⟩
  cases hsubject

theorem hasLiteralSubject_basic {triples : List Triple} :
  (basic triples).HasLiteralSubject ↔ ∃ triple ∈ triples, triple.subject.isLiteral = true
  := by
  simp [HasLiteralSubject, subjects]

@[simp]
theorem hasLiteralSubject_members {list member : Term} :
  (members list member).HasLiteralSubject ↔ list.isLiteral = true
  := by
  simp [HasLiteralSubject, subjects]

/-- A conjunction has the subjects of its parts. -/
@[simp]
theorem hasLiteralSubject_joinAll {parts : List Pattern} :
  (joinAll parts).HasLiteralSubject ↔ ∃ part ∈ parts, part.HasLiteralSubject
  := by
  have h : (joinAll parts).subjects = parts.flatMap subjects :=
    collect_joinAll (fun _ => rfl) (fun _ _ => rfl) parts
  simp only [HasLiteralSubject, h, List.mem_flatMap]
  grind

theorem hasLiteralSubject_leftJoins {first : Pattern} {parts : List Pattern} :
  (parts.foldl leftJoin first).HasLiteralSubject
    ↔ first.HasLiteralSubject ∨ ∃ part ∈ parts, part.HasLiteralSubject
  := by
  have h : (parts.foldl leftJoin first).subjects = first.subjects ++ parts.flatMap subjects :=
    collect_foldl leftJoin (fun _ _ => rfl) first parts
  simp only [HasLiteralSubject, h, List.mem_append, List.mem_flatMap]
  grind

end Pattern

variable {setup : Setup}

/-! ### Values that stand for literals -/

/-- The visits to values that stand for a literal: a scalar that its coercion does not make an IRI,
a value object with a scalar, and an array that begins with one of these. -/
inductive StandsForLiteral (setup : Setup) : Visit → Prop where
  | scalar {value : Json} {scalar : Scalar} {frame : Frame} (known : value.isPlaceholder = false)
      (held : value.scalar? = some scalar)
      (literal : (scalar.constant frame.context frame.coercion).1.isLiteral = true) :
      StandsForLiteral setup ⟨.production .scalar, value, frame⟩
  | valueObject {entries : List (String × Json)} {frame : Frame} {context : Context}
      {key : String} {value : Json} {scalar : Scalar}
      (entered : setup.enter frame.context (entries.lookup Keyword.context.text) = .ok context)
      (valued : context.entryFor? entries .value = some (key, value))
      (known : value.isPlaceholder = false) (held : value.scalar? = some scalar) :
      StandsForLiteral setup ⟨.production .valueObject, .object entries, frame⟩
  | items {production : Production} {first : Json} {rest : List Json} {frame : Frame}
      (stands : StandsForLiteral setup ⟨.production production, first, frame⟩) :
      StandsForLiteral setup ⟨.items production, .array (first :: rest), frame⟩
  | entryValue {value : Json} {frame : Frame} {context : Context} {task : Task}
      (entered : setup.enter frame.context (value.entry? Keyword.context.text) = .ok context)
      (chosen : EntryValue.task? (context.shape value) = some task)
      (stands : StandsForLiteral setup ⟨task, value, frame⟩) :
      StandsForLiteral setup ⟨.production .entryValue, value, frame⟩

/-- A value object stands for a literal when it holds a scalar other than the placeholder. -/
theorem ValueObject.isLiteral_matchOf {context : Context} {target : Variable}
    {entries : List (String × Json)} {key : String} {value : Json} :
  (matchOf context target entries key value).term.isLiteral = true
    ↔ value.isPlaceholder = false ∧ ∃ scalar, value.scalar? = some scalar
  := by
  rw [matchOf]
  cases known : value.isPlaceholder with
  | true => simp [Term.isLiteral]
  | false =>
      cases held : value.scalar? with
      | some scalar => simp [constantOf, held, Term.isLiteral]
      | none => simp [constantOf, held, Term.isLiteral]

/-- A visit that leads to no other has a literal when its value stands for one. -/
theorem Ends.isLiteral_iff {visit : Visit} {found : Match} (last : Ends setup visit found) :
  found.term.isLiteral = true ↔ StandsForLiteral setup visit
  := by
  have neither {visit : Visit} {v : Variable} (h : ¬ StandsForLiteral setup visit) :
      (Term.var v).isLiteral = true ↔ StandsForLiteral setup visit := by
    simp [Term.isLiteral, h]
  cases last with
  | null =>
      apply neither
      intro h
      cases h with
      | entryValue entered chosen stands => cases chosen
  | placeholder =>
      apply neither
      intro h
      cases h with
      | scalar known held literal => exact absurd known (by decide)
  | scalar known held =>
      constructor
      · intro literal
        apply StandsForLiteral.scalar known held literal
      · intro h
        cases h with
        | scalar known' held' literal =>
            rw [held, Option.some.injEq] at held'
            subst held'
            exact literal
  | valueObject entered valued =>
      rw [ValueObject.isLiteral_matchOf]
      constructor
      · rintro ⟨known, scalar, held⟩
        apply StandsForLiteral.valueObject entered valued known held
      · intro h
        cases h with
        | valueObject entered' valued' known held =>
            rw [entered, Except.ok.injEq] at entered'
            subst entered'
            rw [valued, Option.some.injEq] at valued'
            obtain ⟨rfl, rfl⟩ := Prod.mk.inj valued'
            exact ⟨known, _, held⟩
  | noMembers =>
      constructor
      · intro h
        cases h
      · intro h
        cases h
  | _ =>
      apply neither
      intro h
      cases h

/-- A visit that leads to another has a literal when its value stands for one. -/
theorem Leads.isLiteral_iff {outer inner : Visit} {make : Match → Match} {found : Match}
    (step : Leads setup outer inner make)
    (h : found.term.isLiteral = true ↔ StandsForLiteral setup inner) :
  (make found).term.isLiteral = true ↔ StandsForLiteral setup outer
  := by
  -- Apart from arrays and the values of entries, the outer visit never stands for a literal.
  have neither {outer : Visit} {term : Term} (hterm : term.isLiteral ≠ true)
      (houter : ¬ StandsForLiteral setup outer) :
      term.isLiteral = true ↔ StandsForLiteral setup outer := by
    simp [hterm, houter]
  cases step with
  | entryValue entered chosen =>
      apply h.trans
      constructor
      · apply StandsForLiteral.entryValue entered chosen
      · intro houter
        cases houter with
        | entryValue entered' chosen' stands =>
            rw [entered, Except.ok.injEq] at entered'
            subst entered'
            rw [chosen, Option.some.injEq] at chosen'
            subst chosen'
            exact stands
  | items =>
      apply h.trans
      constructor
      · apply StandsForLiteral.items
      · intro houter
        cases houter with
        | items stands => exact stands
  | members | onlyMember | graphValue =>
      apply neither
      · apply Bool.false_ne_true
      · intro houter
        cases houter
  | graphObject entered held =>
      apply neither
      · simp [GraphObject.matchOf]
      · intro houter
        cases houter
  | nodeObjects | graphNodes =>
      apply neither
      · rw [id_eq, ne_eq, h]
        intro hinner
        cases hinner with
        | items stands => cases stands
      · intro houter
        cases houter
  | @topLevelGraph entries frame context key graph production entered held chosen =>
      apply neither
      · rw [TopLevelGraph.matchOf, ne_eq, h]
        intro hinner
        cases graph with
        | array items =>
            cases chosen
            cases hinner
        | object entries =>
            cases chosen
            cases hinner
        | _ => cases chosen
      · intro houter
        cases houter
  | _ =>
      apply neither
      · apply h.not.mpr
        intro hinner
        cases hinner
      · intro houter
        cases houter

/-- A match has a literal when the value of the visit stands for one. -/
theorem Derives.isLiteral_iff {visit : Visit} {found : Match} {log : Log}
    (derived : Derives setup visit found log) :
  found.term.isLiteral = true ↔ StandsForLiteral setup visit
  := by
  induction derived with
  | ends last => apply last.isLiteral_iff
  | leads step _ ih => apply step.isLiteral_iff ih
  | node reads _ _ =>
      constructor
      · intro h
        simp [NodeObject.matchOf, NodeObject.assemble, NodeObject.Scope.subject] at h
      · intro h
        cases h

/-! ### Patterns of node objects -/

namespace NodeObject

/-- Whether a literal is a subject in a part of a share. -/
def Share.HasLiteralSubject (share : Share) : Prop :=
  ∃ part ∈ share.required ++ share.optional, part.HasLiteralSubject

section Shares

variable {scope : Scope}

/-- The node itself is no literal. -/
theorem Scope.isLiteral_subject (scope : Scope) :
  scope.subject.isLiteral = false
  := Name.isLiteral_term _

theorem not_hasLiteralSubject_warn (key : String) (value : Json) (notice : Notice) :
  ¬ (Share.warn key value notice).HasLiteralSubject
  := by simp [Share.HasLiteralSubject, Share.warn]

theorem not_hasLiteralSubject_keep (value : Json) :
  ¬ (Share.keep value).HasLiteralSubject
  := by simp [Share.HasLiteralSubject, Share.keep]

/-- The subject of the classes is the node. -/
theorem not_hasLiteralSubject_typeShare (child : Variable) (key : String) (value : Json) :
  ¬ (typeShare scope child key value).HasLiteralSubject
  := by
  have hclasses := typeShare_classes scope child key value
  generalize typeShare scope child key value = share at hclasses
  cases hclasses with
  | unusable => apply not_hasLiteralSubject_warn
  | _ =>
      simp [Share.HasLiteralSubject, Pattern.hasLiteralSubject_basic, classTriple,
        scope.isLiteral_subject]

/-- An entry without a link has the node for its only subject. -/
theorem Row.not_hasLiteralSubject_plainShare (row : Row) :
  ¬ (row.plainShare scope).HasLiteralSubject
  := by
  obtain ⟨role, key, value⟩ := row
  cases role with
  | context => apply not_hasLiteralSubject_keep
  | id =>
      simp only [plainShare, idShare]
      split
      · simp [Share.HasLiteralSubject]
      · apply not_hasLiteralSubject_warn
      · apply not_hasLiteralSubject_keep
  | type child => apply not_hasLiteralSubject_typeShare
  | property iri reverse child =>
      simp only [plainShare]
      split
      · apply not_hasLiteralSubject_warn
      · apply not_hasLiteralSubject_warn
  | _ => apply not_hasLiteralSubject_warn

/-- The fragment of a link has a literal for a subject where the link is reversed and leads to one,
or where the pattern of the value has one. -/
theorem Link.hasLiteralSubject_fragment {link : Link} {item : Match} :
  (link.fragment scope.subject item).HasLiteralSubject
    ↔ (link.reverse = true ∧ item.term.isLiteral = true) ∨ item.pattern.HasLiteralSubject
  := by
  rw [fragment, Pattern.hasLiteralSubject_joinAll]
  cases hreverse : link.reverse with
  | true => simp [Pattern.hasLiteralSubject_basic, propertyTriple]
  | false =>
      simp [Pattern.hasLiteralSubject_basic, propertyTriple, scope.isLiteral_subject]

/-- A link has a part for its fragment unless the value is null. -/
theorem Link.hasLiteralSubject_share {link : Link} {key : String} {shape : Shape} {item : Match} :
  (link.share scope.subject key shape item).HasLiteralSubject
    ↔ shape ≠ .null ∧ (link.fragment scope.subject item).HasLiteralSubject
  := by
  by_cases hnull : shape = .null
  · simp [Share.HasLiteralSubject, share, hnull]
  · cases hoptional : isOptional link.definition shape with
    | true => simp [Share.HasLiteralSubject, share, hnull, hoptional]
    | false => simp [Share.HasLiteralSubject, share, hnull, hoptional]

/-- A branch with a link has a literal for a subject where the link is reversed and its value stands
for a literal, or where the pattern of the value has one. -/
theorem Branch.hasLiteralSubject_linked {row : Row} {link : Link} {inner : Context} {item : Match}
    {log : Log} (read : Derives setup (link.visit inner row.value) item log) :
  ((Branch.linked row link inner item log).share scope).HasLiteralSubject
    ↔ (link.reverse = true ∧ StandsForLiteral setup (link.visit inner row.value))
      ∨ item.pattern.HasLiteralSubject
  := by
  rw [share, Link.hasLiteralSubject_share, Link.hasLiteralSubject_fragment, ← read.isLiteral_iff]
  by_cases null : inner.shape row.value = .null
  · obtain rfl := Link.eq_nullMatch null read.run
    simp [nullMatch, Term.isLiteral, null]
  · simp [null]

end Shares

/-- A node object has the subjects of its branches. -/
theorem hasLiteralSubject_matchOf {context : Context} {target : Variable}
    {entries : List (String × Json)} {branches : List Branch} :
  (matchOf context target entries branches).pattern.HasLiteralSubject
    ↔ ∃ branch ∈ branches, (branch.share (scopeOf context target entries)).HasLiteralSubject
  := by
  simp only [matchOf, assemble, Pattern.hasLiteralSubject_leftJoins,
    Pattern.hasLiteralSubject_joinAll, List.flatMap_map, List.mem_flatMap,
    Share.HasLiteralSubject, List.mem_append]
  grind

end NodeObject

/-- The node objects with a reversed property that leads to a literal. -/
inductive Inverts (setup : Setup) : Visit → Prop where
  | entry {frame : Frame} {context inner : Context} {before after : List (String × Json)}
      {row : NodeObject.Row} {link : NodeObject.Link}
      (linked : LinkedAt setup frame context before row after link inner)
      (reverse : link.reverse = true)
      (stands : StandsForLiteral setup (link.visit inner row.value)) :
      Inverts setup ⟨.production .nodeObject, .object (before ++ row.entry :: after), frame⟩

/-- A node object inverts the triple of a literal when one of its branches does. -/
theorem NodeObject.Reads.inverts_iff {entries : List (String × Json)} {frame : Frame}
    {context : Context} {branches : List NodeObject.Branch}
    (reads : NodeObject.Reads setup entries frame context branches) :
  Inverts setup ⟨.production .nodeObject, .object entries, frame⟩
    ↔ ∃ row link inner item log, NodeObject.Branch.linked row link inner item log ∈ branches ∧
      link.reverse = true ∧ StandsForLiteral setup (link.visit inner row.value)
  := by
  constructor
  · intro h
    cases h with
    | @entry _ _ inner before after row link linked reverse stands =>
        obtain ⟨rfl, earlier, item, log, later, rfl, -, -⟩ := linked.exists_branches reads
        exact ⟨row, link, inner, item, log, by simp, reverse, stands⟩
  · rintro ⟨row, link, inner, item, log, hbranch, reverse, stands⟩
    obtain ⟨earlier, later, rfl⟩ := List.append_of_mem hbranch
    obtain ⟨rfl, linked⟩ := reads.linkedAt
    exact .entry linked reverse stands

/-! ### Queries -/

/-- A visit that leads to another has the subjects of its pattern. -/
theorem Leads.hasLiteralSubject_iff {outer inner : Visit} {make : Match → Match} {found : Match}
    (step : Leads setup outer inner make) :
  (make found).pattern.HasLiteralSubject ↔ found.pattern.HasLiteralSubject
  := by
  cases step with
  | members | onlyMember => simp [ListObject.membersMatch, Term.isLiteral]
  | _ => rfl

/-- A visit that leads to no other has an empty pattern. -/
theorem Ends.not_hasLiteralSubject {visit : Visit} {found : Match}
    (last : Ends setup visit found) :
  ¬ found.pattern.HasLiteralSubject
  := by
  cases last with
  | valueObject entered valued =>
      rw [ValueObject.matchOf]
      split
      · apply Pattern.not_hasLiteralSubject_empty
      · rw [ValueObject.constantOf]
        split
        · apply Pattern.not_hasLiteralSubject_empty
        · apply Pattern.not_hasLiteralSubject_empty
  | _ => apply Pattern.not_hasLiteralSubject_empty

/-- A literal is a subject exactly when a node object inverts the triple of one on the way. -/
theorem Derives.hasLiteralSubject_iff {visit : Visit} {found : Match} {log : Log}
    (derived : Derives setup visit found log) :
  found.pattern.HasLiteralSubject ↔ ∃ entry ∈ (visit, found) :: log, Inverts setup entry.1
  := by
  induction derived with
  | @ends visit found last =>
      have hnone : ¬ Inverts setup visit := by
        intro h
        cases h
        cases last
      simp [last.not_hasLiteralSubject, hnone]
  | @leads outer inner make found log step read ih =>
      have hnone : ¬ Inverts setup outer := by
        intro h
        cases h
        cases step
      rw [step.hasLiteralSubject_iff, ih]
      simp [hnone]
  | node reads read ih =>
      simp only [NodeObject.hasLiteralSubject_matchOf, List.mem_cons, or_and_right, exists_or,
        exists_eq_left, reads.inverts_iff]
      constructor
      · rintro ⟨branch, hbranch, h⟩
        cases branch with
        | plain row => exact absurd h row.not_hasLiteralSubject_plainShare
        | linked row link inner item log =>
            have derived := read row link inner item log hbranch
            rcases (NodeObject.Branch.hasLiteralSubject_linked derived).mp h with
              ⟨reverse, stands⟩ | within
            · exact .inl ⟨row, link, inner, item, log, hbranch, reverse, stands⟩
            · obtain ⟨entry, hentry, inverts⟩ := (ih row link inner item log hbranch).mp within
              refine .inr ⟨entry, ?_, inverts⟩
              apply NodeObject.mem_flatMap_log.mpr
              use row, link, inner, item, log, hbranch
      · rintro (⟨row, link, inner, item, log, hbranch, reverse, stands⟩ | ⟨entry, hentry, inverts⟩)
        · have derived := read row link inner item log hbranch
          use .linked row link inner item log, hbranch
          exact (NodeObject.Branch.hasLiteralSubject_linked derived).mpr (.inl ⟨reverse, stands⟩)
        · obtain ⟨row, link, inner, item, log, hbranch, hentry⟩ :=
            NodeObject.mem_flatMap_log.mp hentry
          have derived := read row link inner item log hbranch
          have within := (ih row link inner item log hbranch).mpr ⟨entry, hentry, inverts⟩
          use .linked row link inner item log, hbranch
          exact (NodeObject.Branch.hasLiteralSubject_linked derived).mpr (.inr within)

/-- The subjects of a query are variables and IRIs exactly when no node object on the way has a
reversed property that leads to a literal. -/
theorem query_subjects_iff {document : Json} {query : Query}
    (h : setup.grammar.query document = .ok query) :
  (∀ subject ∈ query.pattern.subjects, (∃ v, subject = .var v) ∨ ∃ iri, subject = .iri iri)
    ↔ ∀ visit found, setup.Meets document visit found → ¬ Inverts setup visit
  := by
  obtain ⟨found, log, derived, rfl⟩ := query_eq_ok.mp h
  have hsubjects : (∀ subject ∈ found.query.pattern.subjects,
      (∃ v, subject = .var v) ∨ ∃ iri, subject = .iri iri) ↔ ¬ found.pattern.HasLiteralSubject := by
    simp only [← Term.isLiteral_eq_false, Pattern.HasLiteralSubject, Match.query,
      Pattern.subjects, not_exists, not_and, Bool.not_eq_true]
  rw [hsubjects]
  apply derived.iff_of_meets
  intro log' derived'
  rw [derived'.hasLiteralSubject_iff, not_exists]
  simp only [not_and]

/-- A ship with its pilot, which a reversed property names. -/
def piloted (pilot : Json) : Json :=
  .object [
    ("@context", .object [("pilotOf", .object [("@reverse", .string "ex:pilots")])]),
    ("pilotOf", pilot)]

/-- Where a name alone stands for the pilot, it is the only subject. -/
theorem piloted_subjects :
  ∃ query, ({} : Setup).grammar.query (piloted (.string "Luke")) = .ok query
    ∧ query.pattern.subjects = [.literal (.plain "Luke")]
  := by
  have houtcome : (({} : Setup).grammar.query (piloted (.string "Luke"))).toOption.map
      (fun query => query.pattern.subjects) = some [.literal (.plain "Luke")] := by
    decide +kernel
  exact exists_of_outcome _ _ houtcome

/-- A pilot with a name is no literal, but a name alone is one. -/
theorem query_subjects_iff_pilot :
  (∀ visit found, ({} : Setup).Meets (piloted (.object [("ex:name", .string "?")])) visit found →
    ¬ Inverts {} visit)
    ∧ ∃ visit found, ({} : Setup).Meets (piloted (.string "Luke")) visit found
      ∧ Inverts {} visit
  := by
  constructor
  · have houtcome : (({} : Setup).grammar.query
        (piloted (.object [("ex:name", .string "?")]))).toOption.map
          (fun query => query.pattern.subjects.all fun subject => !subject.isLiteral)
            = some true := by
      decide +kernel
    obtain ⟨query, h, hsubjects⟩ := exists_of_outcome _ _ houtcome
    apply (query_subjects_iff h).mp
    intro subject hsubject
    apply Term.isLiteral_eq_false.mp
    simpa using List.all_eq_true.mp hsubjects subject hsubject
  · obtain ⟨query, h, hsubjects⟩ := piloted_subjects
    by_contra hnone
    push Not at hnone
    have hsubject := (query_subjects_iff h).mpr hnone (.literal (.plain "Luke")) (by simp [hsubjects])
    rcases hsubject with ⟨v, hv⟩ | ⟨iri, hiri⟩
    · cases hv
    · cases hiri

/-- The name of a pilot becomes the subject of a triple. -/
theorem literal_subject_pilot :
  ∃ query, ({} : Setup).grammar.query (piloted (.string "Luke")) = .ok query
    ∧ ¬ ∀ subject ∈ query.pattern.subjects, (∃ v, subject = .var v) ∨ ∃ iri, subject = .iri iri
  := by
  obtain ⟨query, h, hsubjects⟩ := piloted_subjects
  use query, h
  intro hnone
  rcases hnone (.literal (.plain "Luke")) (by simp [hsubjects]) with ⟨v, hv⟩ | ⟨iri, hiri⟩
  · cases hv
  · cases hiri

end LinkedQuery
