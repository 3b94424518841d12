import LinkedQuery.Proofs.Reading.Warnings
import LinkedQuery.Proofs.Solutions.Conjunction
import LinkedQuery.Proofs.Variables.Scope

/-!
# The account of an entry

What becomes of the entries of a node object: an entry declares the context, names the node, adds a
triple at the node, or stays as it is with a warning.  `entries_accounted_iff` says that each entry
is accounted for in one of these ways, save for two kinds of entries that leave no trace: one under
another name for the key of the context, which no context is taken from, and one for the classes of
the node that lists none.
-/

namespace LinkedQuery

/-- The IRI that a value names is the one that its text stands for. -/
theorem Context.exists_text_of_identity {context : Context} {value : Json} {iri : String}
    (h : context.identity value = .iri iri) :
  ∃ text, value = .string text ∧ context.validIri? text false = some iri
  := by
  rw [identity] at h
  split at h
  · cases h
  · split at h
    case h_1 text htext =>
      split at h
      case h_1 found hfound =>
        obtain rfl := Identity.iri.inj h
        exact ⟨text, Json.string?_eq_some.mp htext, hfound⟩
      case h_2 => cases h
    case h_2 => cases h

/-- When the warnings about each item are at a key of its own, those at the key of an item are the
ones about it. -/
theorem filter_flatMap_key {α : Type} {items : List α} {name : α → String}
    {f : α → List Warning}
    (heads : ∀ item ∈ items, ∀ warning ∈ f item, warning.path.head? = some (.key (name item)))
    (distinct : (items.map name).Nodup) {item : α} (held : item ∈ items) :
  (items.flatMap f).filter (fun warning => warning.path.head? = some (.key (name item))) = f item
  := by
  have hother : ∀ other ∈ items, name other ≠ name item →
      (f other).filter (fun warning => warning.path.head? = some (.key (name item))) = [] := by
    intro other hmem hne
    rw [List.filter_eq_nil_iff]
    intro warning hwarning
    simp [heads other hmem warning hwarning, hne]
  induction items with
  | nil => cases held
  | cons first rest ih =>
      obtain ⟨hfirst, hrest⟩ := List.nodup_cons.mp distinct
      rw [List.flatMap_cons, List.filter_append]
      rcases List.mem_cons.mp held with rfl | hmem
      · have hnone : (rest.flatMap f).filter
            (fun warning => warning.path.head? = some (.key (name item))) = [] := by
          rw [List.filter_flatMap, List.flatMap_eq_nil_iff]
          intro other hmem
          apply hother other (List.mem_cons_of_mem _ hmem)
          intro hsame
          exact hfirst (hsame ▸ List.mem_map_of_mem hmem)
        rw [hnone, List.append_nil, List.filter_eq_self]
        intro warning hwarning
        simpa using heads item List.mem_cons_self warning hwarning
      · have hne : name first ≠ name item := by
          intro hsame
          exact hfirst (hsame ▸ List.mem_map_of_mem hmem)
        rw [hother first List.mem_cons_self hne, List.nil_append]
        exact ih (fun other hother => heads other (List.mem_cons_of_mem _ hother)) hrest hmem
          (fun other hmem => hother other (List.mem_cons_of_mem _ hmem))

namespace NodeObject

/-- The conditions that a share adds to the pattern of its node. -/
def Share.conditions (share : Share) : List Condition :=
  (share.required ++ share.optional).flatMap Pattern.conditions

/-- What an entry of a node object can be for, by its share. -/
inductive Accounted (scope : Scope) (entries : List (String × Json)) :
    String × Json → Share → Prop where
  /-- The context of the node object, under the key itself. -/
  | context {value : Json} {share : Share} :
      Accounted scope entries (Keyword.context.text, value) share
  /-- The name of the node, which is asked for or is the subject. -/
  | name {key : String} {value : Json} {share : Share}
      (chosen : scope.context.entryFor? entries .id = some (key, value))
      (names : value.isPlaceholder = true ∨ ∃ text iri, value = .string text ∧
        scope.context.validIri? text false = some iri ∧ scope.subject = .iri iri) :
      Accounted scope entries (key, value) share
  | type {key : String} {value : Json} {share : Share} {class' : Term}
      (meaning : scope.context.meaning key = .keyword .type)
      (held : .triple (classTriple scope.subject class') ∈ share.conditions) :
      Accounted scope entries (key, value) share
  | property {key iri : String} {value : Json} {share : Share} {reverse : Bool} {term : Term}
      (meaning : scope.context.meaning key = if reverse then .reverse iri else .property iri)
      (held : .triple (propertyTriple scope.subject iri reverse term) ∈ share.conditions) :
      Accounted scope entries (key, value) share
  | warned {key : String} {value : Json} {share : Share} {notice : Notice}
      (warnings : share.warnings = [.atKey notice key]) (kept : share.template = .value value) :
      Accounted scope entries (key, value) share

/-- The entries that leave no trace. -/
inductive Traceless (context : Context) : String × Json → Prop where
  /-- Another name for the key of the context. -/
  | contextAlias {key : String} {value : Json} (meaning : context.meaning key = .keyword .context)
      (other : key ≠ Keyword.context.text) : Traceless context (key, value)
  | noClasses {key : String} (meaning : context.meaning key = .keyword .type) :
      Traceless context (key, .array [])

/-- What the key of a property stands for. -/
theorem Role.Suits.meaning_eq {meaning : Meaning} {iri : String} {reverse : Bool}
    {child : Variable} (suits : Suits meaning (.property iri reverse child)) :
  meaning = if reverse then .reverse iri else .property iri
  := by
  cases suits with
  | property => rfl
  | reverse => rfl

variable {scope : Scope} {entries : List (String × Json)}

/-! ### Shares -/

theorem Accounted.of_warn (key : String) (value : Json) (notice : Notice) :
  Accounted scope entries (key, value) (.warn key value notice)
  := .warned rfl rfl

/-- The classes of a node make triples at the node, unless they are unusable or none are given. -/
theorem accounted_typeShare {key : String} {value : Json}
    (meaning : scope.context.meaning key = .keyword .type) (child : Variable)
    (some : value ≠ .array []) :
  Accounted scope entries (key, value) (typeShare scope child key value)
  := by
  have hasked : .triple (classTriple scope.subject (.var child)) ∈
      (Pattern.basic [classTriple scope.subject (.var child)]).conditions := by
    simp [Pattern.conditions]
  have hgiven (template : Template) (iri : String) (others : List String) :
      .triple (classTriple scope.subject (.iri iri)) ∈
        (Share.mk template [.basic ((iri :: others).map fun iri =>
          classTriple scope.subject (.iri iri))] [] [] []).conditions := by
    simp [Share.conditions, Pattern.conditions]
  unfold typeShare
  split
  · split
    case isTrue => exact .type meaning (by simpa [Share.conditions] using hasked)
    case isFalse =>
      split
      case h_1 iri _ => exact .type meaning (hgiven _ iri [])
      case h_2 => apply Accounted.of_warn
  case h_2 items =>
    split
    case isTrue => exact .type meaning (by simpa [Share.conditions] using hasked)
    case isFalse =>
      split
      case h_1 classes hclasses =>
        cases items with
        | nil => exact absurd rfl some
        | cons item items =>
            obtain ⟨iri, -, others, -, rfl⟩ : ∃ iri, classOf? scope.context item = Option.some iri ∧
                ∃ others, items.mapM (classOf? scope.context) = Option.some others ∧
                  iri :: others = classes := by
              simpa [List.mapM_cons, Option.bind_eq_some_iff] using hclasses
            exact .type meaning (hgiven _ iri others)
      case h_2 => apply Accounted.of_warn
  · apply Accounted.of_warn

/-- The triple of a link is in its share, unless the value is null. -/
theorem Link.mem_conditions_share {link : Link} {subject : Term} {key : String} {shape : Shape}
    {item : Match} (full : shape ≠ .null) :
  .triple (propertyTriple subject link.iri link.reverse item.term)
    ∈ (link.share subject key shape item).conditions
  := by
  have hfragment : .triple (propertyTriple subject link.iri link.reverse item.term)
      ∈ (link.fragment subject item).conditions := by
    simp [fragment, Pattern.conditions_joinAll, Pattern.conditions]
  cases hoptional : isOptional link.definition shape with
  | true => simpa [share, Share.conditions, full, hoptional] using hfragment
  | false => simpa [share, Share.conditions, full, hoptional] using hfragment

/-- The value of a link makes a triple at the node, or is null and warned about. -/
theorem Link.accounted_share {link : Link} {setup : Setup} {key : String} {value : Json}
    {inner : Context} {item : Match}
    (meaning : scope.context.meaning key
      = if link.reverse then .reverse link.iri else .property link.iri)
    (read : setup.run (link.visit inner value) = .ok item) :
  Accounted scope entries (key, value) (link.share scope.subject key (inner.shape value) item)
  := by
  by_cases null : inner.shape value = .null
  · obtain rfl := eq_nullMatch null read
    obtain rfl : value = .null := EntryValue.eq_null_of_task? (by rw [null]; rfl)
    exact .warned rfl rfl
  · exact .property meaning (mem_conditions_share null)

/-! ### Branches -/

section Branches

variable {setup : Setup} {frame : Frame} {context : Context} {branches : List Branch}

/-- What relates each branch to its entry relates all branches to the entries. -/
theorem Reads.forall₂_entries {α : Type} (reads : Reads setup entries frame context branches)
    {R : String × Json → α → Prop} {f : Branch → α}
    (related : ∀ branch ∈ branches, R branch.row.entry (f branch)) :
  List.Forall₂ R entries (branches.map f)
  := by
  rw [reads.entries_eq, List.forall₂_map_left_iff, List.forall₂_map_right_iff, List.forall₂_same]
  exact related

/-- The entry that names the node is accounted for: the name is asked for, is the subject, or is of
no use and warned about. -/
theorem accounted_idShare {target : Variable} {key : String} {value : Json}
    (chosen : context.entryFor? entries .id = some (key, value)) :
  Accounted (scopeOf context target entries) entries (key, value)
    (idShare (scopeOf context target entries) key value)
  := by
  have hidentity : (scopeOf context target entries).identity = some (context.identity value) := by
    rw [scopeOf, chosen]
    rfl
  rw [idShare, hidentity]
  cases hknown : context.identity value with
  | placeholder =>
      obtain rfl := eq_placeholder_of_identity hknown
      exact .name chosen (.inl (by decide))
  | iri iri =>
      obtain ⟨text, rfl, hiri⟩ := Context.exists_text_of_identity hknown
      refine .name chosen (.inr ⟨text, iri, rfl, hiri, ?_⟩)
      rw [Scope.subject, hidentity, hknown]
      rfl
  | unusable notice => apply Accounted.of_warn

/-- An entry is accounted for unless it leaves no trace. -/
theorem Reads.accounted (reads : Reads setup entries frame context branches)
    (visited : Visited setup branches) {branch : Branch} (hbranch : branch ∈ branches)
    (traced : ¬ Traceless context branch.row.entry) :
  Accounted (scopeOf context frame.target entries) entries branch.row.entry
    (branch.share (scopeOf context frame.target entries))
  := by
  have hsuits := reads.suits hbranch
  have hnamed := reads.entryFor?_id hbranch
  cases branch with
  | linked row link inner item log =>
      have hfits := reads.fits _ hbranch
      rw [Branch.row, Row.role_of_link hfits.1] at hsuits
      exact Link.accounted_share hsuits.meaning_eq (visited row link inner item log hbranch).run
  | plain row =>
      obtain ⟨role, key, value⟩ := row
      simp only [Branch.row, Row.entry, Branch.share, Row.plainShare] at *
      generalize hmeaning : context.meaning key = meaning at hsuits
      cases hsuits with
      | context =>
          have hkey : key = Keyword.context.text := by
            by_contra hother
            exact traced (.contextAlias hmeaning hother)
          subst hkey
          exact .context
      | id => exact accounted_idShare (hnamed rfl)
      | type child =>
          apply accounted_typeShare hmeaning
          rintro rfl
          exact traced (.noClasses hmeaning)
      | property iri child =>
          simp only
          split
          · apply Accounted.of_warn
          · apply Accounted.of_warn
      | reverse iri child =>
          simp only
          split
          · apply Accounted.of_warn
          · apply Accounted.of_warn
      | _ => apply Accounted.of_warn

/-- An entry that leaves no trace has a share without conditions and warnings. -/
theorem Reads.share_of_traceless (reads : Reads setup entries frame context branches)
    (scope : Scope) {branch : Branch} (hbranch : branch ∈ branches)
    (traceless : Traceless context branch.row.entry) :
  (branch.share scope).conditions = [] ∧ (branch.share scope).warnings = []
  := by
  have hsuits := reads.suits hbranch
  generalize hentry : branch.row.entry = entry at traceless
  obtain ⟨hkey, hvalue⟩ := Prod.mk.inj hentry
  cases traceless with
  | contextAlias meaning =>
      subst hkey
      obtain ⟨⟨role, key, value⟩, rfl⟩ := reads.exists_plain hbranch meaning
      rw [meaning] at hsuits
      cases hsuits with
      | context => exact ⟨rfl, rfl⟩
      | unsupported apart => exact absurd rfl apart.1
  | noClasses meaning =>
      subst hkey
      obtain ⟨⟨role, key, value⟩, rfl⟩ := reads.exists_plain hbranch meaning
      obtain rfl : value = .array [] := hvalue
      rw [meaning] at hsuits
      cases hsuits with
      | type child => exact ⟨rfl, rfl⟩
      | unsupported apart => exact absurd rfl apart.2.2

/-- An entry that leaves no trace is not accounted for. -/
theorem Reads.not_accounted (reads : Reads setup entries frame context branches)
    {branch : Branch} (hbranch : branch ∈ branches)
    (traceless : Traceless context branch.row.entry) :
  ¬ Accounted (scopeOf context frame.target entries) entries branch.row.entry
    (branch.share (scopeOf context frame.target entries))
  := by
  intro accounted
  obtain ⟨hconditions, hwarnings⟩ := reads.share_of_traceless
    (scopeOf context frame.target entries) hbranch traceless
  generalize branch.row.entry = entry at accounted traceless
  cases accounted with
  | context =>
      cases traceless with
      | contextAlias _ other => exact other rfl
      | noClasses meaning =>
          rw [Context.meaning_text] at meaning
          cases meaning
  | name chosen =>
      have hid := List.find?_some chosen
      rw [beq_iff_eq] at hid
      cases traceless with
      | contextAlias meaning => cases hid.symm.trans meaning
      | noClasses meaning => cases hid.symm.trans meaning
  | type _ held | property _ held =>
      rw [hconditions] at held
      cases held
  | warned warnings =>
      rw [hwarnings] at warnings
      cases warnings

end Branches

/-- The warnings of a node object at the key of an entry are those of its share. -/
theorem filter_warnings_matchOf {context : Context} {target : Variable}
    {branches : List Branch} (distinct : (branches.map (·.row.key)).Nodup) {branch : Branch}
    (hbranch : branch ∈ branches) :
  (matchOf context target entries branches).warnings.filter
      (fun warning => warning.path.head? = some (.key branch.row.key))
    = (branch.share (scopeOf context target entries)).warnings
  := by
  simp only [matchOf, assemble, List.flatMap_map]
  refine filter_flatMap_key ?_ distinct hbranch
  intro other _ warning hwarning
  apply Branch.head?_path hwarning

end NodeObject

open NodeObject in
/-- The entries of a node object are those of its shares, and each is accounted for by its share
exactly unless it leaves no trace. -/
theorem entries_accounted_iff (setup : Setup) (frame : Frame) {entries : List (String × Json)}
    {found : Match} (distinct : (entries.map Prod.fst).Nodup)
    (h : setup.run ⟨.production .nodeObject, .object entries, frame⟩ = .ok found) :
  ∃ context given,
    setup.enter frame.context (entries.lookup Keyword.context.text) = .ok context ∧
    shares setup (scopeOf context frame.target entries)
        (roles setup.naming context frame.target false {} (entries.map Prod.fst))
        (entries.map fun entry => (entry.1, setup.grammar.element entry.2)) = .ok given ∧
    found = assemble (scopeOf context frame.target entries) given ∧
    List.Forall₂ (fun entry share => entry.1 = share.1 ∧
        found.warnings.filter (fun warning => warning.path.head? = some (.key entry.1))
          = share.2.warnings ∧
        (Accounted (scopeOf context frame.target entries) entries entry share.2
          ↔ ¬ Traceless context entry))
      entries given
  := by
  obtain ⟨log, derived⟩ := exists_derives _ _ h
  obtain ⟨context, branches, reads, visited, rfl⟩ := exists_reads derived
  have hkeys : entries.map Prod.fst = branches.map (·.row.key) := by
    rw [reads.entries_eq, List.map_map]
    rfl
  let scope := scopeOf context frame.target entries
  refine ⟨context, branches.map fun branch => (branch.row.key, branch.share scope), reads.entered,
    ?_, rfl, ?_⟩
  · rw [← map_element_rows setup context frame.target, ← map_role_rows, ← reads.rows_eq,
      List.map_map, List.map_map]
    apply shares_of_branches setup _ reads.fits
    intro row link inner item log hlinked
    exact (visited row link inner item log hlinked).run
  · apply reads.forall₂_entries
    intro branch hbranch
    refine ⟨rfl, filter_warnings_matchOf (hkeys ▸ distinct) hbranch, ?_, ?_⟩
    · intro accounted traceless
      exact reads.not_accounted hbranch traceless accounted
    · exact reads.accounted visited hbranch

/-- A document whose context gives another name to the key of the context, which declares a term. -/
def renamedContext : List (String × Json) :=
  [("@context", .object [("ctx", .string "@context")]),
    ("ctx", .object [("name", .string "ex:name")]), ("name", .string "?")]

/-- Only the entry under the other name for the key of the context is not accounted for. -/
theorem entries_accounted_iff_renamedContext :
  let frame : Frame := { target := ⟨"root"⟩, context := {} }
  ∃ found context given, ({} : Setup).run ⟨.production .nodeObject, .object renamedContext, frame⟩
      = .ok found ∧
    found = NodeObject.assemble (NodeObject.scopeOf context frame.target renamedContext) given ∧
    List.Forall₂ (fun entry share => NodeObject.Accounted
        (NodeObject.scopeOf context frame.target renamedContext) renamedContext entry share.2
          ↔ entry.1 ≠ "ctx") renamedContext given
  := by
  intro frame
  have houtcome : (({} : Setup).run
      ⟨.production .nodeObject, .object renamedContext, frame⟩).toOption.map Match.projections
        = some [] := by
    decide +kernel
  have hcontext : (({} : Setup).enter {} (renamedContext.lookup Keyword.context.text)).toOption.map
      (fun context => (context.meaning "ctx", context.meaning "name"))
        = some (.keyword .context, .unmapped) := by
    decide +kernel
  obtain ⟨found, h, -⟩ := exists_of_outcome _ _ houtcome
  obtain ⟨context, given, entered, -, hfound, haccounts⟩ :=
    entries_accounted_iff {} frame (by decide) h
  obtain ⟨context', entered', hmeanings⟩ := exists_of_outcome _ _ hcontext
  obtain rfl := Except.ok.inj (entered'.symm.trans entered)
  obtain ⟨hctx, hname⟩ := Prod.mk.inj hmeanings
  refine ⟨found, context', given, h, hfound, ?_⟩
  cases haccounts with | cons hfirst haccounts =>
  cases haccounts with | cons hsecond haccounts =>
  cases haccounts with | cons hthird haccounts =>
  cases haccounts
  refine .cons (hfirst.2.2.trans ?_) (.cons (hsecond.2.2.trans ?_)
    (.cons (hthird.2.2.trans ?_) .nil))
  · simp only [ne_eq, String.reduceEq, not_false_eq_true, iff_true]
    rintro (⟨-, other⟩ | -)
    exact other rfl
  · simp only [ne_eq, not_true_eq_false, iff_false, not_not]
    exact .contextAlias hctx (by decide)
  · simp only [ne_eq, String.reduceEq, not_false_eq_true, iff_true]
    rintro (⟨meaning, -⟩ | -)
    cases hname.symm.trans meaning

/-- No context is taken from the entry under the other name, it adds no condition, and no warning is
about it. -/
theorem context_alias_unaccounted :
  ∃ query context, ({} : Setup).grammar.query (.object renamedContext) = .ok query ∧
    ({} : Setup).enter {} (renamedContext.lookup Keyword.context.text) = .ok context ∧
    "ctx" ≠ Keyword.context.text ∧ context.meaning "ctx" ≠ .keyword .id ∧
    query.pattern.conditions = [] ∧ ∀ warning ∈ query.warnings, warning.path ≠ [.key "ctx"]
  := by
  have houtcome : (({} : Setup).grammar.query (.object renamedContext)).toOption.map
      (fun query => (query.pattern.conditions, query.warnings))
        = some ([], [⟨.unmappedKey, [.key "name"]⟩]) := by
    decide +kernel
  have hcontext : (({} : Setup).enter {} (renamedContext.lookup Keyword.context.text)).toOption.map
      (·.meaning "ctx") = some (.keyword .context) := by
    decide +kernel
  obtain ⟨query, h, hquery⟩ := exists_of_outcome _ _ houtcome
  obtain ⟨context, entered, hmeaning⟩ := exists_of_outcome _ _ hcontext
  obtain ⟨hpattern, hwarnings⟩ := Prod.mk.inj hquery
  refine ⟨query, context, h, entered, by decide, by simp [hmeaning], hpattern, ?_⟩
  rw [hwarnings]
  decide

end LinkedQuery
