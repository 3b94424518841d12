import LinkedQuery.Proofs.Reading.Floating
import LinkedQuery.Proofs.Reading.Unread
import LinkedQuery.Proofs.Results.Projections

/-!
# The positions of entries

It does not matter where in its object the local context stands, nor the entry that names the
object, if there is only one.  `query_repositioned` says that the query keeps its pattern, its
selected variables and its warnings, and that its template has the keys of the object in another
order.
-/

namespace LinkedQuery

open NodeObject (Reads Visited Branch Row Link LinkedAt matchOf)

/-- Whether an object within the value of a visit can have its entries in another order: the object
is in no local context, and where a visit comes to it, only those entries have moved that float. -/
structure Reorders (setup : Setup) (visit : Visit) (path : List Step)
    (entries entries' : List (String × Json)) : Prop where
  distinct : visit.value.hasDistinctKeys = true
  held : visit.value.at? path = some (.object entries)
  outside : .key Keyword.context.text ∉ path
  perm : entries'.Perm entries
  repositions : ∀ ⦃last context⦄, Comes setup visit path last →
    setup.enter last.frame.context (entries.lookup Keyword.context.text) = .ok context →
      context.Repositions entries entries'

/-- A visit to a value with another object at a path. -/
def Visit.put (visit : Visit) (path : List Step) (entries : List (String × Json)) : Visit :=
  visit.modify (fun _ => .object entries) path

section Places

variable {setup : Setup} {visit outer inner : Visit} {path : List Step}
  {entries entries' given : List (String × Json)} {found item : Match} {frame : Frame} {task : Task}

namespace Reorders

/-- What is reordered within the value of a visit is so within that of the visit to which it
leads. -/
theorem lead {make : Match → Match} (step : Leads setup outer inner make)
    (reorders : Reorders setup outer (setup.stepsOf outer ++ path) entries entries') :
  Reorders setup inner path entries entries'
  := by
  have hheld := reorders.held
  rw [Json.at?_append, step.inside.at? reorders.distinct, Option.bind_some] at hheld
  refine ⟨step.hasDistinctKeys reorders.distinct, hheld, ?_, reorders.perm, ?_⟩
  · intro hmem
    exact reorders.outside (List.mem_append_right _ hmem)
  · intro last context comes
    apply reorders.repositions (.lead step comes)

theorem alike (reorders : Reorders setup visit path entries entries') :
  Alike setup visit.frame.context visit.value (visit.put path entries').value
  := Alike.put reorders.distinct reorders.held reorders.outside reorders.perm

theorem distinct_keys
    (reorders : Reorders setup ⟨task, .object given, frame⟩ path entries entries') :
  (given.map Prod.fst).Nodup
  := (Json.hasDistinctKeys_object.mp reorders.distinct).1

/-- What is reordered is an object itself, or is within one of its entries. -/
theorem object_cases
    (reorders : Reorders setup ⟨task, .object given, frame⟩ path entries entries') :
  (path = [] ∧ given = entries) ∨
    ∃ name part rest, path = .key name :: rest ∧ name ≠ Keyword.context.text ∧
      (name, part) ∈ given ∧ part.at? rest = some (.object entries)
  := by
  have hheld := reorders.held
  have houtside := reorders.outside
  cases path with
  | nil => exact .inl ⟨rfl, Json.object.inj (Option.some.inj hheld)⟩
  | cons step rest =>
      right
      obtain ⟨part, hpart, hrest⟩ := Option.bind_eq_some_iff.mp hheld
      cases step with
      | index position => cases hpart
      | key name =>
          refine ⟨name, part, rest, rfl, ?_, ?_, hrest⟩
          · rintro rfl
            exact houtside List.mem_cons_self
          · apply (Entries.lookup_eq_some_iff reorders.distinct_keys).mp hpart

/-- What is reordered within an array is within one of its items. -/
theorem array_cases {items : List Json}
    (reorders : Reorders setup ⟨task, .array items, frame⟩ path entries entries') :
  ∃ position rest, path = .index position :: rest ∧ position < items.length
  := by
  have hheld := reorders.held
  cases path with
  | nil => cases hheld
  | cons step rest =>
      obtain ⟨part, hpart, -⟩ := Option.bind_eq_some_iff.mp hheld
      cases step with
      | key name => cases hpart
      | index position =>
          use position, rest, rfl
          exact (List.getElem?_eq_some_iff.mp hpart).1

/-- An object in another order is in the same context, in which only those entries have moved that
float. -/
theorem enter_object {context : Context}
    (reorders : Reorders setup ⟨task, .object entries, frame⟩ [] entries entries')
    (entered : setup.enter frame.context (entries.lookup Keyword.context.text) = .ok context) :
  context.Repositions entries entries' ∧
    setup.enter frame.context (entries'.lookup Keyword.context.text) = .ok context
  := by
  refine ⟨reorders.repositions .here entered, ?_⟩
  rw [Entries.lookup_perm reorders.distinct_keys reorders.perm, entered]

/-- What is reordered in an object beside the entry for a keyword is the object itself, or it is
within another entry; the entry stays. -/
theorem keyword_cases {context : Context} {keyword : Keyword} {key : String} {value : Json}
    (reorders : Reorders setup ⟨task, .object given, frame⟩ path entries entries')
    (entered : setup.enter frame.context (given.lookup Keyword.context.text) = .ok context)
    (held : context.entryFor? given keyword = some (key, value)) (other : keyword ≠ .context)
    (beside : ¬ [.key key] <+: path) :
  (path = [] ∧ given = entries ∧ context.Repositions entries entries' ∧
      setup.enter frame.context (entries'.lookup Keyword.context.text) = .ok context ∧
      context.entryFor? entries' keyword = some (key, value)) ∨
    ∃ name part rest, path = .key name :: rest ∧ name ≠ key ∧ (name, part) ∈ given ∧
      Shuffles (Json.modify (fun _ => .object entries') rest) rest part ∧
      let given' := Entries.modify (Json.modify (fun _ => .object entries') rest) name given
      setup.enter frame.context (given'.lookup Keyword.context.text) = .ok context ∧
        context.entryFor? given' keyword = some (key, value)
  := by
  rcases reorders.object_cases with ⟨rfl, rfl⟩ | ⟨name, part, rest, rfl, hname, hpart, hrest⟩
  · left
    obtain ⟨repositions, entered'⟩ := reorders.enter_object entered
    exact ⟨rfl, rfl, repositions, entered', (repositions.entryFor? other).trans held⟩
  · right
    have hkey : name ≠ key := by
      rintro rfl
      simp at beside
    refine ⟨name, part, rest, rfl, hkey, hpart, .put hrest reorders.perm,
      Setup.enter_modify hname _ entered, ?_⟩
    rw [Context.entryFor?_modify_of_ne, held]
    intro entry hentry
    obtain rfl := Option.some.inj (held.symm.trans hentry)
    exact hkey.symm

end Reorders

/-! ### Visits that end -/

/-- A visit that leads to no other has a rearranged match when an object is reordered. -/
theorem Ends.exists_rearranged (last : Ends setup visit found)
    (reorders : Reorders setup visit path entries entries') :
  ∃ found', setup.run (visit.put path entries') = .ok found' ∧ Rearranged path found found'
  := by
  have hcompound := Json.isCompound_of_at? reorders.held
  cases last with
  | null | placeholder => cases hcompound
  | scalar known held =>
      rw [(Json.of_isCompound hcompound).2.2] at held
      cases held
  | noItems | noMembers =>
      obtain ⟨position, rest, -, hposition⟩ := reorders.array_cases
      cases hposition
  | setObject =>
      exact ⟨_, Ends.setObject.run, rfl, rfl, .refl _, .value reorders.held reorders.perm,
        .refl _⟩
  | noNodes refused =>
      have hrefused := reorders.alike.holdsNodes.trans refused
      exact ⟨_, (Ends.noNodes hrefused).run, rfl, rfl, .refl _,
        .value reorders.held reorders.perm, .refl _⟩
  | @valueObject given frame context key value entered held =>
      have hkeys := reorders.distinct_keys
      rcases reorders.object_cases with ⟨rfl, rfl⟩ | ⟨name, part, rest, rfl, hname, hpart, hrest⟩
      · obtain ⟨repositions, entered'⟩ := reorders.enter_object entered
        have held' := (repositions.entryFor? (by decide)).trans held
        exact ⟨_, (Ends.valueObject entered' held').run,
          ValueObject.repositioned_matchOf repositions⟩
      · let change := Json.modify (fun _ => .object entries') rest
        obtain ⟨value', held'⟩ := Context.exists_entryFor?_modify held change name
        have entered' := Setup.enter_modify hname change entered
        exact ⟨_, (Ends.valueObject entered' held').run,
          ValueObject.shuffled_matchOf (.put hrest reorders.perm) hkeys hpart held held'⟩

/-! ### Visits that lead to others -/

/-- A visit that leads to another has a rearranged match when an object is reordered that is not
within the value of the other. -/
theorem Leads.exists_rearranged {make : Match → Match} (step : Leads setup outer inner make)
    (h : setup.run inner = .ok item)
    (reorders : Reorders setup outer path entries entries')
    (beside : ¬ setup.stepsOf outer <+: path) :
  ∃ found', setup.run (outer.put path entries') = .ok found' ∧ Rearranged path (make item) found'
  := by
  cases step with
  | document | documentGraph | documents | nodeObjects | entryValue | graphNodes | graphNode
  | graphValue => exact absurd List.nil_prefix beside
  | onlyMember single => simp [Setup.stepsOf, single] at beside
  | items =>
      obtain ⟨position, rest, rfl, -⟩ := reorders.array_cases
      cases position with
      | zero => exact absurd (by simp [Setup.stepsOf]) beside
      | succ position =>
          exact ⟨_, Leads.items.run_eq_ok.mpr ⟨item, h, rfl⟩, rfl, rfl, .refl _, .hidden, .refl _⟩
  | members =>
      obtain ⟨position, rest, rfl, -⟩ := reorders.array_cases
      cases position with
      | zero => exact absurd (by simp [Setup.stepsOf, Json.kind]) beside
      | succ position =>
          exact ⟨_, Leads.members.run_eq_ok.mpr ⟨item, h, rfl⟩, rfl, rfl, .refl _, .hidden,
            .refl _⟩
  | topLevelGraph entered held chosen =>
      have hkeys := reorders.distinct_keys
      simp only [Setup.stepsOf, Production.keyword?, Setup.stepTo?_eq_some entered held] at beside
      rcases reorders.keyword_cases entered held (by decide) beside with
        ⟨rfl, rfl, -, entered', held'⟩ |
        ⟨name, part, rest, rfl, hname, hpart, shuffles, entered', held'⟩
      · exact ⟨_, (Leads.topLevelGraph entered' held' chosen).run_eq_ok.mpr ⟨item, h, rfl⟩,
          TopLevelGraph.reordered_matchOf reorders.perm item⟩
      · exact ⟨_, (Leads.topLevelGraph entered' held' chosen).run_eq_ok.mpr ⟨item, h, rfl⟩,
          TopLevelGraph.shuffled_matchOf shuffles hkeys hpart hname.symm item⟩
  | listObject entered held =>
      have hkeys := reorders.distinct_keys
      simp only [Setup.stepsOf, Production.keyword?, Setup.stepTo?_eq_some entered held] at beside
      rcases reorders.keyword_cases entered held (by decide) beside with
        ⟨rfl, rfl, -, entered', held'⟩ |
        ⟨name, part, rest, rfl, hname, hpart, shuffles, entered', held'⟩
      · exact ⟨_, (Leads.listObject entered' held').run_eq_ok.mpr ⟨item, h, rfl⟩,
          ListObject.reordered_matchOf reorders.perm item⟩
      · exact ⟨_, (Leads.listObject entered' held').run_eq_ok.mpr ⟨item, h, rfl⟩,
          ListObject.shuffled_matchOf shuffles hkeys hpart hname.symm item⟩
  | graphObject entered held =>
      have hkeys := reorders.distinct_keys
      simp only [Setup.stepsOf, Production.keyword?, Setup.stepTo?_eq_some entered held] at beside
      rcases reorders.keyword_cases entered held (by decide) beside with
        ⟨rfl, rfl, repositions, entered', held'⟩ |
        ⟨name, part, rest, rfl, hname, hpart, shuffles, entered', held'⟩
      · exact ⟨_, (Leads.graphObject entered' held').run_eq_ok.mpr ⟨item, h, rfl⟩,
          GraphObject.repositioned_matchOf repositions item⟩
      · exact ⟨_, (Leads.graphObject entered' held').run_eq_ok.mpr ⟨item, h, rfl⟩,
          GraphObject.shuffled_matchOf shuffles hkeys hpart hname item⟩

/-! ### Node objects -/

/-- What is reordered within an entry of a node object with a visit is so within the value of the
visit. -/
theorem Reorders.entry {context context' : Context} {earlier later : List Branch} {row : Row}
    {link : Link} {log : Log}
    (reads : Reads setup given frame context
      (earlier ++ .linked row link context' item log :: later))
    (reorders : Reorders setup ⟨.production .nodeObject, .object given, frame⟩
      (.key row.key :: path) entries entries') :
  Reorders setup (link.visit context' row.value) path entries entries'
  := by
  obtain ⟨hgiven, linked⟩ := reads.linkedAt
  subst hgiven
  obtain ⟨hkeys, hvalues⟩ := Json.hasDistinctKeys_object.mp reorders.distinct
  have hmem : (row.key, row.value)
      ∈ earlier.map (·.row.entry) ++ row.entry :: later.map (·.row.entry) :=
    List.mem_append_right _ List.mem_cons_self
  have hheld := reorders.held
  simp only [Json.at?, Json.part?, (Entries.lookup_eq_some_iff hkeys).mpr hmem,
    Option.bind_some] at hheld
  refine ⟨hvalues _ hmem, hheld, ?_, reorders.perm, ?_⟩
  · intro hpath
    exact reorders.outside (List.mem_cons_of_mem _ hpath)
  · intro last own comes
    apply reorders.repositions (.entry linked comes)

/-- A link visits a value in which an object is reordered by the same task. -/
theorem NodeObject.Link.visit_put {link : Link} {context : Context} {value : Json}
    (reorders : Reorders setup (link.visit context value) path entries entries') :
  (link.visit context value).put path entries'
    = link.visit context (value.put path (.object entries'))
  := by
  have hshape : context.shape (value.put path (.object entries')) = context.shape value := by
    cases path with
    | nil =>
        obtain rfl : value = .object entries := Option.some.inj reorders.held
        apply Context.objectShape_perm (reorders.perm.map _)
    | cons step path => apply Context.shape_modify
  rw [NodeObject.Link.visit, NodeObject.Link.visit, hshape]
  rfl

/-- A node object has a rearranged match when the value of an entry has one. -/
theorem NodeObject.Reads.exists_rearranged_linked {context inner : Context}
    {earlier later : List Branch} {row : Row} {link : Link} {item' : Match} {log : Log}
    (reads : Reads setup given frame context (earlier ++ .linked row link inner item log :: later))
    (visited : Visited setup (earlier ++ .linked row link inner item log :: later))
    (reorders : Reorders setup ⟨.production .nodeObject, .object given, frame⟩
      (.key row.key :: path) entries entries')
    (h : setup.run ((link.visit inner row.value).put path entries') = .ok item')
    (rearranged : Rearranged path item item') :
  ∃ found', setup.run (Visit.put ⟨.production .nodeObject, .object given, frame⟩
      (.key row.key :: path) entries') = .ok found' ∧
    Rearranged (.key row.key :: path) (matchOf context frame.target given
      (earlier ++ .linked row link inner item log :: later)) found'
  := by
  have hkeys := reorders.distinct_keys
  have inside := reorders.entry reads
  rw [NodeObject.Link.visit_put inside] at h
  have hitem := (visited row link inner item log (by simp)).run
  have hrun := reads.run fun row link inner item log hmem =>
    (visited row link inner item log hmem).run
  obtain ⟨hgiven, linked⟩ := reads.linkedAt
  generalize matchOf context frame.target given _ = found at hrun ⊢
  subst hgiven
  obtain ⟨front, same, trace, back, reads', visited', rfl, replaced⟩ := linked.exists_replace hrun
  obtain rfl : same = item := by
    have hsame := (visited' row link inner same trace (by simp)).run
    exact Except.ok.inj (hsame.symm.trans hitem)
  have hrun' := replaced (row.value.modify (fun _ => .object entries') path) item' inside.alike h
  rw [← Json.modify_entry reorders.distinct] at hrun'
  refine ⟨_, hrun', NodeObject.rearranged_matchOf ?_ rearranged⟩
  rw [reads'.map_key, List.map_append, List.map_cons] at hkeys
  exact hkeys

/-- A node object has a rearranged match when an object is reordered, if the values of its entries
have. -/
theorem NodeObject.Reads.exists_rearranged {context : Context} {branches : List Branch}
    (reads : Reads setup given frame context branches) (visited : Visited setup branches)
    (rearranged : ∀ row link inner item log, Branch.linked row link inner item log ∈ branches →
      ∀ {path}, Reorders setup (link.visit inner row.value) path entries entries' →
        ∃ item', setup.run ((link.visit inner row.value).put path entries') = .ok item' ∧
          Rearranged path item item')
    (reorders : Reorders setup ⟨.production .nodeObject, .object given, frame⟩ path entries
      entries') :
  ∃ found', setup.run (Visit.put ⟨.production .nodeObject, .object given, frame⟩ path entries')
      = .ok found' ∧
    Rearranged path (matchOf context frame.target given branches) found'
  := by
  have hkeys := reorders.distinct_keys
  rcases reorders.object_cases with ⟨rfl, rfl⟩ | ⟨name, part, rest, rfl, hname, hpart, hrest⟩
  · obtain ⟨repositions, -⟩ := reorders.enter_object reads.entered
    apply reads.exists_repositioned visited hkeys repositions
  · rw [reads.entries_eq] at hpart
    obtain ⟨branch, hbranch, hentry⟩ := List.mem_map.mp hpart
    obtain ⟨rfl, rfl⟩ := Prod.mk.inj hentry
    obtain ⟨earlier, later, rfl⟩ := List.append_of_mem hbranch
    cases branch with
    | plain row =>
        have hrun := (reads.replacePlain hkeys hname
          (Json.modify (fun _ => .object entries') rest)).run (by
            intro row' link inner item log hmem
            apply (visited row' link inner item log _).run
            simpa using hmem)
        exact ⟨_, hrun, reads.shuffled_matchOf hkeys (.put hrest reorders.perm)⟩
    | linked row link inner item log =>
        obtain ⟨item', hitem', hitems⟩ :=
          rearranged row link inner item log hbranch (reorders.entry reads)
        apply reads.exists_rearranged_linked visited reorders hitem' hitems

/-! ### All visits -/

/-- The match of a visit is rearranged when an object within its value is reordered. -/
theorem Derives.exists_rearranged {log : Log} (derived : Derives setup visit found log)
    (reorders : Reorders setup visit path entries entries') :
  ∃ found', setup.run (visit.put path entries') = .ok found' ∧ Rearranged path found found'
  := by
  induction derived generalizing path with
  | ends last => apply last.exists_rearranged reorders
  | @leads outer inner make item log step read ih =>
      by_cases hinside : setup.stepsOf outer <+: path
      · obtain ⟨rest, rfl⟩ := hinside
        have inside := reorders.lead step
        obtain ⟨item', hitem', hitems⟩ := ih inside
        have hstep : Leads setup
            (outer.modify (Json.modify (fun _ => .object entries') rest) (setup.stepsOf outer))
            (inner.modify (Json.modify (fun _ => .object entries') rest) []) make :=
          (step.modify inside.alike).1
        have hput : outer.put (setup.stepsOf outer ++ rest) entries'
            = outer.modify (Json.modify (fun _ => .object entries') rest)
                (setup.stepsOf outer) := by
          rw [Visit.put, Visit.modify, Json.modify_append]
          rfl
        rw [hput]
        exact ⟨_, hstep.run_eq_ok.mpr ⟨item', hitem', rfl⟩,
          hitems.lead step reorders.distinct⟩
      · apply step.exists_rearranged read.run reorders hinside
  | node reads read ih =>
      apply reads.exists_rearranged read _ reorders
      intro row link inner item log hbranch path inside
      apply ih row link inner item log hbranch inside

end Places

/-! ### Queries -/

/-- It does not matter where in an object of the document, outside of local contexts, the local
context of the object stands, nor the entry that names the object, if there is only one.  When only
these are moved, in the context in which a visit comes to the object, the query keeps its pattern;
it keeps its selected variables and its warnings, up to their order, and its template has the keys
of the object in another order.  An object that no visit comes to can have any order. -/
theorem query_repositioned (setup : Setup) (document : Json) (query : Query) (path : List Step)
    (entries entries' : List (String × Json)) (distinct : document.hasDistinctKeys = true)
    (h : setup.grammar.query document = .ok query)
    (held : document.at? path = some (.object entries))
    (outside : .key Keyword.context.text ∉ path) (reordered : entries'.Perm entries)
    (repositions : ∀ visit context, Comes setup (setup.documentVisit document) path visit →
      setup.enter visit.frame.context (entries.lookup Keyword.context.text) = .ok context →
        context.Repositions entries entries') :
  ∃ query', setup.grammar.query (document.put path (.object entries')) = .ok query' ∧
    query'.body = query.body ∧ query'.projections.Perm query.projections ∧
    query'.warnings.Perm query.warnings ∧ query.template.Reordered path query'.template
  := by
  obtain ⟨found, log, derived, rfl⟩ := query_eq_ok.mp h
  have reorders : Reorders setup (setup.documentVisit document) path entries entries' :=
    ⟨distinct, held, outside, reordered, fun last context => repositions last context⟩
  obtain ⟨found', hfound', rearranged⟩ := derived.exists_rearranged reorders
  obtain ⟨log', derived'⟩ := exists_derives _ _ hfound'
  refine ⟨found'.query, query_eq_ok.mpr ⟨found', log', derived', rfl⟩, rearranged.pattern_eq, ?_,
    rearranged.warnings_perm, rearranged.template_reordered⟩
  have hnodup (found : Match) : found.query.projections.Nodup := nodup_distinct found.projections
  rw [List.perm_ext_iff_of_nodup (hnodup found') (hnodup found)]
  intro v
  rw [Match.mem_projections_query, Match.mem_projections_query,
    rearranged.projections_perm.mem_iff]

/-- A document about a song, whose local context has a term for the name of the song. -/
def song : List (String × Json) :=
  [("@context", .object [("song", .string "@id")]), ("ex:title", .string "?"),
    ("song", .string "?")]

/-- The song with its name first, and after it the local context that says that it is the name. -/
theorem query_repositioned_song :
  ∃ query query', ({} : Setup).grammar.query (.object song) = .ok query ∧
    ({} : Setup).grammar.query (.object song.reverse) = .ok query' ∧
    query'.body = query.body ∧ query.projections = [⟨"root·title"⟩, ⟨"root"⟩] ∧
    query'.projections.Perm query.projections ∧ query'.warnings.Perm query.warnings ∧
    query.template.Reordered [] query'.template
  := by
  have houtcome : (({} : Setup).grammar.query (.object song)).toOption.map Query.projections
      = some [⟨"root·title"⟩, ⟨"root"⟩] := by decide +kernel
  obtain ⟨query, h, hselected⟩ := exists_of_outcome _ _ houtcome
  have hcontext : (({} : Setup).enter {} (song.lookup Keyword.context.text)).toOption.map
      (fun context => song.map fun entry => context.floats (song.map Prod.fst) entry.1)
        = some [true, false, true] := by decide +kernel
  obtain ⟨own, hown, hfloats⟩ := exists_of_outcome _ _ hcontext
  have repositions (visit : Visit) (context : Context)
      (comes : Comes {} (({} : Setup).documentVisit (.object song)) [] visit)
      (entered : ({} : Setup).enter visit.frame.context (song.lookup Keyword.context.text)
        = .ok context) :
      context.Repositions song song.reverse := by
    obtain ⟨-, hframe⟩ := comes.of_nil rfl
    rw [hframe] at entered
    obtain rfl : own = context := Except.ok.inj (hown.symm.trans entered)
    use List.reverse_perm song
    simp only [song, List.map_cons, List.map_nil, List.cons.injEq, and_true] at hfloats
    simp [song, hfloats]
  obtain ⟨query', h', hbody, hprojections, hwarnings, htemplate⟩ := query_repositioned {}
    (.object song) query [] song song.reverse (by decide) h rfl (by simp) (List.reverse_perm song)
    repositions
  exact ⟨query, query', h, h', hbody, hselected, hprojections, hwarnings, htemplate⟩

end LinkedQuery
