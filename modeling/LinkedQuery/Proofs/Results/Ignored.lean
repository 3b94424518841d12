import LinkedQuery.Proofs.Reading.Surround

/-!
# Ignored entries

An entry of a node object whose key has no meaning stays as it is and has a warning.
`ignored_entry_inert` says that it does nothing else: where it gets another value, or is left out,
the query keeps its pattern and its variables, the template changes with the object, and no other
warning comes or goes.
-/

namespace LinkedQuery

open NodeObject (Reads Visited Branch Row LinkedAt matchOf scopeOf roles)

/-! ### Amended objects -/

/-- The entries with another value under a name, or with none. -/
def Entries.amend {α : Type} (name : String) (new : Option α) (entries : List (String × α)) :
    List (String × α) :=
  entries.filterMap fun entry => if entry.1 = name then new.map (Prod.mk name) else some entry

/-- The object with another value under a key, or with none. -/
def Json.amend (key : String) (new : Option Json) : Json → Json
  | .object entries => .object (Entries.amend key new entries)
  | value => value

/-- The template of an object with another known value under a key, or with none. -/
def Template.amend (key : String) (new : Option Json) : Template → Template
  | .object entries => .object (Entries.amend key (new.map .value) entries)
  | template => template

namespace Entries

variable {α : Type} {name : String} {before after : List (String × α)} {value : α}

theorem amend_cons_self (new : Option α) (value : α) (entries : List (String × α)) :
  amend name new ((name, value) :: entries)
    = (new.map (Prod.mk name)).toList ++ amend name new entries
  := by
  cases new with
  | none => simp [amend]
  | some other => simp [amend]

theorem amend_cons_of_ne {entry : String × α} (h : entry.1 ≠ name) (new : Option α)
    (entries : List (String × α)) :
  amend name new (entry :: entries) = entry :: amend name new entries
  := by
  simp [amend, h]

theorem amend_of_notMem (h : name ∉ before.map Prod.fst) (new : Option α) :
  amend name new before = before
  := by
  induction before with
  | nil => rfl
  | cons entry before ih =>
      rw [List.map_cons, List.mem_cons, not_or] at h
      rw [amend_cons_of_ne (Ne.symm h.1), ih h.2]

/-- Where names are distinct, one entry is amended. -/
theorem amend_of_nodup (distinct : ((before ++ (name, value) :: after).map Prod.fst).Nodup)
    (new : Option α) :
  amend name new (before ++ (name, value) :: after)
    = before ++ (new.map (Prod.mk name)).toList ++ after
  := by
  rw [List.map_append, List.map_cons, List.nodup_append, List.nodup_cons] at distinct
  obtain ⟨-, ⟨hafter, -⟩, hapart⟩ := distinct
  have hbefore : name ∉ before.map Prod.fst := by
    intro hmem
    apply hapart name hmem name List.mem_cons_self rfl
  have hsplit : amend name new (before ++ (name, value) :: after)
      = amend name new before ++ amend name new ((name, value) :: after) := List.filterMap_append
  rw [hsplit, amend_cons_self, amend_of_notMem hbefore, amend_of_notMem hafter, List.append_assoc]

end Entries

/-! ### Keys without a meaning -/

section Keys

variable {context : Context} {key : String}

/-- An entry whose key has no meaning is for no keyword, and neither is what takes its place. -/
theorem Context.entryFor?_amend (unmapped : context.meaning key = .unmapped) (new : Option Json)
    (entries : List (String × Json)) (keyword : Keyword) :
  context.entryFor? (Entries.amend key new entries) keyword = context.entryFor? entries keyword
  := by
  have hskip (value : Json) (entries : List (String × Json)) :
      context.entryFor? ((key, value) :: entries) keyword = context.entryFor? entries keyword :=
    entryFor?_skip (by simp [unmapped]) [] entries value
  induction entries with
  | nil => rfl
  | cons entry entries ih =>
      obtain ⟨name, value⟩ := entry
      by_cases hname : name = key
      · subst hname
        rw [Entries.amend_cons_self, hskip]
        cases new with
        | none => exact ih
        | some other => exact (hskip other _).trans ih
      · rw [Entries.amend_cons_of_ne hname]
        simp only [entryFor?, List.find?_cons] at ih ⊢
        rw [ih]

/-- The key for local contexts has a meaning. -/
theorem Context.key_ne_of_unmapped (unmapped : context.meaning key = .unmapped) :
  key ≠ Keyword.context.text
  := by
  rintro rfl
  rw [meaning_text] at unmapped
  cases unmapped

/-- What is under another name stays. -/
theorem Entries.lookup_amend {name : String} (apart : key ≠ name) (new : Option Json)
    (entries : List (String × Json)) :
  (amend key new entries).lookup name = entries.lookup name
  := by
  have hskip (value : Json) (entries : List (String × Json)) :
      ((key, value) :: entries).lookup name = entries.lookup name :=
    lookup_skip apart [] entries value
  induction entries with
  | nil => rfl
  | cons entry entries ih =>
      obtain ⟨first, value⟩ := entry
      by_cases hfirst : first = key
      · subst hfirst
        rw [amend_cons_self, hskip]
        cases new with
        | none => exact ih
        | some other => exact (hskip other _).trans ih
      · rw [amend_cons_of_ne hfirst, List.lookup_cons, List.lookup_cons, ih]

/-- An object with an amended entry is alike to the object. -/
theorem Alike.amend {setup : Setup} {own : Context} {entries : List (String × Json)}
    (entered : setup.enter own (entries.lookup Keyword.context.text) = .ok context)
    (unmapped : context.meaning key = .unmapped) (new : Option Json) :
  Alike setup own (.object entries) (.object (Entries.amend key new entries))
  := by
  refine ⟨rfl, by rfl, rfl, Entries.lookup_amend (context.key_ne_of_unmapped unmapped) new _, ?_⟩
  intro other hother
  obtain rfl := Except.ok.inj (entered.symm.trans hother)
  apply Context.objectShape_congr
  intro keyword
  rw [Context.entryFor?_amend unmapped]

/-- A key without a meaning has no part in the roles of the other keys. -/
theorem NodeObject.exists_roles_eq (naming : Naming) (target : Variable)
    (unmapped : context.meaning key = .unmapped) (named : Bool) (siblings : Siblings)
    (keys more : List String) :
  ∃ front back, front.length = keys.length ∧
    roles naming context target named siblings (keys ++ key :: more)
      = front ++ .unmapped :: back ∧
    roles naming context target named siblings (keys ++ more) = front ++ back
  := by
  induction keys generalizing named siblings with
  | nil =>
      refine ⟨[], roles naming context target named siblings more, rfl, ?_, rfl⟩
      simp only [List.nil_append, roles, unmapped]
  | cons first keys ih =>
      simp only [List.cons_append, roles]
      split
      all_goals
        obtain ⟨front, back, hlength, hwith, hwithout⟩ := ih _ _
        rw [hwith, hwithout]
        exact ⟨_ :: front, back, congrArg (· + 1) hlength, rfl, rfl⟩

end Keys

/-! ### Amended matches -/

/-- The warning about a key without a meaning, of an object at a place. -/
def Warning.unmapped (place : List Step) (key : String) : Warning :=
  ⟨.unmappedKey, place ++ [.key key]⟩

/-- Whether a match is another in which an entry without a meaning, of an object at a place, has
another value or is left out. -/
structure Inert (key : String) (new : Option Json) (place : List Step) (found found' : Match) :
    Prop where
  term_eq : found'.term = found.term
  pattern_eq : found'.pattern = found.pattern
  projections_eq : found'.projections = found.projections
  template_eq : found'.template = found.template.modify (Template.amend key new) place
  vars_eq : found'.template.vars = found.template.vars
  warnings_eq : ∃ before after,
    found.warnings = before ++ .unmapped place key :: after ∧
    found'.warnings = before ++ (new.map fun _ => .unmapped place key).toList ++ after

section Matches

variable {key : String} {new : Option Json}

/-- The warning is seen from around the object, too. -/
@[simp]
theorem nestAlong_unmapped (steps place : List Step) (others : List Warning) :
  nestAlong steps (.unmapped place key :: others)
    = .unmapped (steps ++ place) key :: nestAlong steps others
  := by
  simp [nestAlong, Warning.unmapped]

/-- What surrounds amended matches is amended. -/
theorem Surrounds.inert {steps place : List Step} {make : Match → Match} {found found' : Match}
    (surrounds : Surrounds steps make) (inert : Inert key new place found found') :
  Inert key new (steps ++ place) (make found) (make found')
  := by
  obtain ⟨before, after, hmake⟩ := surrounds.warnings_eq
  obtain ⟨front, back, hfound, hfound'⟩ := inert.warnings_eq
  refine ⟨surrounds.term_eq _ _ inert.term_eq,
    surrounds.pattern_eq _ _ inert.term_eq inert.pattern_eq,
    surrounds.projections_eq _ _ inert.term_eq inert.projections_eq,
    surrounds.template_eq _ _ _ _ inert.template_eq, surrounds.vars_eq _ _ inert.vars_eq,
    before ++ nestAlong steps front, nestAlong steps back ++ after, ?_, ?_⟩
  · simp [hmake, hfound]
  · rw [hmake, hfound']
    cases new with
    | none => simp
    | some other => simp

/-- Amended matches are carried to what is around a place. -/
theorem carries_inert (setup : Setup) (last : Visit) (key : String) (new : Option Json) :
  Carries setup last (Inert key new)
  := by
  constructor
  · intro outer inner make path item item' step distinct _ _ inert
    exact (step.surrounds distinct).inert inert
  · intro entries frame context earlier later row link inner path item item' log reads _ distinct _
      inert
    apply (NodeObject.surrounds _).inert inert
    have hkeys := (Json.hasDistinctKeys_object.mp distinct).1
    rw [reads.map_key] at hkeys
    simpa [Branch.row] using hkeys

end Matches

/-! ### Node objects with an ignored entry -/

namespace NodeObject

/-- The branch of an entry whose key has no meaning. -/
def Branch.ignored (key : String) (value : Json) : Branch :=
  .plain ⟨.unmapped, key, value⟩

variable {setup : Setup} {entries : List (String × Json)} {frame : Frame} {context : Context}
  {branches earlier later : List Branch} {key : String} {value : Json}

/-- An entry whose key has no meaning has a branch between those of the other entries. -/
theorem Reads.exists_ignored (reads : Reads setup entries frame context branches)
    (held : (key, value) ∈ entries) (unmapped : context.meaning key = .unmapped) :
  ∃ earlier later, branches = earlier ++ .ignored key value :: later
  := by
  rw [reads.entries_eq] at held
  obtain ⟨branch, hbranch, hentry⟩ := List.mem_map.mp held
  obtain ⟨hkey, hvalue⟩ := Prod.mk.inj hentry
  have hsuits := reads.suits hbranch
  rw [hkey, unmapped] at hsuits
  obtain ⟨earlier, later, rfl⟩ := List.append_of_mem hbranch
  use earlier, later
  congr 2
  cases branch with
  | plain row =>
      obtain ⟨role, _, _⟩ := row
      simp only [Branch.row] at hkey hvalue hsuits
      subst hkey hvalue
      cases hsuits
      rfl
  | linked row link inner item log =>
      rw [Branch.row, Row.role_of_link (reads.fits _ hbranch).1] at hsuits
      cases hsuits

/-- Where an entry is amended whose key has no meaning, the other entries keep their branches. -/
theorem Reads.amend (reads : Reads setup entries frame context
      (earlier ++ .ignored key value :: later)) (distinct : (entries.map Prod.fst).Nodup)
    (unmapped : context.meaning key = .unmapped) (new : Option Json) :
  Reads setup (Entries.amend key new entries) frame context
    (earlier ++ (new.map (.ignored key)).toList ++ later)
  := by
  have hentries : Entries.amend key new entries
      = (earlier ++ (new.map (Branch.ignored key)).toList ++ later).map (·.row.entry) := by
    have hsplit : entries
        = earlier.map (·.row.entry) ++ (key, value) :: later.map (·.row.entry) := by
      rw [reads.entries_eq, List.map_append]
      rfl
    rw [hsplit] at distinct
    rw [hsplit, Entries.amend_of_nodup distinct]
    cases new with
    | none => simp
    | some other => simp [Branch.ignored, Branch.row, Row.entry]
  rw [hentries]
  apply Reads.of_roles
  · rw [← hentries, Entries.lookup_amend (context.key_ne_of_unmapped unmapped)]
    exact reads.entered
  · have hroles := reads.map_role
    rw [reads.map_key] at hroles
    cases new with
    | some other => simpa [Branch.ignored, Branch.row] using hroles
    | none =>
        obtain ⟨front, back, hlength, hwith, hwithout⟩ := exists_roles_eq setup.naming frame.target
          unmapped false {} (earlier.map (·.row.key)) (later.map (·.row.key))
        simp only [List.map_append, List.map_cons] at hroles
        rw [Branch.ignored, Branch.row, hwith] at hroles
        obtain ⟨hearlier, hlater⟩ := List.append_inj hroles (by simp [hlength])
        simp only [Option.map_none, Option.toList_none, List.append_nil, List.map_append]
        rw [hwithout, hearlier, (List.cons.inj hlater).2]
  · intro branch hbranch
    rw [List.append_assoc, List.mem_append, List.mem_append] at hbranch
    rcases hbranch with hbranch | hbranch | hbranch
    · apply reads.fits branch (List.mem_append_left _ hbranch)
    · obtain ⟨other, -, rfl⟩ : ∃ other, new = some other ∧ Branch.ignored key other = branch := by
        simpa [Option.map_eq_some_iff] using hbranch
      rfl
    · apply reads.fits branch
      simp [hbranch]

/-- What leads to the values of the other entries leads there still. -/
theorem Visited.amend (visited : Visited setup (earlier ++ .ignored key value :: later))
    (new : Option Json) :
  Visited setup (earlier ++ (new.map (.ignored key)).toList ++ later)
  := by
  intro row link inner item log hmem
  apply visited
  rw [List.append_assoc, List.mem_append, List.mem_append] at hmem
  rcases hmem with hmem | hmem | hmem
  · simp [hmem]
  · simp [Branch.ignored, Option.map_eq_some_iff] at hmem
  · simp [hmem]

/-- The share of an entry whose key has no meaning adds its value and its warning alone. -/
theorem inert_assemble (scope : Scope) {front back : List (String × Share)}
    (distinct : (front.map Prod.fst ++ key :: back.map Prod.fst).Nodup) (value : Json)
    (new : Option Json) :
  Inert key new [] (assemble scope (front ++ (key, .warn key value .unmappedKey) :: back))
    (assemble scope (front ++ (new.map fun other => (key, .warn key other .unmappedKey)).toList
      ++ back))
  := by
  let named (entry : String × Share) : String × Template := (entry.1, entry.2.template)
  have htemplate : (assemble scope (front ++ (key, .warn key value .unmappedKey) :: back)).template
      = .object (front.map named ++ (key, .value value) :: back.map named) := by
    simp [assemble, named, Share.warn]
  have hkeys : ((front.map named ++ (key, .value value) :: back.map named).map Prod.fst).Nodup := by
    simpa [named, Function.comp_def] using distinct
  constructor
  · rfl
  · cases new with
    | _ => simp [assemble, Share.warn]
  · cases new with
    | _ => simp [assemble, Share.warn]
  · rw [htemplate, Template.modify, Template.amend, Entries.amend_of_nodup hkeys]
    cases new with
    | _ => simp [assemble, named, Share.warn]
  · cases new with
    | _ => simp [assemble, Template.vars_object, Template.vars, Share.warn]
  · use front.flatMap fun entry => entry.2.warnings, back.flatMap fun entry => entry.2.warnings
    constructor
    · simp [assemble, Share.warn, Warning.unmapped, Warning.atKey]
    · cases new with
      | _ => simp [assemble, Share.warn, Warning.unmapped, Warning.atKey]

/-- The match of a node object with an amended entry whose key has no meaning. -/
theorem Reads.inert_matchOf (reads : Reads setup entries frame context
      (earlier ++ .ignored key value :: later)) (distinct : (entries.map Prod.fst).Nodup)
    (unmapped : context.meaning key = .unmapped) (new : Option Json) (target : Variable) :
  Inert key new []
    (matchOf context target entries (earlier ++ .ignored key value :: later))
    (matchOf context target (Entries.amend key new entries)
      (earlier ++ (new.map (.ignored key)).toList ++ later))
  := by
  have hscope : scopeOf context target (Entries.amend key new entries)
      = scopeOf context target entries := by
    rw [scopeOf, scopeOf, Context.entryFor?_amend unmapped]
  let shared (branch : Branch) : String × Share :=
    (branch.row.key, branch.share (scopeOf context target entries))
  have hkeys : ((earlier.map shared).map Prod.fst ++ key :: (later.map shared).map
      Prod.fst).Nodup := by
    rw [reads.map_key] at distinct
    simpa [shared, Branch.ignored, Branch.row, Function.comp_def] using distinct
  have hinert := inert_assemble (scopeOf context target entries) hkeys value new
  rw [matchOf, matchOf, hscope]
  simp only [List.map_append, List.map_cons]
  cases new with
  | _ => exact hinert

end NodeObject

/-! ### Queries -/

/-- An entry of a node object whose key stands for nothing, in the context of the object and, if it
declares one, in the context around it, does nothing but hold its value and have a warning.  Where
it has another value, or is left out, the query has the same pattern and the same variables, its
template differs at the key alone, and its warnings differ by the one about the entry. -/
theorem ignored_entry_inert (setup : Setup) (document : Json) (query : Query) (path : List Step)
    (entries : List (String × Json)) (frame : Frame) (context : Context) (key : String)
    (value : Json) (new : Option Json) (distinct : document.hasDistinctKeys = true)
    (h : setup.grammar.query document = .ok query)
    (comes : Comes setup (setup.documentVisit document) path
      ⟨.production .nodeObject, .object entries, frame⟩)
    (entered : setup.enter frame.context (entries.lookup Keyword.context.text) = .ok context)
    (held : (key, value) ∈ entries) (unmapped : context.meaning key = .unmapped)
    (unknown : entries.lookup Keyword.context.text ≠ none →
      frame.context.meaning key = .unmapped) :
  ∃ query', setup.grammar.query (document.modify (Json.amend key new) path) = .ok query' ∧
    query'.pattern = query.pattern ∧ query'.projections = query.projections ∧
    query'.template = query.template.modify (Template.amend key new) path ∧
    query'.template.vars = query.template.vars ∧
    ∃ before after, query.warnings = before ++ .unmapped path key :: after ∧
      query'.warnings = before ++ (new.map fun _ => .unmapped path key).toList ++ after
  := by
  obtain ⟨found, log, derived, rfl⟩ := query_eq_ok.mp h
  have hkeys := (Json.hasDistinctKeys_object.mp (comes.hasDistinctKeys distinct)).1
  -- Without a context of its own, the object is in the one around it.
  have hinherited : frame.context.meaning key = .unmapped := by
    by_cases hlocal : entries.lookup Keyword.context.text = none
    · rw [hlocal, Setup.enter_none, Except.ok.injEq] at entered
      rw [entered, unmapped]
    · exact unknown hlocal
  have hknown {item : Match}
      (hitem : setup.run ⟨.production .nodeObject, .object entries, frame⟩ = .ok item) :
      ∃ item', setup.run ⟨.production .nodeObject, .object (Entries.amend key new entries), frame⟩
          = .ok item' ∧ Inert key new [] item item' := by
    obtain ⟨trace, derived'⟩ := exists_derives _ _ hitem
    obtain ⟨context', branches, reads, visited, rfl⟩ := NodeObject.exists_reads derived'
    obtain rfl := Except.ok.inj (entered.symm.trans reads.entered)
    obtain ⟨earlier, later, rfl⟩ := reads.exists_ignored held unmapped
    have hrun := (reads.amend hkeys unmapped new).run fun row link inner item log hbranch =>
      (visited.amend new row link inner item log hbranch).run
    exact ⟨_, hrun, reads.inert_matchOf hkeys unmapped new frame.target⟩
  have seen : setup.SeesAlike (setup.documentVisit document) path
      ⟨.production .nodeObject, .object entries, frame⟩
      (.object (Entries.amend key new entries)) := by
    intro front frame' context' before after row link inner _ _ _ straight
    have hinner : frame.context = inner := (straight.of_nil rfl).2
    congr 1
    apply Context.objectShape_congr
    intro keyword
    rw [← hinner, Context.entryFor?_amend hinherited]
  have hmoved : Alike setup {} document (document.modify (Json.amend key new) path) ∧
      ∃ found', setup.run (setup.documentVisit (document.modify (Json.amend key new) path))
        = .ok found' ∧ Inert key new path found found' := by
    apply comes.transfer_of_sees (carries_inert setup _ key new) distinct
      (Alike.amend entered unmapped new) hknown seen derived.run
  obtain ⟨-, found', hfound', inert⟩ := hmoved
  obtain ⟨log', derived'⟩ := exists_derives _ _ hfound'
  refine ⟨found'.query, query_eq_ok.mpr ⟨found', log', derived', rfl⟩, ?_, ?_, inert.template_eq,
    inert.vars_eq, inert.warnings_eq⟩
  · simp only [Match.query, inert.pattern_eq, inert.projections_eq]
  · simp only [Match.query, Query.projections, inert.projections_eq]

/-- A moon with a name and a note, the value of which asks for a name, too. -/
def moon : List (String × Json) :=
  [("note", .object [("ex:name", .string "?")]), ("ex:name", .string "?")]

/-- A document about a planet with the moon. -/
def planet : Json :=
  .object [("ex:moon", .object moon)]

/-- The planet with its moon, without the note. -/
theorem ignored_entry_inert_moon :
  ∃ query query', ({} : Setup).grammar.query planet = .ok query ∧
    ({} : Setup).grammar.query (planet.modify (Json.amend "note" none) [.key "ex:moon"])
      = .ok query' ∧
    query'.pattern = query.pattern ∧ query'.projections = [⟨"root·moon·name"⟩] ∧
    query.warnings = [.unmapped [.key "ex:moon"] "note"] ∧ query'.warnings = []
  := by
  have houtcome : (({} : Setup).grammar.query planet).toOption.map
      (fun query => (query.projections, query.warnings))
        = some ([⟨"root·moon·name"⟩], [.unmapped [.key "ex:moon"] "note"]) := by decide +kernel
  obtain ⟨query, h, hquery⟩ := exists_of_outcome _ _ houtcome
  obtain ⟨hselected, hwarnings⟩ := Prod.mk.inj hquery
  have linked : LinkedAt {} ⟨⟨"root"⟩, {}, none⟩ {} []
      ⟨.property "ex:moon" false ⟨"root·moon"⟩, "ex:moon", .object moon⟩ []
      ⟨"ex:moon", false, ⟨"root·moon"⟩, {}⟩ {} :=
    NodeObject.linkedAt_undefined rfl (by decide +kernel) (by decide +kernel)
  have comes : Comes {} (({} : Setup).documentVisit planet) [.key "ex:moon"]
      ⟨.production .nodeObject, .object moon, ⟨⟨"root·moon"⟩, {}, none⟩⟩ :=
    .lead (.document rfl rfl) (.entry linked (.lead (.entryValue rfl rfl) .here))
  obtain ⟨query', h', hpattern, hselected', -, -, before, after, hbefore, hafter⟩ :=
    ignored_entry_inert {} planet query _ moon _ {} "note" _ none (by decide) h comes rfl
      List.mem_cons_self (by decide +kernel) (fun own => absurd rfl own)
  refine ⟨query, query', h, h', hpattern, hselected'.trans hselected, hwarnings, ?_⟩
  rw [hwarnings] at hbefore
  obtain ⟨rfl, hrest⟩ | ⟨-, hrest⟩ := List.singleton_eq_append_iff.mp hbefore
  · rw [hafter, (List.cons.inj hrest).2]
    rfl
  · cases hrest

end LinkedQuery
