import LinkedQuery.Proofs.Json.Rename
import LinkedQuery.Proofs.Reading.Change
import LinkedQuery.Proofs.Reading.Warnings

/-!
# Objects with renamed keys

The keys of an object can be renamed as long as they stand for the same in the context of the
object.  Then the object has the same match, up to the names of the keys in its template and in the
paths of its warnings, and so has everything around it.
-/

namespace LinkedQuery

/-- Whether the keys of an object can be renamed in a context: they stand for the same as before,
they remain apart, and only keywords are renamed, except the one for local contexts. -/
structure Renames (context : Context) (entries : List (String × Json)) (ρ : String → String) :
    Prop where
  meaning : ∀ entry ∈ entries, context.meaning (ρ entry.1) = context.meaning entry.1
  apart : ∀ entry ∈ entries, ∀ other ∈ entries, ρ entry.1 = ρ other.1 → entry.1 = other.1
  kept : ∀ entry ∈ entries,
    (∀ keyword, context.meaning entry.1 = .keyword keyword → keyword = .context) →
      ρ entry.1 = entry.1

section Entries

variable {setup : Setup} {context own : Context} {entries : List (String × Json)}
  {ρ : String → String} {key : String} {value : Json} {keyword : Keyword}

/-- The key for local contexts is kept, and no other is renamed to it. -/
theorem Renames.eq_context_iff (renames : Renames context entries ρ) {entry : String × Json}
    (h : entry ∈ entries) :
  ρ entry.1 = Keyword.context.text ↔ entry.1 = Keyword.context.text
  := by
  have hkept (hmeaning : context.meaning entry.1 = .keyword .context) : ρ entry.1 = entry.1 := by
    apply renames.kept entry h
    intro keyword hkeyword
    rw [hmeaning, Meaning.keyword.injEq] at hkeyword
    exact hkeyword.symm
  constructor
  · intro heq
    rw [← hkept, heq]
    rw [← renames.meaning entry h, heq, Context.meaning_text]
  · intro heq
    rw [hkept, heq]
    rw [heq, Context.meaning_text]

theorem Renames.eq_iff (renames : Renames context entries ρ) {entry other : String × Json}
    (h : entry ∈ entries) (h' : other ∈ entries) :
  ρ entry.1 = ρ other.1 ↔ entry.1 = other.1
  := by
  constructor
  · apply renames.apart entry h other h'
  · apply congrArg

theorem Renames.lookup (renames : Renames context entries ρ) :
  (Entries.rename ρ entries).lookup Keyword.context.text = entries.lookup Keyword.context.text
  := Entries.lookup_rename fun _ hentry => renames.eq_context_iff hentry

/-- The entry for a keyword has the renamed key. -/
theorem Renames.entryFor? (renames : Renames context entries ρ) (keyword : Keyword) :
  context.entryFor? (Entries.rename ρ entries) keyword
    = (context.entryFor? entries keyword).map fun entry => (ρ entry.1, entry.2)
  := by
  have htest : ∀ entry ∈ entries, (context.meaning (ρ entry.1) == .keyword keyword)
      = (context.meaning entry.1 == .keyword keyword) := by
    intro entry hentry
    rw [renames.meaning entry hentry]
  simp only [Context.entryFor?, Entries.rename, List.find?_map, Function.comp_def]
  congr 1
  clear renames
  induction entries with
  | nil => rfl
  | cons entry entries ih =>
      obtain ⟨hfirst, hrest⟩ := List.forall_mem_cons.mp htest
      simp only [List.find?_cons, hfirst]
      rw [ih hrest]

/-- An object with renamed keys is alike in the context to which the renaming belongs. -/
theorem Renames.alike (renames : Renames own entries ρ)
    (entered : setup.enter context (entries.lookup Keyword.context.text) = .ok own) :
  Alike setup context (.object entries) (.object (Entries.rename ρ entries))
  := by
  refine ⟨rfl, by rfl, rfl, renames.lookup, ?_⟩
  intro other hother
  obtain rfl : own = other := by
    change setup.enter context (entries.lookup Keyword.context.text) = _ at hother
    rw [entered, Except.ok.injEq] at hother
    exact hother
  apply Context.objectShape_congr
  intro keyword
  rw [renames.entryFor?, Option.isSome_map]

end Entries

/-! ### Renamed matches -/

/-- Whether a match is another with the keys of the object at a place renamed: in the template and
in the places of warnings. -/
structure Renamed (ρ : String → String) (place : List Step) (found found' : Match) : Prop where
  term_eq : found'.term = found.term
  pattern_eq : found'.pattern = found.pattern
  projections_eq : found'.projections = found.projections
  template_eq : found'.template = found.template.modify (Template.rename ρ) place
  moved : Moved ρ place found.warnings found'.warnings

/-- A change under a key of an object that is made entry by entry. -/
theorem Template.modify_object {α : Type} (change : Template → Template) (key : String)
    (path : List Step) (items : List α) (name : α → String) (template : α → Template) :
  (Template.object (items.map fun item => (name item, template item))).modify change
      (.key key :: path)
    = .object (items.map fun item => (name item,
        if name item = key then (template item).modify change path else template item))
  := by
  simp [modify, modifyPart, Entries.modify, Function.comp_def]

section Lead

variable {setup : Setup} {ρ : String → String} {place : List Step} {item item' : Match}

theorem Template.modify_around {entries : List (String × Json)} {key : String}
    {template : Template} (change : Template → Template) (path : List Step) :
  (around entries key template).modify change (.key key :: path)
    = around entries key (template.modify change path)
  := by
  rw [around, modify_object, around]
  congr 2
  funext entry
  split
  · rfl
  · rfl

theorem Renamed.itemProjections (renamed : Renamed ρ place item item') (target : Variable) :
  itemProjections target item' = itemProjections target item
  := by
  rw [LinkedQuery.itemProjections, renamed.term_eq, renamed.projections_eq,
    LinkedQuery.itemProjections]

/-- A renamed match of a top-level graph. -/
theorem Renamed.topLevelGraph (renamed : Renamed ρ place item item')
    (entries : List (String × Json)) (key : String) :
  Renamed ρ (.key key :: place) (TopLevelGraph.matchOf entries key item)
    (TopLevelGraph.matchOf entries key item')
  := by
  refine ⟨renamed.term_eq, renamed.pattern_eq, renamed.projections_eq, ?_, ?_⟩
  · simp only [TopLevelGraph.matchOf, Template.modify_around, renamed.template_eq]
  · apply Moved.flatMap
    rw [List.forall₂_same]
    intro entry _
    by_cases hkey : entry.1 = key
    · simp only [hkey, if_true]
      apply renamed.moved.nest
    · simp only [hkey, if_false]
      apply Moved.of_ne
      intro warning hwarning
      rw [TopLevelGraph.otherWarnings] at hwarning
      split at hwarning
      · cases hwarning
      · rw [List.mem_singleton.mp hwarning]
        simpa [Warning.atKey] using hkey

/-- A renamed match of the members of a graph object. -/
theorem Renamed.graphObject (renamed : Renamed ρ place item item') (context : Context)
    (target : Variable) (entries : List (String × Json)) (key : String) :
  Renamed ρ (.key key :: place) (GraphObject.matchOf context target entries key item)
    (GraphObject.matchOf context target entries key item')
  := by
  refine ⟨rfl, ?_, ?_, ?_, ?_⟩
  · simp only [GraphObject.matchOf, renamed.pattern_eq]
  · simp only [GraphObject.matchOf, renamed.projections_eq]
  · change Template.object _ = (Template.object _).modify _ (.key key :: place)
    rw [Template.modify_object]
    congr 2
    funext entry
    simp only [GraphObject.shareOf]
    split
    · rw [renamed.template_eq]
    · rfl
  · apply Moved.flatMap
    rw [List.forall₂_same]
    intro entry _
    by_cases hkey : entry.1 = key
    · simp only [GraphObject.shareOf, hkey, if_true]
      apply renamed.moved.nest
    · have hshare : GraphObject.shareOf context target entries key item' entry.1 entry.2
          = GraphObject.shareOf context target entries key item entry.1 entry.2 := by
        simp only [GraphObject.shareOf, hkey, if_false]
      simp only [hshare]
      apply Moved.of_ne
      intro warning hwarning
      rw [GraphObject.head?_path hwarning]
      simpa using hkey

/-- What leads to a renamed match is renamed. -/
theorem Renamed.lead {outer inner : Visit} {make : Match → Match}
    (step : Leads setup outer inner make) (renamed : Renamed ρ place item item') :
  Renamed ρ (setup.stepsOf outer ++ place) (make item) (make item')
  := by
  cases step with
  | document | documentGraph | documents | nodeObjects | entryValue | graphNodes | graphNode =>
      exact renamed
  | items =>
      refine ⟨renamed.term_eq, renamed.pattern_eq, renamed.itemProjections _, ?_,
        renamed.moved.nest _⟩
      simp only [itemsMatch, renamed.template_eq]
      rfl
  | members =>
      refine ⟨rfl, ?_, renamed.itemProjections _, ?_, renamed.moved.nest _⟩
      · simp only [ListObject.membersMatch, renamed.term_eq, renamed.pattern_eq]
      · simp only [ListObject.membersMatch, renamed.template_eq]
        rfl
  | onlyMember single =>
      simp only [Setup.stepsOf, single, if_false]
      refine ⟨rfl, ?_, renamed.projections_eq, renamed.template_eq, renamed.moved⟩
      simp only [ListObject.membersMatch, renamed.term_eq, renamed.pattern_eq]
  | graphValue =>
      refine ⟨rfl, ?_, renamed.projections_eq, renamed.template_eq, renamed.moved⟩
      simp only [GraphObject.ofMembers, renamed.pattern_eq]
  | topLevelGraph entered held chosen =>
      simp only [Setup.stepsOf, Production.keyword?, Setup.stepTo?_eq_some entered held]
      apply renamed.topLevelGraph
  | @listObject entries frame context key members entered held =>
      simp only [Setup.stepsOf, Production.keyword?, Setup.stepTo?_eq_some entered held]
      refine ⟨renamed.term_eq, renamed.pattern_eq, renamed.projections_eq, ?_,
        renamed.moved.nest _⟩
      change Template.around _ _ _ = (Template.around _ _ _).modify _ (.key key :: place)
      rw [Template.modify_around, renamed.template_eq]
  | graphObject entered held =>
      simp only [Setup.stepsOf, Production.keyword?, Setup.stepTo?_eq_some entered held]
      apply renamed.graphObject

end Lead

/-! ### Node objects -/

namespace NodeObject

/-- The roles of keys depend on what the keys stand for. -/
theorem roles_congr (naming : Naming) (context : Context) (target : Variable)
    {keys keys' : List String}
    (same : List.Forall₂ (fun key key' => context.meaning key' = context.meaning key) keys keys')
    (named : Bool) (siblings : Siblings) :
  roles naming context target named siblings keys' = roles naming context target named siblings keys
  := by
  induction same generalizing named siblings with
  | nil => rfl
  | cons first _ ih => simp only [roles, first, ih]

/-- How two shares are related when their entry has a renamed key. -/
structure Share.Renamed (ρ : String → String) (share share' : Share) : Prop where
  template_eq : share'.template = share.template
  required_eq : share'.required = share.required
  optional_eq : share'.optional = share.optional
  projections_eq : share'.projections = share.projections
  moved : Moved ρ [] share.warnings share'.warnings

/-- A branch of an object with renamed keys. -/
def Branch.rename (ρ : String → String) : Branch → Branch
  | .plain row => .plain { row with key := ρ row.key }
  | .linked row link inner item log => .linked { row with key := ρ row.key } link inner item log

section Branches

variable {setup : Setup} {ρ : String → String} {scope : Scope} {entries : List (String × Json)}
  {frame : Frame} {context : Context} {branches : List Branch}

/-- The share of the classes of a node has the key in its warning alone. -/
theorem renamed_typeShare (ρ : String → String) (scope : Scope) (child : Variable) (key : String)
    (value : Json) :
  Share.Renamed ρ (typeShare scope child key value) (typeShare scope child (ρ key) value)
  := by
  simp only [typeShare]
  repeat' split
  all_goals exact ⟨rfl, rfl, rfl, rfl, rfl⟩

/-- The share of a branch with a renamed key.  The keys of properties are kept. -/
theorem Branch.renamed_share {branch : Branch}
    (kept : ∀ iri reverse child, branch.row.role = .property iri reverse child →
      ρ branch.row.key = branch.row.key)
    (fits : branch.Fits setup context) :
  Share.Renamed ρ (branch.share scope) ((branch.rename ρ).share scope)
  := by
  have hsame (hkey : ρ branch.row.key = branch.row.key) :
      Share.Renamed ρ (branch.share scope) ((branch.rename ρ).share scope) := by
    have hrename : branch.rename ρ = branch := by
      cases branch with
      | plain row | linked row => simp only [rename, Branch.row] at hkey ⊢; rw [hkey]
    rw [hrename]
    refine ⟨rfl, rfl, rfl, rfl, ?_⟩
    apply Moved.of_kept
    intro warning hwarning
    rw [Branch.head?_path hwarning]
    exact ⟨_, rfl, hkey⟩
  cases branch with
  | plain row =>
      obtain ⟨role, key, value⟩ := row
      cases role with
      | property iri reverse child => apply hsame (kept iri reverse child rfl)
      | type child => apply renamed_typeShare
      | id =>
          simp only [share, rename, Row.plainShare, idShare]
          split
          · exact ⟨rfl, rfl, rfl, rfl, rfl⟩
          · exact ⟨rfl, rfl, rfl, rfl, rfl⟩
          · exact ⟨rfl, rfl, rfl, rfl, rfl⟩
      | _ => exact ⟨rfl, rfl, rfl, rfl, rfl⟩
  | linked row link inner item log =>
      apply hsame (kept _ _ _ (Row.role_of_link fits.1))

/-- A key with another role than that of a property can be renamed. -/
theorem Reads.kept (reads : Reads setup entries frame context branches)
    (renames : Renames context entries ρ) {branch : Branch} (hbranch : branch ∈ branches)
    {iri : String} {reverse : Bool} {child : Variable}
    (hrole : branch.row.role = .property iri reverse child) :
  ρ branch.row.key = branch.row.key
  := by
  have hmem : branch.row.entry ∈ entries := by
    rw [reads.entries_eq]
    apply List.mem_map_of_mem hbranch
  apply renames.kept _ hmem
  intro keyword hmeaning
  have hsuits := reads.suits hbranch
  change context.meaning branch.row.key = _ at hmeaning
  rw [hmeaning, hrole] at hsuits
  cases hsuits

/-- A node object with renamed keys has the branches with renamed keys. -/
theorem Reads.rename (reads : Reads setup entries frame context branches)
    (renames : Renames context entries ρ) :
  Reads setup (Entries.rename ρ entries) frame context (branches.map (Branch.rename ρ))
  := by
  have hrow (branch : Branch) :
      (branch.rename ρ).row = { branch.row with key := ρ branch.row.key } := by
    cases branch with
    | _ => rfl
  have hentries :
      Entries.rename ρ entries = (branches.map (Branch.rename ρ)).map (·.row.entry) := by
    rw [List.map_map, reads.entries_eq, Entries.rename, List.map_map]
    apply List.map_congr_left
    intro branch _
    simp only [Function.comp_apply, hrow]
    rfl
  have hroles : (branches.map (Branch.rename ρ)).map (·.row.role) = branches.map (·.row.role) := by
    rw [List.map_map]
    apply List.map_congr_left
    intro branch _
    simp only [Function.comp_apply, hrow]
  have hkeys : (branches.map (Branch.rename ρ)).map (·.row.key) = (entries.map Prod.fst).map ρ := by
    rw [reads.map_key, List.map_map, List.map_map]
    apply List.map_congr_left
    intro branch _
    simp only [Function.comp_apply, hrow]
  rw [hentries]
  apply Reads.of_roles
  · rw [← hentries, renames.lookup, reads.entered]
  · rw [hroles, hkeys, reads.map_role]
    symm
    apply roles_congr
    rw [List.forall₂_map_right_iff, List.forall₂_same, List.forall_mem_map]
    apply renames.meaning
  · rw [List.forall_mem_map]
    intro branch hbranch
    have hfits := reads.fits branch hbranch
    have hlink : (branch.rename ρ).row.link? context = branch.row.link? context := by
      rw [hrow]
      cases hrole : branch.row.role with
      | property iri reverse child => simp only [reads.kept renames hbranch hrole]
      | _ => simp [Row.link?, hrole]
    cases branch with
    | plain row => exact hlink.trans hfits
    | linked row link inner item log => exact ⟨hlink.trans hfits.1, hfits.2⟩

/-- A node object with renamed keys has the renamed match. -/
theorem Reads.renamed (reads : Reads setup entries frame context branches)
    (renames : Renames context entries ρ) :
  LinkedQuery.Renamed ρ [] (matchOf context frame.target entries branches)
    (matchOf context frame.target (Entries.rename ρ entries) (branches.map (Branch.rename ρ)))
  := by
  have hscope : scopeOf context frame.target (Entries.rename ρ entries)
      = scopeOf context frame.target entries := by
    rw [scopeOf, scopeOf, renames.entryFor?, Option.map_map]
    rfl
  have hshare (branch : Branch) (hbranch : branch ∈ branches) :
      Share.Renamed ρ (branch.share (scopeOf context frame.target entries))
        ((branch.rename ρ).share (scopeOf context frame.target entries)) :=
    Branch.renamed_share (fun _ _ _ => reads.kept renames hbranch) (reads.fits branch hbranch)
  constructor
  · exact congrArg Scope.subject hscope
  · simp only [matchOf, assemble, hscope, List.map_map, List.flatMap_map, Function.comp_apply]
    congr 1
    · rw [List.flatMap_congr fun branch hbranch => (hshare branch hbranch).required_eq]
    · rw [List.flatMap_congr fun branch hbranch => (hshare branch hbranch).optional_eq]
  · simp only [matchOf, assemble, hscope, List.map_map, List.flatMap_map, Function.comp_apply]
    rw [List.flatMap_congr fun branch hbranch => (hshare branch hbranch).projections_eq]
  · simp only [matchOf, assemble, hscope, Template.modify, Template.rename, Template.object.injEq]
    rw [Entries.rename, List.map_map, List.map_map, List.map_map, List.map_map]
    apply List.map_congr_left
    intro branch hbranch
    simp only [Function.comp_apply, (hshare branch hbranch).template_eq]
    cases branch with
    | _ => rfl
  · simp only [matchOf, assemble, hscope, List.map_map, List.flatMap_map, Function.comp_apply]
    apply Moved.flatMap
    rw [List.forall₂_same]
    intro branch hbranch
    apply (hshare branch hbranch).moved

/-- A node object is renamed with the value of an entry. -/
theorem renamed_matchOf {place : List Step} {target : Variable} {earlier later : List Branch}
    {row : Row} {link : Link} {inner : Context} {item item' : Match} {log log' : Log}
    (distinct : ((earlier ++ .linked row link inner item log :: later).map (·.row.key)).Nodup)
    (renamed : LinkedQuery.Renamed ρ place item item') :
  LinkedQuery.Renamed ρ (.key row.key :: place)
    (matchOf context target entries (earlier ++ .linked row link inner item log :: later))
    (matchOf context target entries (earlier ++ .linked row link inner item' log' :: later))
  := by
  have hother (others : List Branch) (hothers : row.key ∉ others.map (·.row.key)) :
      Moved ρ (.key row.key :: place)
        (others.flatMap fun branch => (branch.share (scopeOf context target entries)).warnings)
        (others.flatMap fun branch =>
          (branch.share (scopeOf context target entries)).warnings) := by
    apply Moved.of_ne
    intro warning hwarning
    obtain ⟨branch, hbranch, hwarning⟩ := List.mem_flatMap.mp hwarning
    rw [Branch.head?_path hwarning]
    intro heq
    apply hothers
    rw [← Step.key.inj (Option.some.inj heq)]
    apply List.mem_map_of_mem hbranch
  constructor
  · rfl
  · simp only [matchOf, assemble, List.map_append, List.map_cons, List.flatMap_append,
      List.flatMap_cons, Branch.share, Link.share, Link.fragment, renamed.term_eq,
      renamed.pattern_eq]
  · simp only [matchOf, assemble, List.map_append, List.map_cons, List.flatMap_append,
      List.flatMap_cons, Branch.share, Link.share, renamed.projections_eq]
  · let named (branch : Branch) : String × Template :=
      (branch.row.key, (branch.share (scopeOf context target entries)).template)
    have hsplit (item : Match) (log : Log) :
        (matchOf context target entries
            (earlier ++ .linked row link inner item log :: later)).template
          = .object (earlier.map named ++ (row.key, item.template) :: later.map named) := by
      simp only [matchOf, assemble, List.map_map, List.map_append, List.map_cons]
      rfl
    rw [hsplit, hsplit, renamed.template_eq, Template.modify, Template.modifyPart,
      Entries.modify_of_nodup]
    simpa [named, Branch.row, Function.comp_def] using distinct
  · simp only [matchOf, assemble, List.map_append, List.map_cons, List.flatMap_append,
      List.flatMap_cons, List.flatMap_map]
    rw [List.map_append, List.map_cons, List.nodup_append, List.nodup_cons] at distinct
    obtain ⟨-, ⟨hlater, -⟩, hearlier⟩ := distinct
    apply (hother earlier _).append
    · apply Moved.append _ (hother later hlater)
      apply renamed.moved.nest
    · intro hmem
      apply hearlier row.key hmem row.key List.mem_cons_self rfl

end Branches

end NodeObject

/-- Renamed matches are carried to what is around a place. -/
theorem carries_renamed (setup : Setup) (last : Visit) (ρ : String → String) :
  Carries setup last (Renamed ρ)
  := by
  constructor
  · intro outer inner make path item item' step _ _ _ renamed
    apply renamed.lead step
  · intro entries frame context earlier later row link inner path item item' log reads _ distinct _
      renamed
    apply NodeObject.renamed_matchOf _ renamed
    rw [← reads.map_key]
    apply (Json.hasDistinctKeys_object.mp distinct).1

end LinkedQuery
