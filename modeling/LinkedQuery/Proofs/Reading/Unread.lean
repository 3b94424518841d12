import LinkedQuery.Proofs.Reading.Reorder

/-!
# Objects that no visit comes to

An entry without a visit to its value keeps the value in the template.  Where the value has an
object within it, the entry makes no other use of the value, so the keys of that object can be put
in another order: the match is rearranged there.
-/

namespace LinkedQuery

/-- Whether a change of a value puts the keys of an object within the value in another order. -/
structure Shuffles (change : Json → Json) (path : List Step) (value : Json) : Prop where
  before : ∃ entries, value.at? path = some (.object entries)
  after : ∃ entries, (change value).at? path = some (.object entries)
  reordered : (Template.value value).Reordered path (.value (change value))

theorem Shuffles.put {value : Json} {path : List Step} {entries entries' : List (String × Json)}
    (held : value.at? path = some (.object entries)) (reordered : entries'.Perm entries) :
  Shuffles (fun value => value.put path (.object entries')) path value
  := ⟨⟨entries, held⟩, ⟨entries', Json.at?_put held _⟩, .value held reordered⟩

section Entries

variable {change : Json → Json} {path : List Step} {name : String} {part : Json}
  {entries : List (String × Json)} {context : Context} {target : Variable}

theorem Shuffles.isCompound (shuffles : Shuffles change path part) :
  part.isCompound = true ∧ (change part).isCompound = true
  := by
  obtain ⟨_, hbefore⟩ := shuffles.before
  obtain ⟨_, hafter⟩ := shuffles.after
  exact ⟨Json.isCompound_of_at? hbefore, Json.isCompound_of_at? hafter⟩

/-- Under a changed value there is the same key for a keyword. -/
theorem Context.exists_entryFor?_modify {keyword : Keyword} {key : String} {value : Json}
    (held : context.entryFor? entries keyword = some (key, value)) (change : Json → Json)
    (name : String) :
  ∃ value', context.entryFor? (Entries.modify change name entries) keyword = some (key, value')
  := by
  have h := Entries.find?_modify (fun key => context.meaning key == .keyword keyword) change name
    entries
  rw [entryFor?] at held ⊢
  rw [h, held]
  exact ⟨_, rfl⟩

/-- The entry for a keyword is the same as before, or it is the one whose value is changed. -/
theorem Context.entryFor?_modify_cases (distinct : (entries.map Prod.fst).Nodup)
    (held : (name, part) ∈ entries) (keyword : Keyword) (change : Json → Json) :
  context.entryFor? (Entries.modify change name entries) keyword
      = context.entryFor? entries keyword ∨
    (context.entryFor? entries keyword = some (name, part) ∧
      context.entryFor? (Entries.modify change name entries) keyword = some (name, change part))
  := by
  by_cases hname : ∃ value, context.entryFor? entries keyword = some (name, value)
  · right
    obtain ⟨value, hvalue⟩ := hname
    obtain rfl := (Prod.mk.inj (eq_of_key_eq distinct (Context.mem_of_entryFor? hvalue) held rfl)).2
    exact ⟨hvalue, Context.entryFor?_modify hvalue change⟩
  · left
    apply Context.entryFor?_modify_of_ne
    rintro ⟨key, value⟩ hentry rfl
    exact hname ⟨value, hentry⟩

/-- An object around a template, in which the value under a key is shuffled: the template stays if
it stands under another key, and is reordered itself if it stands under this one. -/
theorem Shuffles.around (shuffles : Shuffles change path part)
    (distinct : (entries.map Prod.fst).Nodup) (held : (name, part) ∈ entries) {key : String}
    {template template' : Template} (same : key ≠ name → template' = template)
    (within : key = name → template.Reordered path template') :
  (Template.around entries key template).Reordered (.key name :: path)
    (.around (Entries.modify change name entries) key template')
  := by
  rw [Template.around, Template.around, Entries.modify, List.map_map]
  apply Template.Reordered.of_items distinct held
  · simp only [if_true]
    split
    · rename_i hkey
      apply within hkey.symm
    · apply shuffles.reordered
  · intro other _ hne
    simp only [if_neg hne]
    split
    · rename_i hkey
      rw [same (hkey ▸ hne)]
    · rfl

/-! ### Value objects -/

namespace ValueObject

/-- A value with parts is no datatype. -/
theorem datatypeIn_shuffled (context : Context) (shuffles : Shuffles change path part)
    (distinct : (entries.map Prod.fst).Nodup) (held : (name, part) ∈ entries) :
  datatypeIn context (Entries.modify change name entries) = datatypeIn context entries
  := by
  obtain ⟨hpart, hpart'⟩ := shuffles.isCompound
  rw [datatypeIn, datatypeIn]
  rcases context.entryFor?_modify_cases distinct held .type change with
    hsame | ⟨hbefore, hafter⟩
  · rw [hsame]
  · simp only [hbefore, hafter, datatypeOf, (Json.of_isCompound hpart).2.1,
      (Json.of_isCompound hpart').2.1, Option.bind_none]

/-- A value with parts is no language. -/
theorem languageIn_shuffled (context : Context) (shuffles : Shuffles change path part)
    (distinct : (entries.map Prod.fst).Nodup) (held : (name, part) ∈ entries) :
  languageIn context (Entries.modify change name entries) = languageIn context entries
  := by
  obtain ⟨hpart, hpart'⟩ := shuffles.isCompound
  rw [languageIn, languageIn]
  rcases context.entryFor?_modify_cases distinct held .language change with
    hsame | ⟨hbefore, hafter⟩
  · rw [hsame]
  · simp only [hbefore, hafter, (Json.of_isCompound hpart).2.1, (Json.of_isCompound hpart').2.1,
      Option.bind_some, Option.map_none]

/-- A value object in which an object is shuffled. -/
theorem shuffled_matchOf (shuffles : Shuffles change path part)
    (distinct : (entries.map Prod.fst).Nodup) (held : (name, part) ∈ entries) {key : String}
    {value value' : Json} (hvalue : context.entryFor? entries .value = some (key, value))
    (hvalue' : context.entryFor? (Entries.modify change name entries) .value
      = some (key, value')) :
  Rearranged (.key name :: path) (matchOf context target entries key value)
    (matchOf context target (Entries.modify change name entries) key value')
  := by
  have hsome (keyword : Keyword) :
      (context.entryFor? (Entries.modify change name entries) keyword).isSome
        = (context.entryFor? entries keyword).isSome := by
    rw [Context.isSome_entryFor?, Context.isSome_entryFor?, Entries.map_fst_modify]
  have hdatatype := datatypeIn_shuffled context shuffles distinct held
  have hlanguage := languageIn_shuffled context shuffles distinct held
  by_cases hkey : key = name
  · -- The value itself is the one with parts, so it is refused before and after.
    subst hkey
    obtain rfl := (Prod.mk.inj
      (eq_of_key_eq distinct (Context.mem_of_entryFor? hvalue) held rfl)).2
    rw [Context.entryFor?_modify hvalue change, Option.some.injEq, Prod.mk.injEq] at hvalue'
    obtain ⟨-, rfl⟩ := hvalue'
    obtain ⟨hpart, hpart'⟩ := shuffles.isCompound
    have hbefore := Json.of_isCompound hpart
    have hafter := Json.of_isCompound hpart'
    simp only [matchOf, constantOf, hdatatype, hbefore, hafter]
    exact ⟨rfl, rfl, .refl _,
      shuffles.around distinct held (absurd rfl) fun _ => shuffles.reordered, .refl _⟩
  · have hsame : value' = value := by
      rw [Context.entryFor?_modify_of_ne (fun entry hentry heq => hkey ?_), hvalue,
        Option.some.injEq, Prod.mk.injEq] at hvalue'
      · exact hvalue'.2.symm
      · rw [hvalue, Option.some.injEq] at hentry
        rw [← heq, ← hentry]
    have haround (template : Template) :
        (Template.around entries key template).Reordered (.key name :: path)
          (.around (Entries.modify change name entries) key template) :=
      shuffles.around distinct held (fun _ => rfl) (fun h => absurd h hkey)
    subst hsame
    rw [matchOf, matchOf]
    split
    · refine ⟨rfl, rfl, .refl _, haround _, ?_⟩
      simp only [hsome]
      exact .refl _
    · simp only [constantOf, hdatatype, hlanguage]
      exact ⟨rfl, rfl, .refl _, haround _, .refl _⟩

end ValueObject

/-! ### Graphs and lists -/

/-- An object around a top-level graph in which an object beside the graph is shuffled. -/
theorem TopLevelGraph.shuffled_matchOf (shuffles : Shuffles change path part)
    (distinct : (entries.map Prod.fst).Nodup) (held : (name, part) ∈ entries) {key : String}
    (beside : key ≠ name) (contents : Match) :
  Rearranged (.key name :: path) (matchOf entries key contents)
    (matchOf (Entries.modify change name entries) key contents)
  := by
  refine ⟨rfl, rfl, .refl _, ?_, ?_⟩
  · apply shuffles.around distinct held (fun _ => rfl) (fun h => absurd h beside)
  · simp only [matchOf, Entries.modify, List.flatMap_map]
    exact .refl _

/-- A list object in which an object beside the list is shuffled. -/
theorem ListObject.shuffled_matchOf (shuffles : Shuffles change path part)
    (distinct : (entries.map Prod.fst).Nodup) (held : (name, part) ∈ entries) {key : String}
    (beside : key ≠ name) (list : Match) :
  Rearranged (.key name :: path) (matchOf entries key list)
    (matchOf (Entries.modify change name entries) key list)
  := ⟨rfl, rfl, .refl _,
    shuffles.around distinct held (fun _ => rfl) (fun h => absurd h beside), .refl _⟩

namespace GraphObject

/-- A value with parts is no usable name. -/
theorem identityOf_shuffled (context : Context) (shuffles : Shuffles change path part)
    (distinct : (entries.map Prod.fst).Nodup) (held : (name, part) ∈ entries) :
  identityOf context (Entries.modify change name entries) = identityOf context entries
  := by
  obtain ⟨hpart, hpart'⟩ := shuffles.isCompound
  rw [identityOf, identityOf]
  rcases context.entryFor?_modify_cases distinct held .id change with
    hsame | ⟨hbefore, hafter⟩
  · rw [hsame]
  · simp [hbefore, hafter, Context.identity, Json.of_isCompound hpart, Json.of_isCompound hpart']

theorem any_id_modify (change : Json → Json) (name key : String) :
  (context.entryFor? (Entries.modify change name entries) .id).any (·.1 == key)
    = (context.entryFor? entries .id).any (·.1 == key)
  := by
  have h := Entries.find?_modify (fun key => context.meaning key == .keyword .id) change name
    entries
  rw [Context.entryFor?, h, Option.any_map]
  rfl

/-- The entry whose value has parts keeps it, beside the graph. -/
theorem exists_shareOf_shuffled (context : Context) (target : Variable)
    (shuffles : Shuffles change path part) (distinct : (entries.map Prod.fst).Nodup)
    (held : (name, part) ∈ entries) {key : String} (beside : name ≠ key) (members : Match) :
  ∃ warnings, shareOf context target entries key members name part = ⟨.value part, warnings⟩ ∧
    shareOf context target (Entries.modify change name entries) key members name (change part)
      = ⟨.value (change part), warnings⟩
  := by
  simp only [shareOf, if_neg beside, any_id_modify,
    identityOf_shuffled context shuffles distinct held]
  cases hid : (context.entryFor? entries .id).any (·.1 == name) with
  | true =>
      obtain ⟨entry, hentry⟩ : ∃ entry, context.entryFor? entries .id = some entry := by
        rw [← Option.isSome_iff_exists]
        apply Option.isSome_of_any hid
      rw [hentry, Option.any_some, beq_iff_eq] at hid
      obtain rfl := eq_of_key_eq distinct (Context.mem_of_entryFor? hentry) held hid
      simp only [if_true, identityOf, hentry, Option.map_some, Context.identity,
        Json.of_isCompound shuffles.isCompound.1]
      exact ⟨_, rfl, rfl⟩
  | false =>
      simp only [Bool.false_eq_true, if_false, otherShare]
      split
      all_goals exact ⟨_, rfl, rfl⟩

/-- A graph object in which an object beside the graph is shuffled. -/
theorem shuffled_matchOf (shuffles : Shuffles change path part)
    (distinct : (entries.map Prod.fst).Nodup) (held : (name, part) ∈ entries) {key : String}
    (beside : name ≠ key) (members : Match) :
  Rearranged (.key name :: path) (matchOf context target entries key members)
    (matchOf context target (Entries.modify change name entries) key members)
  := by
  have hidentity := identityOf_shuffled context shuffles distinct held
  obtain ⟨warnings, hbefore, hafter⟩ := exists_shareOf_shuffled context target shuffles distinct
    held beside members
  have hothers (other : String × Json) :
      shareOf context target (Entries.modify change name entries) key members other.1 other.2
        = shareOf context target entries key members other.1 other.2 := by
    simp only [shareOf, any_id_modify, hidentity]
  constructor
  · simp only [matchOf, hidentity]
  · simp only [matchOf, hidentity]
  · simp only [matchOf, hidentity]
    exact .refl _
  · have hmap (share : String → Json → Share) :
        ((Entries.modify change name entries).map fun entry =>
            (entry.1, (share entry.1 entry.2).template))
          = entries.map fun entry => (entry.1,
              (share entry.1 (if entry.1 = name then change entry.2 else entry.2)).template) := by
      rw [Entries.modify, List.map_map]
      rfl
    simp only [matchOf]
    rw [hmap]
    apply Template.Reordered.of_items distinct held
    · simp only [if_true, hbefore, hafter]
      apply shuffles.reordered
    · intro other _ hne
      simp only [if_neg hne, hothers other]
  · simp only [matchOf]
    apply List.Perm.of_eq
    rw [Entries.modify, List.flatMap_map, ← Entries.modify]
    apply List.flatMap_congr
    intro other hother
    by_cases hname : other.1 = name
    · obtain rfl := eq_of_key_eq distinct hother held hname
      simp only [if_true, hbefore, hafter]
    · simp only [if_neg hname, hothers other]

end GraphObject

/-! ### Node objects -/

namespace NodeObject

theorem mapM_eq_none {α β : Type} {f : α → Option β} {items : List α} {item : α}
    (held : item ∈ items) (h : f item = none) :
  items.mapM f = none
  := by
  induction items with
  | nil => cases held
  | cons first items ih =>
      rw [List.mapM_cons]
      rcases List.mem_cons.mp held with rfl | held
      · rw [h]
        rfl
      · rw [ih held]
        cases f first with
        | _ => rfl

/-- An object names no class, and neither does what has one within it. -/
theorem typeShare_of_at? {value : Json} {inner : List (String × Json)}
    (held : value.at? path = some (.object inner)) (scope : Scope) (child : Variable)
    (key : String) :
  typeShare scope child key value = .warn key value .unusableType
  := by
  cases value with
  | array items =>
      obtain ⟨item, hitem, hnone⟩ : ∃ item ∈ items, classOf? scope.context item = none ∧
          item.isPlaceholder = false := by
        cases path with
        | nil => cases held
        | cons step path =>
            obtain ⟨item, hitem, hheld⟩ := Option.bind_eq_some_iff.mp held
            have hcompound := Json.of_isCompound (Json.isCompound_of_at? hheld)
            cases step with
            | key name => cases hitem
            | index position =>
                refine ⟨item, List.mem_of_getElem? hitem, ?_, hcompound.1⟩
                simp [classOf?, hcompound]
      have hall : items.all Json.isPlaceholder = false := by
        rw [List.all_eq_false]
        exact ⟨item, hitem, by simp [hnone.2]⟩
      simp [typeShare, hall, mapM_eq_none hitem hnone.1]
  | object entries => rfl
  | _ =>
      cases path with
      | nil => cases held
      | cons step path => cases held

variable {setup : Setup} {frame : Frame} {earlier later : List Branch} {row : Row}

/-- An entry without a visit to its value can have another value. -/
theorem Reads.replacePlain
    (reads : Reads setup entries frame context (earlier ++ .plain row :: later))
    (distinct : (entries.map Prod.fst).Nodup) (apart : row.key ≠ Keyword.context.text)
    (change : Json → Json) :
  Reads setup (Entries.modify change row.key entries) frame context
    (earlier ++ .plain { row with value := change row.value } :: later)
  := by
  have hentries : Entries.modify change row.key entries
      = (earlier ++ .plain { row with value := change row.value } :: later).map (·.row.entry) := by
    have hsplit : entries
        = earlier.map (·.row.entry) ++ (row.key, row.value) :: later.map (·.row.entry) := by
      rw [reads.entries_eq, List.map_append]
      rfl
    rw [hsplit] at distinct
    rw [hsplit, Entries.modify_of_nodup distinct, List.map_append]
    rfl
  rw [hentries]
  apply Reads.of_roles
  · rw [← hentries, Entries.lookup_modify_of_ne apart]
    apply reads.entered
  · have hroles := reads.map_role
    rw [reads.map_key] at hroles
    simpa [Branch.row] using hroles
  · have hfits := reads.fits
    simp only [List.forall_mem_append, List.forall_mem_cons] at hfits ⊢
    exact hfits

/-- The entry with the value keeps it, without another use of it. -/
theorem Reads.exists_plainShare_shuffled
    (reads : Reads setup entries frame context (earlier ++ .plain row :: later))
    (shuffles : Shuffles change path row.value) :
  let scope := scopeOf context frame.target entries
  ∃ warnings, row.plainShare scope = { template := .value row.value, warnings := warnings } ∧
    ({ row with value := change row.value } : Row).plainShare scope
      = { template := .value (change row.value), warnings := warnings }
  := by
  have hbranch : Branch.plain row ∈ earlier ++ .plain row :: later := by simp
  have hid := reads.entryFor?_id hbranch
  obtain ⟨_, hbefore⟩ := shuffles.before
  obtain ⟨_, hafter⟩ := shuffles.after
  have hcompound := Json.of_isCompound shuffles.isCompound.1
  obtain ⟨role, key, value⟩ := row
  cases role with
  | id =>
      have hidentity : (scopeOf context frame.target entries).identity
          = some (.unusable .idNotString) := by
        simp [scopeOf, hid rfl, Branch.row, Context.identity, hcompound]
      simp only [Row.plainShare, idShare, hidentity]
      exact ⟨_, rfl, rfl⟩
  | type child =>
      simp only [Row.plainShare, typeShare_of_at? hbefore, typeShare_of_at? hafter]
      exact ⟨_, rfl, rfl⟩
  | property iri reverse child =>
      simp only [Row.plainShare]
      split
      · exact ⟨_, rfl, rfl⟩
      · exact ⟨_, rfl, rfl⟩
  | _ => exact ⟨_, rfl, rfl⟩

/-- A node object in which an object under a key without a visit is shuffled. -/
theorem Reads.shuffled_matchOf
    (reads : Reads setup entries frame context (earlier ++ .plain row :: later))
    (distinct : (entries.map Prod.fst).Nodup) (shuffles : Shuffles change path row.value) :
  Rearranged (.key row.key :: path)
    (matchOf context frame.target entries (earlier ++ .plain row :: later))
    (matchOf context frame.target (Entries.modify change row.key entries)
      (earlier ++ .plain { row with value := change row.value } :: later))
  := by
  have hbranch : Branch.plain row ∈ earlier ++ .plain row :: later := by simp
  have held : (row.key, row.value) ∈ entries := reads.mem_entries hbranch
  have hscope : scopeOf context frame.target (Entries.modify change row.key entries)
      = scopeOf context frame.target entries :=
    congrArg (Scope.mk frame.target context)
      (GraphObject.identityOf_shuffled context shuffles distinct held)
  obtain ⟨warnings, hbefore, hafter⟩ := reads.exists_plainShare_shuffled shuffles
  simp only [matchOf, hscope, List.map_append, List.map_cons, Branch.row, Branch.share, hbefore,
    hafter]
  constructor
  · rfl
  · simp only [assemble, List.flatMap_append, List.flatMap_cons]
  · simp only [assemble, List.flatMap_append, List.flatMap_cons]
    exact .refl _
  · simp only [assemble, List.map_append, List.map_cons]
    apply Template.Reordered.entry shuffles.reordered
  · simp only [assemble, List.flatMap_append, List.flatMap_cons]
    exact .refl _

end NodeObject

end Entries

end LinkedQuery
