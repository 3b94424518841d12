import LinkedQuery.Proofs.Reading.Rename

/-!
# What surrounds a value

A visit makes its match of that of the value with which it goes on, and a node object makes its
match of those of the values of its links.  Both are `Surrounds`: they depend on the term, the
pattern and the projections of the value alone, a change within its template is one within theirs,
and its warnings are among theirs in one piece.
-/

namespace LinkedQuery

/-- Warnings as they are seen from where some steps begin. -/
def nestAlong (steps : List Step) (warnings : List Warning) : List Warning :=
  warnings.map fun warning => { warning with path := steps ++ warning.path }

@[simp]
theorem nestAlong_nil (warnings : List Warning) :
  nestAlong [] warnings = warnings
  := by
  simp [nestAlong]

@[simp]
theorem nestAlong_singleton (step : Step) (warnings : List Warning) :
  nestAlong [step] warnings = nestAll step warnings
  := rfl

@[simp]
theorem nestAlong_append (steps : List Step) (warnings more : List Warning) :
  nestAlong steps (warnings ++ more) = nestAlong steps warnings ++ nestAlong steps more
  := List.map_append

/-- Whether the match of what is around a value, some steps away, is made of the match of the
value. -/
structure Surrounds (steps : List Step) (make : Match → Match) : Prop where
  term_eq : ∀ item item', item'.term = item.term → (make item').term = (make item).term
  pattern_eq : ∀ item item', item'.term = item.term → item'.pattern = item.pattern →
    (make item').pattern = (make item).pattern
  projections_eq : ∀ item item', item'.term = item.term → item'.projections = item.projections →
    (make item').projections = (make item).projections
  template_eq : ∀ item item' change place, item'.template = item.template.modify change place →
    (make item').template = (make item).template.modify change (steps ++ place)
  vars_eq : ∀ item item', item'.template.vars = item.template.vars →
    (make item').template.vars = (make item).template.vars
  warnings_eq : ∃ before after, ∀ item,
    (make item).warnings = before ++ nestAlong steps item.warnings ++ after

/-- What is collected from items with distinct names is what is collected from one of them, between
what is collected from the others. -/
theorem exists_flatMap_eq {α β : Type} {name : α → String} {items : List α} {item : α}
    (distinct : (items.map name).Nodup) (held : item ∈ items) (other : α → List β) :
  ∃ before after, ∀ collect : α → List β,
    (∀ rest ∈ items, name rest ≠ name item → collect rest = other rest) →
      items.flatMap collect = before ++ collect item ++ after
  := by
  obtain ⟨front, back, rfl⟩ := List.append_of_mem held
  rw [List.map_append, List.map_cons, List.nodup_append, List.nodup_cons] at distinct
  obtain ⟨-, ⟨hback, -⟩, hfront⟩ := distinct
  use front.flatMap other, back.flatMap other
  intro collect same
  have hsame (part : List α) (hpart : ∀ rest ∈ part, rest ∈ front ++ item :: back)
      (hapart : ∀ rest ∈ part, name rest ≠ name item) :
      part.flatMap collect = part.flatMap other :=
    List.flatMap_congr fun rest hrest => same rest (hpart rest hrest) (hapart rest hrest)
  rw [List.flatMap_append, List.flatMap_cons, hsame front, hsame back, List.append_assoc]
  · intro rest hrest
    simp [hrest]
  · intro rest hrest heq
    exact hback (heq ▸ List.mem_map_of_mem hrest)
  · intro rest hrest
    simp [hrest]
  · intro rest hrest
    exact hfront _ (List.mem_map_of_mem hrest) _ List.mem_cons_self

/-- The projections of items depend on the term and the projections of one. -/
theorem itemProjections_congr {target : Variable} {item item' : Match}
    (term : item'.term = item.term) (projections : item'.projections = item.projections) :
  itemProjections target item' = itemProjections target item
  := by
  rw [itemProjections, itemProjections, term, projections]

/-- The variables around a template depend on those of the template. -/
theorem Template.vars_around_congr {template template' : Template}
    (h : template'.vars = template.vars) (entries : List (String × Json)) (key : String) :
  (around entries key template').vars = (around entries key template).vars
  := by
  simp only [around, vars_object, List.flatMap_map]
  apply List.flatMap_congr
  intro entry _
  split
  · exact h
  · rfl

namespace Surrounds

/-- The value itself. -/
theorem self :
  Surrounds [] id
  := by
  refine ⟨fun _ _ h => h, fun _ _ _ h => h, fun _ _ _ h => h, fun _ _ _ _ h => h,
    fun _ _ h => h, [], [], ?_⟩
  intro item
  simp

theorem items (target : Variable) :
  Surrounds [.index 0] (itemsMatch target)
  := by
  refine ⟨fun _ _ h => h, fun _ _ _ h => h, fun _ _ => itemProjections_congr, ?_, ?_, [], [], ?_⟩
  · intro item item' change place h
    simp only [itemsMatch, h]
    rfl
  · intro item item' h
    simp only [itemsMatch, Template.vars, h]
  · intro item
    simp [itemsMatch]

/-- The members of a list, of which there are several or is one. -/
theorem members (target member : Variable) (several : Bool) :
  Surrounds (if several then [.index 0] else []) (ListObject.membersMatch target member several)
  := by
  refine ⟨fun _ _ _ => rfl, ?_, ?_, ?_, ?_, [], [], ?_⟩
  · intro item item' hterm hpattern
    simp only [ListObject.membersMatch, hterm, hpattern]
  · intro item item' hterm hprojections
    simp only [ListObject.membersMatch, itemProjections_congr hterm hprojections, hprojections]
  · intro item item' change place h
    cases several with
    | true =>
        simp only [ListObject.membersMatch, h]
        rfl
    | false => exact h
  · intro item item' h
    cases several with
    | true => simp only [ListObject.membersMatch, if_true, Template.vars, h]
    | false => exact h
  · intro item
    cases several with
    | _ => simp [ListObject.membersMatch]

theorem ofMembers (target : Variable) :
  Surrounds [] (GraphObject.ofMembers target)
  := by
  refine ⟨fun _ _ _ => rfl, ?_, fun _ _ _ h => h, fun _ _ _ _ h => h,
    fun _ _ h => h, [], [], ?_⟩
  · intro item item' _ hpattern
    simp only [GraphObject.ofMembers, hpattern]
  · intro item
    simp [GraphObject.ofMembers]

section Objects

variable {entries : List (String × Json)} {key : String} {value : Json}

theorem topLevelGraph (distinct : (entries.map Prod.fst).Nodup) (held : (key, value) ∈ entries) :
  Surrounds [.key key] (TopLevelGraph.matchOf entries key)
  := by
  obtain ⟨before, after, hwarnings⟩ :=
    exists_flatMap_eq distinct held fun entry => TopLevelGraph.otherWarnings entry.1
  refine ⟨fun _ _ h => h, fun _ _ _ h => h, fun _ _ _ h => h, ?_, ?_, before, after, ?_⟩
  · intro item item' change place h
    simp only [TopLevelGraph.matchOf, List.singleton_append, Template.modify_around, h]
  · intro item item' h
    apply Template.vars_around_congr h
  · intro item
    simp only [TopLevelGraph.matchOf]
    rw [hwarnings]
    · simp
    · intro entry _ hne
      exact if_neg hne

theorem listObject :
  Surrounds [.key key] (ListObject.matchOf entries key)
  := by
  refine ⟨fun _ _ h => h, fun _ _ _ h => h, fun _ _ _ h => h, ?_, ?_, [], [], ?_⟩
  · intro item item' change place h
    simp only [ListObject.matchOf, List.singleton_append, Template.modify_around, h]
  · intro item item' h
    apply Template.vars_around_congr h
  · intro item
    simp [ListObject.matchOf]

theorem graphObject (distinct : (entries.map Prod.fst).Nodup) (held : (key, value) ∈ entries)
    (context : Context) (target : Variable) :
  Surrounds [.key key] (GraphObject.matchOf context target entries key)
  := by
  obtain ⟨before, after, hwarnings⟩ := exists_flatMap_eq distinct held fun entry =>
    (GraphObject.shareOf context target entries key (nullMatch target) entry.1 entry.2).warnings
  refine ⟨fun _ _ _ => rfl, ?_, ?_, ?_, ?_, before, after, ?_⟩
  · intro item item' _ hpattern
    simp only [GraphObject.matchOf, hpattern]
  · intro item item' _ hprojections
    simp only [GraphObject.matchOf, hprojections]
  · intro item item' change place h
    change Template.object _ = (Template.object _).modify _ (.key key :: place)
    rw [Template.modify_object]
    congr 2
    funext entry
    simp only [GraphObject.shareOf]
    split
    · rw [h]
    · rfl
  · intro item item' h
    simp only [GraphObject.matchOf, Template.vars_object, List.flatMap_map]
    apply List.flatMap_congr
    intro entry _
    simp only [GraphObject.shareOf]
    split
    · exact h
    · rfl
  · intro item
    simp only [GraphObject.matchOf]
    rw [hwarnings]
    · simp [GraphObject.shareOf]
    · intro entry _ hne
      simp only [GraphObject.shareOf, if_neg hne]

end Objects

end Surrounds

/-- What leads to a value surrounds it. -/
theorem Leads.surrounds {setup : Setup} {outer inner : Visit} {make : Match → Match}
    (step : Leads setup outer inner make) (distinct : outer.value.hasDistinctKeys = true) :
  Surrounds (setup.stepsOf outer) make
  := by
  cases step with
  | document | documentGraph | documents | nodeObjects | entryValue | graphNodes | graphNode =>
      exact .self
  | items => apply Surrounds.items
  | members => apply Surrounds.members _ _ true
  | onlyMember single =>
      simp only [Setup.stepsOf, single, if_false]
      apply Surrounds.members _ _ false
  | graphValue => apply Surrounds.ofMembers
  | topLevelGraph entered held chosen =>
      simp only [Setup.stepsOf, Production.keyword?, Setup.stepTo?_eq_some entered held]
      apply Surrounds.topLevelGraph (Json.hasDistinctKeys_object.mp distinct).1
        (Context.mem_of_entryFor? held)
  | listObject entered held =>
      simp only [Setup.stepsOf, Production.keyword?, Setup.stepTo?_eq_some entered held]
      apply Surrounds.listObject
  | graphObject entered held =>
      simp only [Setup.stepsOf, Production.keyword?, Setup.stepTo?_eq_some entered held]
      apply Surrounds.graphObject (Json.hasDistinctKeys_object.mp distinct).1
        (Context.mem_of_entryFor? held)

/-- A node object surrounds the values of its links. -/
theorem NodeObject.surrounds {context : Context} {target : Variable}
    {entries : List (String × Json)} {earlier later : List Branch} {row : Row} {link : Link}
    {inner : Context} {log : Log}
    (distinct : ((earlier.map (·.row.key)) ++ row.key :: later.map (·.row.key)).Nodup) :
  Surrounds [.key row.key] fun item =>
    matchOf context target entries (earlier ++ .linked row link inner item log :: later)
  := by
  let scope := scopeOf context target entries
  let named (branch : Branch) : String × Template := (branch.row.key, (branch.share scope).template)
  constructor
  · intro item item' _
    rfl
  · intro item item' hterm hpattern
    simp only [matchOf, assemble, List.map_append, List.map_cons, List.flatMap_append,
      List.flatMap_cons, Branch.share, Link.share, Link.fragment, hterm, hpattern]
  · intro item item' _ hprojections
    simp only [matchOf, assemble, List.map_append, List.map_cons, List.flatMap_append,
      List.flatMap_cons, Branch.share, Link.share, hprojections]
  · intro item item' change place h
    have hsplit (item : Match) :
        (matchOf context target entries
            (earlier ++ .linked row link inner item log :: later)).template
          = .object (earlier.map named ++ (row.key, item.template) :: later.map named) := by
      simp only [matchOf, assemble, List.map_map, List.map_append, List.map_cons]
      rfl
    rw [hsplit, hsplit, h, List.singleton_append, Template.modify, Template.modifyPart,
      Entries.modify_of_nodup]
    simpa [named, Function.comp_def] using distinct
  · intro item item' h
    simp only [matchOf, assemble, Template.vars_object, List.map_append, List.map_cons,
      List.flatMap_append, List.flatMap_cons, Branch.share, Link.share, h]
  · use earlier.flatMap fun branch => (branch.share scope).warnings,
      later.flatMap fun branch => (branch.share scope).warnings
    intro item
    simp only [matchOf, assemble, List.map_append, List.map_cons, List.flatMap_append,
      List.flatMap_cons, List.flatMap_map, List.append_assoc]
    rfl

end LinkedQuery
