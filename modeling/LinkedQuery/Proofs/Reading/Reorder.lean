import LinkedQuery.Proofs.Reading.Order
import LinkedQuery.Proofs.Reading.Surround

/-!
# Keys in another order

A match is `Rearranged` when the object at a place in its template has its keys in another order,
and its variables and warnings come in another order, too.  What is made of a rearranged match is
rearranged, and a value with such an object within it can take the place of the value.
-/

namespace LinkedQuery

/-! ### Values -/

section Values

variable {value part new : Json} {path : List Step} {entries entries' : List (String × Json)}

/-- Whether a value has parts. -/
def Json.isCompound : Json → Bool
  | .array _ => true
  | .object _ => true
  | _ => false

theorem Json.isCompound_of_at? (held : value.at? path = some (.object entries)) :
  value.isCompound = true
  := by
  cases path with
  | nil =>
      obtain rfl := Option.some.inj held
      rfl
  | cons step path =>
      cases value with
      | array items | object entries => rfl
      | _ => cases held

/-- A value with parts is no placeholder, no text and no scalar. -/
theorem Json.of_isCompound (compound : value.isCompound = true) :
  value.isPlaceholder = false ∧ value.string? = none ∧ value.scalar? = none
  := by
  cases value with
  | array items | object entries => exact ⟨rfl, rfl, rfl⟩
  | _ => cases compound

theorem Entries.lookup_modify_self {α : Type} (change : α → α) (name : String)
    (entries : List (String × α)) :
  (modify change name entries).lookup name = (entries.lookup name).map change
  := by
  induction entries with
  | nil => rfl
  | cons entry entries ih =>
      obtain ⟨key, value⟩ := entry
      simp only [modify, List.map_cons, List.lookup_cons] at ih ⊢
      cases hkey : name == key with
      | true =>
          obtain rfl : name = key := eq_of_beq hkey
          simp
      | false => apply ih

/-- What is put at a path is at the path. -/
theorem Json.at?_put (held : value.at? path = some part) (new : Json) :
  (value.put path new).at? path = some new
  := by
  induction path generalizing value with
  | nil => rfl
  | cons step path ih =>
      obtain ⟨inner, hinner, hpart⟩ := Option.bind_eq_some_iff.mp held
      cases value with
      | array items =>
          cases step with
          | index position =>
              change items[position]? = some inner at hinner
              change ((items.modify position _)[position]?).bind _ = _
              rw [List.getElem?_modify_eq, hinner]
              apply ih hpart
          | key name => cases hinner
      | object entries =>
          cases step with
          | key name =>
              change entries.lookup name = some inner at hinner
              change ((Entries.modify _ name entries).lookup name).bind _ = _
              rw [Entries.lookup_modify_self, hinner]
              apply ih hpart
          | index position => cases hinner
      | _ => cases hinner

/-- An object within a value is replaced without a change to the kind of the value. -/
theorem Json.isObject_put (held : value.at? path = some (.object entries))
    (entries' : List (String × Json)) :
  (value.put path (.object entries')).isObject = value.isObject
  := by
  cases path with
  | nil =>
      obtain rfl := Option.some.inj held
      rfl
  | cons step path =>
      cases value with
      | array items | object entries =>
          cases step with
          | _ => rfl
      | _ => cases held

/-- An object with its keys in another order, within a value but not within a local context, leaves
a value that is alike. -/
theorem Alike.put {setup : Setup} {context : Context} (distinct : value.hasDistinctKeys = true)
    (held : value.at? path = some (.object entries))
    (outside : .key Keyword.context.text ∉ path) (reordered : entries'.Perm entries) :
  Alike setup context value (value.put path (.object entries'))
  := by
  cases path with
  | nil =>
      obtain rfl := Option.some.inj held
      apply Alike.of_perm (Json.hasDistinctKeys_object.mp distinct).1 reordered
  | cons step path =>
      obtain ⟨inner, hinner, hpart⟩ := Option.bind_eq_some_iff.mp held
      cases value with
      | object entries =>
          cases step with
          | key name =>
              apply Alike.modify
              rintro rfl
              exact outside List.mem_cons_self
          | index position => cases hinner
      | array items =>
          cases step with
          | key name => cases hinner
          | index position =>
              change items[position]? = some inner at hinner
              refine ⟨rfl, by rfl, ?_, rfl, fun _ _ => rfl⟩
              change (items.modify position _).all Json.isObject = items.all Json.isObject
              obtain ⟨hposition, rfl⟩ := List.getElem?_eq_some_iff.mp hinner
              have hobject := Json.isObject_put hpart entries'
              rw [List.modify_eq_take_cons_drop hposition]
              conv_rhs => rw [← List.take_append_drop position items,
                List.drop_eq_getElem_cons hposition]
              simp only [List.all_append, List.all_cons]
              rw [← hobject]
              rfl
      | _ => cases hinner

end Values

/-! ### Templates -/

namespace Template

/-- Whether a template is another in which the object at a path has its keys in another order.  The
path may go on within a known value, or to an item of an array for which the template has none. -/
inductive Reordered : List Step → Template → Template → Prop where
  | object {entries entries' : List (String × Template)} (reordered : entries'.Perm entries) :
      Reordered [] (.object entries) (.object entries')
  | value {path : List Step} {value : Json} {entries entries' : List (String × Json)}
      (held : value.at? path = some (.object entries)) (reordered : entries'.Perm entries) :
      Reordered path (.value value) (.value (value.put path (.object entries')))
  | entry {path : List Step} {key : String} {before after : List (String × Template)}
      {template template' : Template} (within : Reordered path template template') :
      Reordered (.key key :: path) (.object (before ++ (key, template) :: after))
        (.object (before ++ (key, template') :: after))
  | item {path : List Step} {v : Variable} {template template' : Template}
      (within : Reordered path template template') :
      Reordered (.index 0 :: path) (.array v template) (.array v template')
  | hidden {path : List Step} {v : Variable} {position : Nat} {template : Template} :
      Reordered (.index (position + 1) :: path) (.array v template) (.array v template)

/-- An object that is made item by item, where the template of one item is reordered. -/
theorem Reordered.of_items {α : Type} {path : List Step} {items : List α} {name : α → String}
    {template template' : α → Template} {item : α} (distinct : (items.map name).Nodup)
    (held : item ∈ items) (within : Reordered path (template item) (template' item))
    (others : ∀ other ∈ items, name other ≠ name item → template' other = template other) :
  Reordered (.key (name item) :: path)
    (.object (items.map fun other => (name other, template other)))
    (.object (items.map fun other => (name other, template' other)))
  := by
  obtain ⟨front, back, rfl⟩ := List.append_of_mem held
  rw [List.map_append, List.map_cons, List.nodup_append, List.nodup_cons] at distinct
  obtain ⟨-, ⟨hback, -⟩, hfront⟩ := distinct
  have hsame (part : List α) (hpart : ∀ other ∈ part, other ∈ front ++ item :: back)
      (hapart : ∀ other ∈ part, name other ≠ name item) :
      part.map (fun other => (name other, template' other))
        = part.map fun other => (name other, template other) :=
    List.map_congr_left fun other hother =>
      congrArg (Prod.mk (name other)) (others other (hpart other hother) (hapart other hother))
  rw [List.map_append, List.map_cons, List.map_append, List.map_cons, hsame front, hsame back]
  · apply Reordered.entry within
  · intro other hother
    simp [hother]
  · intro other hother heq
    exact hback (heq ▸ List.mem_map_of_mem hother)
  · intro other hother
    simp [hother]
  · intro other hother
    exact hfront _ (List.mem_map_of_mem hother) _ List.mem_cons_self

/-- An object around a template that is reordered. -/
theorem Reordered.around {path : List Step} {entries : List (String × Json)} {key : String}
    {value : Json} {template template' : Template} (distinct : (entries.map Prod.fst).Nodup)
    (held : (key, value) ∈ entries) (within : Reordered path template template') :
  Reordered (.key key :: path) (around entries key template) (around entries key template')
  := by
  apply Reordered.of_items distinct held
  · simpa using within
  · intro other _ hne
    rw [if_neg hne, if_neg hne]

end Template

/-! ### Matches -/

/-- Whether a match is another in which the object at a place has its keys in another order: the
variables and the warnings may come in another order, too. -/
structure Rearranged (place : List Step) (found found' : Match) : Prop where
  term_eq : found'.term = found.term
  pattern_eq : found'.pattern = found.pattern
  projections_perm : found'.projections.Perm found.projections
  template_reordered : found.template.Reordered place found'.template
  warnings_perm : found'.warnings.Perm found.warnings

section Matches

variable {setup : Setup} {place : List Step} {item item' : Match}

/-- What surrounds a match has the term and the pattern that it had, and its warnings in another
order. -/
theorem Surrounds.rearranged {steps : List Step} {make : Match → Match}
    (surrounds : Surrounds steps make) (rearranged : Rearranged place item item')
    (projections : (make item').projections.Perm (make item).projections)
    (template : (make item).template.Reordered (steps ++ place) (make item').template) :
  Rearranged (steps ++ place) (make item) (make item')
  := by
  obtain ⟨before, after, hwarnings⟩ := surrounds.warnings_eq
  refine ⟨surrounds.term_eq _ _ rearranged.term_eq,
    surrounds.pattern_eq _ _ rearranged.term_eq rearranged.pattern_eq, projections, template, ?_⟩
  rw [hwarnings, hwarnings]
  apply List.Perm.append_right
  apply List.Perm.append_left
  apply rearranged.warnings_perm.map

theorem Rearranged.itemProjections_perm (rearranged : Rearranged place item item')
    (target : Variable) :
  (itemProjections target item').Perm (itemProjections target item)
  := by
  rw [itemProjections, itemProjections, rearranged.term_eq]
  split
  · apply rearranged.projections_perm.cons
  · apply rearranged.projections_perm

/-- What leads to a match selects the variables of the match. -/
theorem Leads.projections_perm {outer inner : Visit} {make : Match → Match}
    (step : Leads setup outer inner make) (rearranged : Rearranged place item item') :
  (make item').projections.Perm (make item).projections
  := by
  cases step with
  | items | members => apply rearranged.itemProjections_perm
  | graphObject => apply rearranged.projections_perm.append_left
  | _ => apply rearranged.projections_perm

/-- What leads to a match has its template. -/
theorem Leads.template_reordered {outer inner : Visit} {make : Match → Match}
    (step : Leads setup outer inner make) (distinct : outer.value.hasDistinctKeys = true)
    (rearranged : Rearranged place item item') :
  (make item).template.Reordered (setup.stepsOf outer ++ place) (make item').template
  := by
  cases step with
  | document | documentGraph | documents | nodeObjects | entryValue | graphNodes | graphNode
  | graphValue => exact rearranged.template_reordered
  | items | members => exact .item rearranged.template_reordered
  | onlyMember single =>
      simp only [Setup.stepsOf, single, if_false]
      exact rearranged.template_reordered
  | topLevelGraph entered held chosen =>
      simp only [Setup.stepsOf, Production.keyword?, Setup.stepTo?_eq_some entered held]
      apply Template.Reordered.around (Json.hasDistinctKeys_object.mp distinct).1
        (Context.mem_of_entryFor? held) rearranged.template_reordered
  | listObject entered held =>
      simp only [Setup.stepsOf, Production.keyword?, Setup.stepTo?_eq_some entered held]
      apply Template.Reordered.around (Json.hasDistinctKeys_object.mp distinct).1
        (Context.mem_of_entryFor? held) rearranged.template_reordered
  | graphObject entered held =>
      simp only [Setup.stepsOf, Production.keyword?, Setup.stepTo?_eq_some entered held]
      apply Template.Reordered.of_items (Json.hasDistinctKeys_object.mp distinct).1
        (Context.mem_of_entryFor? held)
      · simpa [GraphObject.shareOf] using rearranged.template_reordered
      · intro other _ hne
        simp only [GraphObject.shareOf, if_neg hne]

/-- What leads to a rearranged match is rearranged. -/
theorem Rearranged.lead {outer inner : Visit} {make : Match → Match}
    (step : Leads setup outer inner make) (distinct : outer.value.hasDistinctKeys = true)
    (rearranged : Rearranged place item item') :
  Rearranged (setup.stepsOf outer ++ place) (make item) (make item')
  := by
  apply (step.surrounds distinct).rearranged rearranged
  · apply step.projections_perm rearranged
  · apply step.template_reordered distinct rearranged

/-- A node object is rearranged with the value of an entry. -/
theorem NodeObject.rearranged_matchOf {context : Context} {target : Variable}
    {entries : List (String × Json)} {earlier later : List Branch} {row : Row} {link : Link}
    {inner : Context} {log : Log}
    (distinct : ((earlier.map (·.row.key)) ++ row.key :: later.map (·.row.key)).Nodup)
    (rearranged : Rearranged place item item') :
  Rearranged (.key row.key :: place)
    (matchOf context target entries (earlier ++ .linked row link inner item log :: later))
    (matchOf context target entries (earlier ++ .linked row link inner item' log :: later))
  := by
  apply (NodeObject.surrounds distinct).rearranged rearranged
  · simp only [matchOf, assemble, List.map_append, List.map_cons, List.flatMap_append,
      List.flatMap_cons]
    apply List.Perm.append_left
    apply List.Perm.append_right
    apply rearranged.projections_perm
  · simp only [matchOf, assemble, List.map_append, List.map_cons]
    apply Template.Reordered.entry rearranged.template_reordered

end Matches

end LinkedQuery
