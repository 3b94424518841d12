import LinkedQuery.Proofs.Reading.Holds
import LinkedQuery.Proofs.Reading.Log
import LinkedQuery.Proofs.Reading.Warnings

/-!
# What is heeded

A path is heeded when the template has a placeholder there, or when some warning is about what is
there or something around it.  Whether a path is heeded can be told from the match of the visit to
the value on the path, and a placeholder under an entry of a node object is heeded unless the entry
is a local context.
-/

namespace LinkedQuery

/-- Whether a step is one that is read: to the first item of an array, or to an entry other than the
local context. -/
def Step.Plain : Step → Prop
  | .key name => name ≠ Keyword.context.text
  | .index position => position = 0

instance : DecidablePred Step.Plain
  | .key name => inferInstanceAs (Decidable (name ≠ Keyword.context.text))
  | .index position => inferInstanceAs (Decidable (position = 0))

/-- Whether a template has a placeholder at a path, or some warning is about it. -/
def Heeds (template : Template) (warnings : List Warning) (path : List Step) : Prop :=
  (∃ v, template.Holds path v) ∨ Warned warnings path

/-- What is within an object is heeded when some warning is about the entry that it is in. -/
theorem Warned.heeds {template : Template} {warnings : List Warning} {step : Step}
    {path : List Step} (h : Warned warnings [step]) :
  Heeds template warnings (step :: path)
  := by
  obtain ⟨warning, hmem, hprefix⟩ := h
  exact .inr ⟨warning, hmem, hprefix.trans (List.prefix_append [step] path)⟩

section Places

variable {setup : Setup} {context : Context} {value : Json} {path : List Step}

/-! ### Placeholders within values -/

/-- A placeholder within an object is within an entry. -/
theorem Json.at?_object {entries : List (String × Json)} {text : String}
    (h : (Json.object entries).at? path = some (.string text)) :
  ∃ key value rest, path = .key key :: rest ∧ entries.lookup key = some value ∧
    value.at? rest = some (.string text)
  := by
  cases path with
  | nil => cases h
  | cons step rest =>
      cases step with
      | index position => cases h
      | key key =>
          obtain ⟨value, hvalue, hrest⟩ := Option.bind_eq_some_iff.mp h
          exact ⟨key, value, rest, rfl, hvalue, hrest⟩

/-- A placeholder within an array is within an item. -/
theorem Json.at?_array {items : List Json} {text : String}
    (h : (Json.array items).at? path = some (.string text)) :
  ∃ position item rest, path = .index position :: rest ∧ items[position]? = some item ∧
    item.at? rest = some (.string text)
  := by
  cases path with
  | nil => cases h
  | cons step rest =>
      cases step with
      | key key => cases h
      | index position =>
          obtain ⟨item, hitem, hrest⟩ := Option.bind_eq_some_iff.mp h
          exact ⟨position, item, rest, rfl, hitem, hrest⟩

/-- A scalar with a placeholder is the placeholder itself. -/
theorem Json.at?_scalar {scalar : Scalar} (held : value.scalar? = some scalar)
    (h : value.at? path = some (.string placeholder)) :
  path = [] ∧ value.isPlaceholder = true
  := by
  obtain ⟨hpath, heq⟩ := Json.at?_eq_some_of_scalar held h
  rw [← heq]
  exact ⟨hpath, by decide⟩

/-- What an object holds under the key of an entry for a keyword is the value of the entry. -/
theorem Context.eq_of_entryFor? {entries : List (String × Json)} {keyword : Keyword}
    {key : String} {part : Json} (distinct : (entries.map Prod.fst).Nodup)
    (held : context.entryFor? entries keyword = some (key, value))
    (hpart : entries.lookup key = some part) :
  value = part
  := by
  rw [(Entries.lookup_eq_some_iff distinct).mpr (mem_of_entryFor? held)] at hpart
  exact Option.some.inj hpart

/-- A placeholder within an object is within the entry for a keyword or within another entry. -/
theorem Context.within_entry {entries : List (String × Json)} {keyword : Keyword}
    {key text : String} (distinct : (entries.map Prod.fst).Nodup)
    (held : context.entryFor? entries keyword = some (key, value))
    (h : (Json.object entries).at? path = some (.string text)) :
  (∃ rest, path = .key key :: rest ∧ value.at? rest = some (.string text))
    ∨ ∃ other part rest, other ≠ key ∧ path = .key other :: rest ∧
      entries.lookup other = some part ∧ part.at? rest = some (.string text)
  := by
  obtain ⟨other, part, rest, rfl, hpart, hrest⟩ := Json.at?_object h
  rcases eq_or_ne other key with rfl | hother
  · obtain rfl := eq_of_entryFor? distinct held hpart
    exact .inl ⟨rest, rfl, hrest⟩
  · exact .inr ⟨other, part, rest, hother, rfl, hpart, hrest⟩

/-- A name with a placeholder is the placeholder itself, or it is not usable. -/
theorem Context.identity_of_at? (h : value.at? path = some (.string placeholder)) :
  (path = [] ∧ context.identity value = .placeholder)
    ∨ ∃ notice, context.identity value = .unusable notice
  := by
  cases value with
  | string text =>
      obtain ⟨hpath, hplaceholder⟩ := Json.at?_scalar rfl h
      left
      simp [hpath, Context.identity, hplaceholder]
  | _ =>
      right
      exact ⟨_, rfl⟩

namespace NodeObject

/-- What contains a placeholder names no class. -/
theorem classOf?_of_at? (h : value.at? path = some (.string placeholder)) :
  classOf? context value = none
  := by
  cases value with
  | string text =>
      obtain ⟨-, hplaceholder⟩ := Json.at?_scalar rfl h
      simp [classOf?, hplaceholder]
  | _ => rfl

/-- Whether the share of an entry heeds what is at a path within its value. -/
def Share.Heeds (share : Share) (key : String) (path : List Step) : Prop :=
  (∃ v, share.template.Holds path v) ∨ Warned share.warnings (.key key :: path)

/-- An entry with a warning heeds all that is within its value. -/
theorem Share.heeds_warn (key : String) (value : Json) (notice : Notice) (path : List Step) :
  (Share.warn key value notice).Heeds key path
  := by
  right
  rw [Share.warn, warned_atKey]

/-- A placeholder within the classes of a node is heeded. -/
theorem heeds_typeShare (scope : Scope) (child : Variable) (key : String)
    (held : value.at? path = some (.string placeholder)) (plain : ∀ step ∈ path, step.Plain) :
  (typeShare scope child key value).Heeds key path
  := by
  cases value with
  | string text =>
      obtain ⟨rfl, hplaceholder⟩ := Json.at?_scalar rfl held
      have htext : text = placeholder := by simpa [Json.isPlaceholder] using hplaceholder
      left
      simp [typeShare, htext]
  | array items =>
      obtain ⟨position, item, rest, rfl, hitem, hrest⟩ := Json.at?_array held
      obtain rfl : position = 0 := plain _ List.mem_cons_self
      cases items with
      | nil => cases hitem
      | cons first others =>
          obtain rfl : first = item := by simpa using hitem
          simp only [typeShare]
          split
          · rename_i hall
            simp only [Bool.and_eq_true, List.all_cons] at hall
            obtain rfl := Json.eq_placeholder hall.2.1
            obtain ⟨rfl, -⟩ := Json.at?_scalar rfl hrest
            left
            exact ⟨child, Template.holds_array.mpr ⟨[], rfl, Template.holds_name.mpr ⟨rfl, rfl⟩⟩⟩
          · rw [List.mapM_cons, classOf?_of_at? hrest]
            apply Share.heeds_warn
  | _ => apply Share.heeds_warn

/-- A placeholder within the name of a node is heeded. -/
theorem heeds_idShare {scope : Scope} (key : String)
    (identity : scope.identity = some (scope.context.identity value))
    (held : value.at? path = some (.string placeholder)) :
  (idShare scope key value).Heeds key path
  := by
  rw [idShare, identity]
  rcases scope.context.identity_of_at? held with ⟨rfl, hidentity⟩ | ⟨notice, hidentity⟩
  · rw [hidentity]
    exact .inl ⟨scope.target, Template.holds_name.mpr ⟨rfl, rfl⟩⟩
  · rw [hidentity]
    apply Share.heeds_warn

section Reads

variable {entries : List (String × Json)} {frame : Frame} {branches : List Branch}

/-- What is within the value of an entry of a node object is heeded by the share of the entry. -/
theorem Reads.heeds_iff (reads : Reads setup entries frame context branches)
    (distinct : (entries.map Prod.fst).Nodup) {branch : Branch} (hbranch : branch ∈ branches)
    (path : List Step) :
  let found := matchOf context frame.target entries branches
  LinkedQuery.Heeds found.template found.warnings (.key branch.row.key :: path)
    ↔ (branch.share (scopeOf context frame.target entries)).Heeds branch.row.key path
  := by
  have hkeys := distinct
  rw [reads.map_key] at hkeys
  simp only [LinkedQuery.Heeds, Share.Heeds, reads.warned_iff distinct hbranch,
    reads.holds_matchOf distinct]
  apply or_congr_left
  apply exists_congr
  intro v
  constructor
  · rintro ⟨other, hother, rest, heq, h⟩
    obtain ⟨hkey, rfl⟩ := List.cons.inj heq
    obtain rfl := List.inj_on_of_nodup_map hkeys hbranch hother (Step.key.inj hkey)
    exact h
  · intro h
    exact ⟨branch, hbranch, path, rfl, h⟩

/-- What is within the value of an entry with a link is heeded by the match of the value. -/
theorem Link.heeds_iff (link : Link) (subject : Term) (key : String) (shape : Shape)
    (item : Match) :
  (link.share subject key shape item).Heeds key path
    ↔ LinkedQuery.Heeds item.template item.warnings path
  := by
  simp [Share.Heeds, LinkedQuery.Heeds, Link.share]

/-- A placeholder within the value of an entry without a link is heeded, unless the entry is a local
context. -/
theorem Reads.heeds_plain (reads : Reads setup entries frame context branches) {row : Row}
    (hbranch : .plain row ∈ branches) (held : row.value.at? path = some (.string placeholder))
    (plain : ∀ step ∈ path, step.Plain) :
  (row.plainShare (scopeOf context frame.target entries)).Heeds row.key path
    ∨ context.meaning row.key = .keyword .context
  := by
  have hsuits := reads.suits hbranch
  have hid := reads.entryFor?_id hbranch
  obtain ⟨role, key, value⟩ := row
  simp only [Branch.row] at hsuits hid held
  generalize hmeaning : context.meaning key = meaning at hsuits
  cases hsuits with
  | context => exact .inr rfl
  | id =>
      left
      apply heeds_idShare key _ held
      simp only [scopeOf, hid rfl, Option.map_some]
  | type child => exact .inl (heeds_typeShare _ child key held plain)
  | property iri child | reverse iri child =>
      left
      simp only [Row.plainShare]
      split
      · apply Share.heeds_warn
      · apply Share.heeds_warn
  | _ => exact .inl (Share.heeds_warn _ _ _ _)

end Reads

end NodeObject

/-! ### Visits -/

/-- What a visit leads to heeds what is there. -/
theorem Leads.heeds_iff {outer inner : Visit} {make : Match → Match} {found : Match}
    (step : Leads setup outer inner make) (distinct : outer.value.hasDistinctKeys = true) :
  Heeds (make found).template (make found).warnings (setup.stepsOf outer ++ path)
    ↔ Heeds found.template found.warnings path
  := by
  rw [Heeds, Heeds, step.warned_iff distinct]
  apply or_congr_left
  apply exists_congr
  intro v
  rw [step.holds distinct]
  constructor
  · rintro (⟨rest, heq, h⟩ | ⟨entries, context, key, htask, hvalue, entered, hid, heq, -⟩)
    · rw [List.append_cancel_left heq]
      exact h
    · -- The key for the name of a graph object is not that for the graph.
      cases step with
      | graphObject entered' held =>
          cases hvalue
          rw [entered, Except.ok.injEq] at entered'
          subst entered'
          simp only [Setup.stepsOf, Production.keyword?, Setup.stepTo?_eq_some entered held] at heq
          have hkey : key = _ := Step.key.inj (List.cons.inj heq).1.symm
          exact absurd hkey (Context.key_ne hid held (by decide))
      | _ => cases htask
  · intro h
    exact .inl ⟨path, rfl, h⟩

/-- What a visit comes to heeds what is there. -/
theorem Comes.exists_heeds_iff {outer last : Visit} {front : List Step} {found : Match}
    (comes : Comes setup outer front last) (distinct : outer.value.hasDistinctKeys = true)
    (h : setup.run outer = .ok found) :
  ∃ item, setup.run last = .ok item ∧
    ∀ path, Heeds found.template found.warnings (front ++ path)
      ↔ Heeds item.template item.warnings path
  := by
  induction comes generalizing found with
  | here => exact ⟨found, h, fun _ => Iff.rfl⟩
  | lead step comes ih =>
      obtain ⟨middle, hmiddle, rfl⟩ := step.run_eq_ok.mp h
      obtain ⟨item, hitem, hheeds⟩ := ih (step.hasDistinctKeys distinct) hmiddle
      refine ⟨item, hitem, ?_⟩
      intro path
      rw [List.append_assoc, step.heeds_iff distinct, hheeds]
  | @entry frame context inner before after row link front last linked comes ih =>
      obtain ⟨hkeys, hvalues⟩ := Json.hasDistinctKeys_object.mp distinct
      have hvalue := hvalues (row.key, row.value) (List.mem_append_right _ List.mem_cons_self)
      obtain ⟨log, derived⟩ := exists_derives _ _ h
      obtain ⟨context', branches, reads, visited, rfl⟩ := NodeObject.exists_reads derived
      obtain ⟨rfl, earlier, middle, trace, later, rfl, rfl, rfl⟩ := linked.exists_branches reads
      have hbranch : NodeObject.Branch.linked row link inner middle trace
          ∈ earlier ++ .linked row link inner middle trace :: later := by simp
      obtain ⟨item, hitem, hheeds⟩ := ih hvalue (visited row link inner middle trace hbranch).run
      refine ⟨item, hitem, ?_⟩
      intro path
      apply (reads.heeds_iff hkeys hbranch _).trans
      apply (link.heeds_iff _ _ _ _).trans (hheeds path)

end Places

end LinkedQuery
