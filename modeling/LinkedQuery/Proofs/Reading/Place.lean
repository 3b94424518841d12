import LinkedQuery.Proofs.Json.Place
import LinkedQuery.Proofs.Reading.Trim

/-!
# The places of visits

A visit goes on at its value itself, at the first item of an array, or at the entry for a keyword;
a node object goes on at its entries with links.  `Comes` follows a visit to another one and keeps
the path between their values.
-/

namespace LinkedQuery

open NodeObject (LinkedAt)

/-! ### The next value -/

/-- The keyword under which a production finds the value that it goes on with. -/
def Production.keyword? : Production → Option Keyword
  | .topLevelGraph => some .graph
  | .graphObject => some .graph
  | .listObject => some .list
  | _ => none

/-- The step to the entry for a keyword, in the context of the object. -/
def Setup.stepTo? (setup : Setup) (context : Context) (keyword : Keyword)
    (entries : List (String × Json)) : Option Step :=
  match setup.enter context (entries.lookup Keyword.context.text) with
  | .ok own => (own.entryFor? entries keyword).map fun entry => .key entry.1
  | .error _ => none

/-- The steps from the value of a visit to the value with which it goes on. -/
def Setup.stepsOf (setup : Setup) (visit : Visit) : List Step :=
  match visit.task with
  | .items _ => [.index 0]
  | .listMembers => if visit.value.kind = .array then [.index 0] else []
  | .production production =>
    match production.keyword?, visit.value with
    | some keyword, .object entries =>
      (setup.stepTo? visit.frame.context keyword entries).toList
    | _, _ => []
  | _ => []

/-- How the value of a visit and the one with which it goes on lie: the two are the same, or the
second is the first item of an array or the entry for a keyword. -/
inductive Inside (setup : Setup) : Visit → List Step → Visit → Prop where
  | same {task task' : Task} {value : Json} {frame frame' : Frame}
      (context : frame'.context = frame.context) :
      Inside setup ⟨task, value, frame⟩ [] ⟨task', value, frame'⟩
  | first {task task' : Task} {first : Json} {rest : List Json} {frame frame' : Frame}
      (context : frame'.context = frame.context) :
      Inside setup ⟨task, .array (first :: rest), frame⟩ [.index 0] ⟨task', first, frame'⟩
  | entry {task task' : Task} {entries : List (String × Json)} {frame frame' : Frame}
      {keyword : Keyword} {key : String} {value : Json}
      (entered : setup.enter frame.context (entries.lookup Keyword.context.text)
        = .ok frame'.context)
      (held : frame'.context.entryFor? entries keyword = some (key, value))
      (apart : keyword ≠ .context) :
      Inside setup ⟨task, .object entries, frame⟩ [.key key] ⟨task', value, frame'⟩

section Steps

variable {setup : Setup}

/-- The values that a visit leads to have distinct keys. -/
theorem Leads.hasDistinctKeys {outer inner : Visit} {make : Match → Match}
    (step : Leads setup outer inner make) (h : outer.value.hasDistinctKeys = true) :
  inner.value.hasDistinctKeys = true
  := by
  cases step with
  | items | members => apply Json.hasDistinctKeys_array.mp h _ List.mem_cons_self
  | topLevelGraph entered held | listObject entered held | graphObject entered held =>
      apply (Json.hasDistinctKeys_object.mp h).2 _ (Context.mem_of_entryFor? held)
  | _ => apply h

/-- The values of the rows of a node object have distinct keys. -/
theorem NodeObject.Reads.hasDistinctKeys {entries : List (String × Json)} {frame : Frame}
    {context : Context} {branches : List NodeObject.Branch}
    (reads : NodeObject.Reads setup entries frame context branches)
    (h : (Json.object entries).hasDistinctKeys = true) {branch : NodeObject.Branch}
    (hbranch : branch ∈ branches) :
  branch.row.value.hasDistinctKeys = true
  := by
  apply (Json.hasDistinctKeys_object.mp h).2 (branch.row.key, branch.row.value)
  apply NodeObject.mem_entries_of_mem_rows
  rw [← reads.rows_eq]
  apply List.mem_map_of_mem hbranch

theorem Setup.stepTo?_eq_some {context own : Context} {keyword : Keyword}
    {entries : List (String × Json)} {key : String} {value : Json}
    (entered : setup.enter context (entries.lookup Keyword.context.text) = .ok own)
    (held : own.entryFor? entries keyword = some (key, value)) :
  setup.stepTo? context keyword entries = some (.key key)
  := by
  rw [stepTo?, entered]
  simp [held]

theorem Leads.inside {outer inner : Visit} {make : Match → Match}
    (step : Leads setup outer inner make) :
  Inside setup outer (setup.stepsOf outer) inner
  := by
  cases step with
  | document | documentGraph | documents | nodeObjects | entryValue | graphNodes | graphNode
  | graphValue => exact .same rfl
  | items | members => exact .first rfl
  | onlyMember single =>
      simp only [Setup.stepsOf, single, if_false]
      exact .same rfl
  | topLevelGraph entered held | listObject entered held | graphObject entered held =>
      simp only [Setup.stepsOf, Production.keyword?, Setup.stepTo?_eq_some entered held]
      apply Inside.entry entered held (by decide)

/-- The key of an entry for another keyword is not the one for local contexts. -/
theorem Context.entryFor?_key_ne {context : Context} {entries : List (String × Json)}
    {keyword : Keyword} {entry : String × Json}
    (held : context.entryFor? entries keyword = some entry) (apart : keyword ≠ .context) :
  entry.1 ≠ Keyword.context.text
  := by
  intro heq
  have hmeaning := List.find?_some held
  rw [heq, context.meaning_text] at hmeaning
  simp [apart.symm] at hmeaning

/-- A visit that takes no step goes on with its own value in its own context. -/
theorem Inside.of_nil {outer inner : Visit} (inside : Inside setup outer [] inner) :
  inner.value = outer.value ∧ inner.frame.context = outer.frame.context
  := by
  cases inside with
  | same context => exact ⟨rfl, context⟩

/-- The steps lead to the value with which a visit goes on. -/
theorem Inside.at? {outer inner : Visit} {steps : List Step}
    (inside : Inside setup outer steps inner)
    (distinct : outer.value.hasDistinctKeys = true) :
  outer.value.at? steps = some inner.value
  := by
  cases inside with
  | same context => rfl
  | first context => rfl
  | entry entered held apart =>
      have hkeys := (Json.hasDistinctKeys_object.mp distinct).1
      simp [Json.at?, Json.part?, (Entries.lookup_eq_some_iff hkeys).mpr
        (Context.mem_of_entryFor? held)]

end Steps

/-! ### The way from a visit to another -/

/-- Whether a visit comes to another, whose value is at a path within its own. -/
inductive Comes (setup : Setup) : Visit → List Step → Visit → Prop where
  | here {visit : Visit} : Comes setup visit [] visit
  | lead {outer inner last : Visit} {make : Match → Match} {path : List Step}
      (step : Leads setup outer inner make) (comes : Comes setup inner path last) :
      Comes setup outer (setup.stepsOf outer ++ path) last
  | entry {frame : Frame} {context inner : Context} {before after : List (String × Json)}
      {row : NodeObject.Row} {link : NodeObject.Link} {path : List Step} {last : Visit}
      (linked : LinkedAt setup frame context before row after link inner)
      (comes : Comes setup (link.visit inner row.value) path last) :
      Comes setup ⟨.production .nodeObject, .object (before ++ row.entry :: after), frame⟩
        (.key row.key :: path) last

/-- A visit comes to the one to which it leads. -/
theorem Leads.comes {setup : Setup} {outer inner : Visit} {make : Match → Match}
    (step : Leads setup outer inner make) :
  Comes setup outer (setup.stepsOf outer) inner
  := by
  rw [← List.append_nil (setup.stepsOf outer)]
  apply Comes.lead step .here

namespace Comes

variable {setup : Setup} {outer middle last : Visit} {front path : List Step}

theorem trans (comes : Comes setup outer front middle) (comes' : Comes setup middle path last) :
  Comes setup outer (front ++ path) last
  := by
  induction comes with
  | here => apply comes'
  | lead step _ ih =>
      rw [List.append_assoc]
      apply Comes.lead step (ih comes')
  | entry linked _ ih => apply Comes.entry linked (ih comes')

/-- A visit that comes to another without a step stays at its own value in its own context. -/
theorem of_nil (comes : Comes setup outer path last) (h : path = []) :
  last.value = outer.value ∧ last.frame.context = outer.frame.context
  := by
  induction comes with
  | here => exact ⟨rfl, rfl⟩
  | lead step _ ih =>
      obtain ⟨hsteps, hpath⟩ := List.append_eq_nil_iff.mp h
      have hinside := step.inside
      rw [hsteps] at hinside
      obtain ⟨hvalue, hcontext⟩ := hinside.of_nil
      obtain ⟨hlast, hlast'⟩ := ih hpath
      exact ⟨hlast.trans hvalue, hlast'.trans hcontext⟩
  | entry => cases h

/-- Where keys are distinct, they are so in every value to which a visit comes. -/
theorem hasDistinctKeys (comes : Comes setup outer path last)
    (distinct : outer.value.hasDistinctKeys = true) :
  last.value.hasDistinctKeys = true
  := by
  induction comes with
  | here => apply distinct
  | lead step _ ih => apply ih (step.hasDistinctKeys distinct)
  | entry linked _ ih =>
      apply ih
      apply (Json.hasDistinctKeys_object.mp distinct).2 (_, _)
      apply List.mem_append_right _ List.mem_cons_self

/-- The value to which a visit comes is at the path. -/
theorem at? (comes : Comes setup outer path last) (distinct : outer.value.hasDistinctKeys = true) :
  outer.value.at? path = some last.value
  := by
  induction comes with
  | here => rfl
  | lead step _ ih =>
      rw [Json.at?_append, step.inside.at? distinct, Option.bind_some,
        ih (step.hasDistinctKeys distinct)]
  | @entry frame context inner before after row link path last linked comes ih =>
      obtain ⟨hkeys, hvalues⟩ := Json.hasDistinctKeys_object.mp distinct
      have hmem : (row.key, row.value) ∈ before ++ row.entry :: after :=
        List.mem_append_right _ List.mem_cons_self
      simp only [Json.at?, Json.part?, (Entries.lookup_eq_some_iff hkeys).mpr hmem,
        Option.bind_some]
      apply ih (hvalues _ hmem)

/-- The variable of a visit is above that of every visit to which it comes. -/
theorem target_below (comes : Comes setup outer path last) :
  setup.naming.Below outer.frame.target last.frame.target
  := by
  induction comes with
  | here => apply Naming.Below.self
  | lead step _ ih => apply step.target_below.trans ih
  | entry linked _ ih =>
      obtain ⟨segment, heq⟩ := linked.exists_segment
      apply Naming.Below.trans _ ih
      simp only [NodeObject.Link.visit, heq]
      apply Naming.Below.self.child

/-- What is within the members of a graph is below the variable for members. -/
theorem target_below_members (comes : Comes setup outer path last)
    (members : outer.task = .graphMembers) (other : last.task ≠ .graphMembers) :
  setup.naming.Below (setup.naming.child outer.frame.target memberSegment) last.frame.target
  := by
  cases comes with
  | here => exact absurd members other
  | lead step comes =>
      cases step with
      | graphNodes | graphNode => apply comes.target_below
      | _ => cases members
  | entry linked comes => cases members

end Comes

/-- The branch of an entry with a link is one between the branches of the other entries. -/
theorem NodeObject.Reads.linkedAt {setup : Setup} {entries : List (String × Json)} {frame : Frame}
    {context : Context} {earlier later : List NodeObject.Branch} {row : NodeObject.Row}
    {link : NodeObject.Link} {inner : Context} {item : Match} {log : Log}
    (reads : NodeObject.Reads setup entries frame context
      (earlier ++ .linked row link inner item log :: later)) :
  entries = earlier.map (·.row.entry) ++ row.entry :: later.map (·.row.entry) ∧
    LinkedAt setup frame context (earlier.map (·.row.entry)) row (later.map (·.row.entry)) link
      inner
  := by
  have hentries := reads.entries_eq
  rw [List.map_append, List.map_cons] at hentries
  have hfits := reads.fits (.linked row link inner item log) (by simp)
  refine ⟨hentries, ?_, ?_, hfits.1, hfits.2⟩
  · have hentered := reads.entered
    rw [hentries] at hentered
    apply hentered
  · have hroles := reads.map_role
    rw [hentries] at hroles
    change _ = roles setup.naming context frame.target false {}
      ((earlier.map (·.row.entry) ++ row.entry :: later.map (·.row.entry)).map Prod.fst) at hroles
    rw [← hroles, List.map_append, List.map_cons, List.length_map,
      List.getElem?_append_right (by simp), List.length_map, Nat.sub_self,
      List.getElem?_cons_zero]
    rfl

end LinkedQuery
