import LinkedQuery.Proofs.Reading.Change
import LinkedQuery.Proofs.Results.Erasure

/-!
# Templates read again

The erased template of a query is a document itself.  It has the same query: `query_erase` says that
the template, the pattern, the selected variables and the warnings come out again.  So nothing of a
document counts but what its template keeps.
-/

namespace LinkedQuery

variable {setup : Setup}

/-! ### Entries -/

/-- What is looked up under a key stays when the values under other keys change. -/
theorem Entries.lookup_map_congr {α β : Type} {members : List α} (key : α → String)
    {value value' : α → β} {name : String}
    (same : ∀ member ∈ members, key member = name → value' member = value member) :
  (members.map fun member => (key member, value' member)).lookup name
    = (members.map fun member => (key member, value member)).lookup name
  := by
  induction members with
  | nil => rfl
  | cons member members ih =>
      obtain ⟨hfirst, hrest⟩ := List.forall_mem_cons.mp same
      simp only [List.map_cons, List.lookup_cons]
      cases hkey : name == key member with
      | true => rw [hfirst (eq_of_beq hkey).symm]
      | false => apply ih hrest

/-- The entry for a keyword stays when the values under other keys change. -/
theorem Context.entryFor?_map_congr {α β : Type} {context : Context} {members : List α}
    (key : α → String) {value value' : α → β} {keyword : Keyword}
    (same : ∀ member ∈ members, context.meaning (key member) = .keyword keyword →
      value' member = value member) :
  context.entryFor? (members.map fun member => (key member, value' member)) keyword
    = context.entryFor? (members.map fun member => (key member, value member)) keyword
  := by
  induction members with
  | nil => rfl
  | cons member members ih =>
      obtain ⟨hfirst, hrest⟩ := List.forall_mem_cons.mp same
      simp only [entryFor?, List.map_cons, List.find?_cons] at ih ⊢
      cases hkey : context.meaning (key member) == .keyword keyword with
      | true => rw [hfirst (eq_of_beq hkey)]
      | false => apply ih hrest

/-! ### Cuts -/

namespace Json.Cut

theorem kind_eq {value shorter : Json} (cut : Cut value shorter) :
  shorter.kind = value.kind
  := by
  cases cut with
  | _ => rfl

/-- A cut object has the same keys. -/
theorem exists_entries {entries : List (String × Json)} {shorter : Json}
    (cut : Cut (.object entries) shorter) :
  ∃ entries', shorter = .object entries' ∧ entries'.map Prod.fst = entries.map Prod.fst
  := by
  cases cut with
  | same => use entries
  | object keys => exact ⟨_, rfl, keys.symm⟩

/-- A cut array holds nodes if the array does. -/
theorem exists_items {items : List Json} {shorter : Json} (cut : Cut (.array items) shorter) :
  ∃ items', shorter = .array items' ∧
    (items.all Json.isObject = true → items'.all Json.isObject = true)
  := by
  cases cut with
  | same => exact ⟨items, rfl, id⟩
  | @first first shorter rest cut =>
      refine ⟨[shorter], rfl, ?_⟩
      intro h
      simp only [List.all_cons, Bool.and_eq_true, Json.isObject_eq] at h ⊢
      rw [cut.kind_eq]
      exact ⟨h.1, rfl⟩

/-- A cut value has the same shape in every context. -/
theorem shape_eq {value shorter : Json} (cut : Cut value shorter) (context : Context) :
  context.shape shorter = context.shape value
  := by
  cases cut with
  | same | first => rfl
  | object keys => apply Context.objectShape_perm (.of_eq keys.symm)

end Json.Cut

/-! ### Local contexts -/

/-- What leads to a template that keeps its local context keeps its own. -/
theorem Leads.declared_erase {outer inner : Visit} {make : Match → Match} {found : Match}
    (step : Leads setup outer inner make) (distinct : outer.value.hasDistinctKeys = true)
    (h : found.template.erase.entry? Keyword.context.text
      = inner.value.entry? Keyword.context.text) :
  Json.entry? (make found).template.erase Keyword.context.text
    = outer.value.entry? Keyword.context.text
  := by
  cases step with
  | items | members => rfl
  | topLevelGraph entered held | listObject entered held =>
      change Json.entry? (Template.around _ _ _).erase _ = _
      rw [Template.erase_around]
      apply Entries.lookup_modify_of_ne (Context.entryFor?_key_ne held (by decide))
  | graphObject entered held =>
      rw [GraphObject.erase_matchOf _ _ (Json.hasDistinctKeys_object.mp distinct).1]
      apply Entries.lookup_modify_of_ne (Context.entryFor?_key_ne held (by decide))
  | _ => apply h

namespace NodeObject

variable {entries : List (String × Json)} {frame : Frame} {context : Context}
  {branches : List Branch}

/-- The value of a branch, with the template of its match erased. -/
def Branch.again : Branch → Branch
  | .plain row => .plain row
  | .linked row link inner item log =>
    .linked { row with value := item.template.erase } link inner item log

theorem Branch.key_again (branch : Branch) :
  branch.again.row.key = branch.row.key
  := by
  cases branch with
  | _ => rfl

theorem Branch.role_again (branch : Branch) :
  branch.again.row.role = branch.row.role
  := by
  cases branch with
  | _ => rfl

/-- The erased template of a node object has the values of its branches read again. -/
theorem Reads.erase_matchOf (reads : Reads setup entries frame context branches) :
  (matchOf context frame.target entries branches).template.erase
    = .object (branches.map (·.again.row.entry))
  := by
  simp only [matchOf, assemble, Template.erase_object, List.map_map]
  congr 1
  apply List.map_congr_left
  intro branch hbranch
  cases branch with
  | plain row => exact congrArg (Prod.mk row.key) (reads.erase_plain hbranch)
  | linked row link inner item log => rfl

/-- An entry for a keyword keeps its value. -/
theorem Reads.value_again (reads : Reads setup entries frame context branches) {branch : Branch}
    (hbranch : branch ∈ branches) {keyword : Keyword}
    (meaning : context.meaning branch.row.key = .keyword keyword) :
  branch.again.row.value = branch.row.value
  := by
  obtain ⟨row, rfl⟩ := reads.exists_plain hbranch meaning
  rfl

theorem map_entry_again (branches : List Branch) :
  branches.map (·.again.row.entry)
    = branches.map fun branch => (branch.row.key, branch.again.row.value)
  := by
  apply List.map_congr_left
  intro branch _
  rw [Row.entry, branch.key_again]

theorem Reads.lookup_again (reads : Reads setup entries frame context branches) :
  (branches.map (·.again.row.entry)).lookup Keyword.context.text
    = entries.lookup Keyword.context.text
  := by
  rw [map_entry_again, reads.entries_eq]
  apply Entries.lookup_map_congr
  intro branch hbranch hkey
  have meaning : context.meaning branch.row.key = .keyword .context := by
    rw [hkey, Context.meaning_text]
  apply reads.value_again hbranch meaning

theorem Reads.scopeOf_again (reads : Reads setup entries frame context branches)
    (target : Variable) :
  scopeOf context target (branches.map (·.again.row.entry)) = scopeOf context target entries
  := by
  have hid : context.entryFor? (branches.map (·.again.row.entry)) .id
      = context.entryFor? entries .id := by
    rw [map_entry_again, reads.entries_eq]
    apply Context.entryFor?_map_congr
    intro branch hbranch hmeaning
    apply reads.value_again hbranch hmeaning
  rw [scopeOf, scopeOf, hid]

/-- A node object whose values are read again has the same branches. -/
theorem Reads.again (reads : Reads setup entries frame context branches) :
  Reads setup ((branches.map Branch.again).map (·.row.entry)) frame context
    (branches.map Branch.again)
  := by
  apply Reads.of_roles
  · rw [List.map_map]
    exact (congrArg (setup.enter frame.context) reads.lookup_again).trans reads.entered
  · simp only [List.map_map, Function.comp_def, Branch.role_again, Branch.key_again]
    rw [reads.map_role, reads.map_key]
  · rw [List.forall_mem_map]
    intro branch hbranch
    have hfits := reads.fits branch hbranch
    cases branch with
    | _ => exact hfits

end NodeObject

/-- The template of a visit keeps the local context of its value. -/
theorem Derives.declared_erase {visit : Visit} {found : Match} {log : Log}
    (derived : Derives setup visit found log) (distinct : visit.value.hasDistinctKeys = true) :
  found.template.erase.entry? Keyword.context.text = visit.value.entry? Keyword.context.text
  := by
  induction derived with
  | ends last => rw [last.erase_eq distinct]
  | leads step read ih => apply step.declared_erase distinct (ih (step.hasDistinctKeys distinct))
  | node reads read ih =>
      rw [reads.erase_matchOf]
      apply reads.lookup_again

/-! ### Visits again -/

/-- The visit to the erased template of a match. -/
def Visit.again (visit : Visit) (found : Match) : Visit :=
  { visit with value := found.template.erase }

/-- Whether a value keeps the keys and the local context of an object. -/
def KeepsEntries (entries : List (String × Json)) (value : Json) : Prop :=
  ∃ entries', value = .object entries' ∧ entries'.map Prod.fst = entries.map Prod.fst ∧
    entries'.lookup Keyword.context.text = entries.lookup Keyword.context.text

/-- A visit that leads to one with the same match again has the same match again. -/
theorem Leads.run_again {outer inner : Visit} {make : Match → Match} {found : Match}
    (step : Leads setup outer inner make) (distinct : outer.value.hasDistinctKeys = true)
    (cut : Json.Cut inner.value found.template.erase)
    (declared : found.template.erase.entry? Keyword.context.text
      = inner.value.entry? Keyword.context.text)
    (read : setup.run (inner.again found) = .ok found) :
  setup.run (outer.again (make found)) = .ok (make found)
  := by
  have hentries {entries : List (String × Json)} (heq : inner.value = .object entries) :
      KeepsEntries entries found.template.erase := by
    rw [heq] at cut declared
    obtain ⟨entries', hobject, hkeys⟩ := cut.exists_entries
    rw [hobject] at declared
    exact ⟨entries', hobject, hkeys, declared⟩
  cases step with
  | document entered held | documentGraph entered held =>
      obtain ⟨entries', heq, hkeys, hlookup⟩ := hentries rfl
      simp only [Visit.again, id, heq] at read ⊢
      rw [run_document_object, hlookup, entered, ok_bind, Context.isSome_entryFor?, hkeys,
        ← Context.isSome_entryFor?, held]
      apply read
  | documents =>
      obtain ⟨items', heq, -⟩ := cut.exists_items
      simp only [Visit.again, id, heq] at read ⊢
      apply read
  | nodeObjects objects =>
      obtain ⟨items', heq, hall⟩ := cut.exists_items
      simp only [Visit.again, id, heq] at read ⊢
      have hobjects : (items'.find? fun item => !item.isObject) = none := by
        simp only [List.find?_eq_none, Bool.not_eq_true', Bool.not_eq_false,
          ← List.all_eq_true] at objects ⊢
        apply hall objects
      rw [run_nodeObjects, hobjects]
      apply read
  | items => exact Leads.items.run_eq_ok.mpr ⟨found, read, rfl⟩
  | members => exact Leads.members.run_eq_ok.mpr ⟨found, read, rfl⟩
  | onlyMember single =>
      apply (Leads.onlyMember _).run_eq_ok.mpr ⟨found, read, rfl⟩
      rw [cut.kind_eq]
      apply single
  | topLevelGraph entered held chosen =>
      have apart := Context.entryFor?_key_ne held (by decide)
      have entered' := Setup.enter_modify apart (fun _ => found.template.erase) entered
      have held' := Context.entryFor?_modify held fun _ => found.template.erase
      rw [← TopLevelGraph.production?_congr cut.kind_eq] at chosen
      have step' := Leads.topLevelGraph entered' held' chosen
      rw [TopLevelGraph.matchOf_modify] at step'
      simp only [Visit.again, TopLevelGraph.matchOf, Template.erase_around]
      apply step'.run_eq_ok.mpr ⟨found, read, rfl⟩
  | entryValue entered chosen =>
      simp only [Visit.again, id] at declared read ⊢
      rw [run_entryValue, declared, entered, ok_bind, cut.shape_eq, chosen]
      apply read
  | listObject entered held =>
      have apart := Context.entryFor?_key_ne held (by decide)
      have entered' := Setup.enter_modify apart (fun _ => found.template.erase) entered
      have held' := Context.entryFor?_modify held fun _ => found.template.erase
      have step' := Leads.listObject entered' held'
      rw [ListObject.matchOf_modify] at step'
      simp only [Visit.again, ListObject.matchOf, Template.erase_around]
      apply step'.run_eq_ok.mpr ⟨found, read, rfl⟩
  | graphObject entered held =>
      have apart := Context.entryFor?_key_ne held (by decide)
      have entered' := Setup.enter_modify apart (fun _ => found.template.erase) entered
      have held' := Context.entryFor?_modify held fun _ => found.template.erase
      have step' := Leads.graphObject entered' held'
      rw [GraphObject.matchOf_modify _ held] at step'
      rw [Visit.again, GraphObject.erase_matchOf _ _ (Json.hasDistinctKeys_object.mp distinct).1]
      apply step'.run_eq_ok.mpr ⟨found, read, rfl⟩
  | graphNodes objects =>
      obtain ⟨items', heq, hall⟩ := cut.exists_items
      simp only [Visit.again, id, heq] at read ⊢
      rw [run_graphMembers_array, hall objects]
      apply read
  | graphNode =>
      obtain ⟨entries', heq, -⟩ := hentries rfl
      simp only [Visit.again, id, heq] at read ⊢
      apply read
  | graphValue => exact Leads.graphValue.run_eq_ok.mpr ⟨found, read, rfl⟩

namespace NodeObject

variable {entries : List (String × Json)} {frame : Frame} {context : Context}
  {branches : List Branch}

/-- A value of the same shape is visited for the same task. -/
theorem Link.visit_again (link : Link) (inner : Context) {value : Json} {item : Match}
    (cut : Json.Cut value item.template.erase) :
  link.visit inner item.template.erase = (link.visit inner value).again item
  := by
  simp only [Link.visit, Visit.again, cut.shape_eq]

/-- A branch whose value is read again has the same share. -/
theorem Branch.share_again (scope : Scope) {branch : Branch}
    (cut : ∀ row link inner item log, branch = .linked row link inner item log →
      Json.Cut row.value item.template.erase) :
  branch.again.share scope = branch.share scope
  := by
  cases branch with
  | plain row => rfl
  | linked row link inner item log =>
      simp only [again, share, (cut row link inner item log rfl).shape_eq]

/-- A node object has the same match again when the values of its branches have. -/
theorem Reads.run_again (reads : Reads setup entries frame context branches)
    (cut : ∀ row link inner item log, Branch.linked row link inner item log ∈ branches →
      Json.Cut row.value item.template.erase)
    (read : ∀ row link inner item log, Branch.linked row link inner item log ∈ branches →
      setup.run ((link.visit inner row.value).again item) = .ok item) :
  setup.run ((⟨.production .nodeObject, .object entries, frame⟩ : Visit).again
      (matchOf context frame.target entries branches))
    = .ok (matchOf context frame.target entries branches)
  := by
  have hrun := reads.again.run (by
    intro row link inner item log hbranch
    obtain ⟨branch, hmem, heq⟩ := List.mem_map.mp hbranch
    cases branch with
    | plain row => cases heq
    | linked row link inner item log =>
        cases heq
        rw [Link.visit_again link inner (cut row link inner item log hmem)]
        apply read row link inner item log hmem)
  have hshares (scope : Scope) : (branches.map Branch.again).map
        (fun branch => (branch.row.key, branch.share scope))
      = branches.map fun branch => (branch.row.key, branch.share scope) := by
    rw [List.map_map]
    apply List.map_congr_left
    intro branch hbranch
    simp only [Function.comp_apply, branch.key_again]
    rw [Branch.share_again scope]
    rintro row link inner item log rfl
    apply cut row link inner item log hbranch
  rw [List.map_map] at hrun
  have hscope := reads.scopeOf_again frame.target
  rw [Visit.again, reads.erase_matchOf]
  apply hrun.trans
  rw [matchOf, matchOf, hshares]
  exact congrArg (fun scope => Except.ok (assemble scope
    (branches.map fun branch => (branch.row.key, branch.share scope)))) hscope

end NodeObject

/-- The erased template of a visit has the same match again. -/
theorem Derives.run_again {visit : Visit} {found : Match} {log : Log}
    (derived : Derives setup visit found log) (distinct : visit.value.hasDistinctKeys = true) :
  setup.run (visit.again found) = .ok found
  := by
  induction derived with
  | ends last =>
      rw [Visit.again, last.erase_eq distinct]
      apply last.run
  | leads step read ih =>
      have hinner := step.hasDistinctKeys distinct
      apply step.run_again distinct (read.cut hinner) (read.declared_erase hinner) (ih hinner)
  | node reads read ih =>
      apply reads.run_again
      · intro row link inner item log hbranch
        apply (read row link inner item log hbranch).cut (reads.hasDistinctKeys distinct hbranch)
      · intro row link inner item log hbranch
        apply ih row link inner item log hbranch (reads.hasDistinctKeys distinct hbranch)

/-! ### Queries again -/

/-- The erased template of the query for a document with distinct keys has the same query. -/
theorem query_erase (setup : Setup) (document : Json) (query : Query)
    (distinct : document.hasDistinctKeys = true)
    (h : setup.grammar.query document = .ok query) :
  setup.grammar.query query.template.erase = .ok query
  := by
  obtain ⟨found, log, derived, rfl⟩ := query_eq_ok.mp h
  have hrun := derived.run_again distinct
  obtain ⟨log', derived'⟩ := exists_derives _ _ hrun
  apply query_eq_ok.mpr
  use found, log', derived'

/-- A playlist with two tracks, of which the first has an entry that is not supported. -/
def playlist : Json :=
  .object
    [("@context", .object
        [("@vocab", .string "http://schema/"), ("called", .string "@id"),
          ("group", .object [("@id", .string "http://schema/group"),
            ("@container", .string "@graph")])]),
      ("track", .array
        [.object [("called", .string "?"), ("@index", .string "a"), ("title", .string "?")],
          .object [("title", .string "?"), ("artist", .string "?")]]),
      ("group", .array [.object [("@type", .array [.string "?", .string "?"])], .object []]),
      ("tag", .object [("@list", .array [.array [.string "?", .string "live"], .string "jazz"])]),
      ("year", .array [.array [.string "?", .number (.integer 1959)]])]

/-- The second track and the second of the years are gone; the query and its warnings are not. -/
theorem query_erase_playlist :
  ∃ query, ({} : Setup).grammar.query playlist = .ok query ∧
    (query.template.erase.entry? "year").map Json.text = some "[[\"?\"]]" ∧
    query.warnings.map Warning.pathText = ["/track/0/@index", "/group/0/@type"] ∧
    ({} : Setup).grammar.query query.template.erase = .ok query
  := by
  have houtcome : (({} : Setup).grammar.query playlist).toOption.map
      (fun query => ((query.template.erase.entry? "year").map Json.text,
        query.warnings.map Warning.pathText))
        = some (some "[[\"?\"]]", ["/track/0/@index", "/group/0/@type"]) := by decide +kernel
  obtain ⟨query, h, heq⟩ := exists_of_outcome _ _ houtcome
  obtain ⟨htext, hwarnings⟩ := Prod.mk.inj heq
  use query, h, htext, hwarnings
  apply query_erase {} playlist query (by decide +kernel) h

end LinkedQuery
