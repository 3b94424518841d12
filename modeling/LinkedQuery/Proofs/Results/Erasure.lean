import LinkedQuery.Proofs.Results.Placeholders

/-!
# The shape of the template

The template of a query has the shape of its document.  Erasing the variables gives the document
back, except that arrays are cut down to their first items.
-/

namespace LinkedQuery

/-! ### Erasure -/

namespace Template

mutual

/-- The template with the placeholder at each of its variables, an array with its one item. -/
def erase : Template → Json
  | .object entries => .object (eraseEntries entries)
  | .array _ item => .array [erase item]
  | .name _ => .string placeholder
  | .native _ => .string placeholder
  | .value json => json

/-- Entries with their templates erased. -/
def eraseEntries : List (String × Template) → List (String × Json)
  | [] => []
  | (key, template) :: entries => (key, erase template) :: eraseEntries entries

end

theorem erase_object (entries : List (String × Template)) :
  (Template.object entries).erase = .object (entries.map fun entry => (entry.1, entry.2.erase))
  := by
  rw [erase]
  congr 1
  induction entries with
  | nil => rfl
  | cons entry entries ih => rw [eraseEntries, ih, List.map_cons]

end Template

/-! ### Cuts -/

/-- Whether a value is another with some arrays cut down to their first item, which may be cut in
turn.  Objects keep their keys in order, and what is no array or object stays. -/
inductive Json.Cut : Json → Json → Prop where
  | same (value : Json) : Cut value value
  | first {first shorter : Json} (rest : List Json) (cut : Cut first shorter) :
      Cut (.array (first :: rest)) (.array [shorter])
  | object {entries shorter : List (String × Json)}
      (keys : entries.map Prod.fst = shorter.map Prod.fst)
      (cut : ∀ pair ∈ entries.zip shorter, Cut pair.1.2 pair.2.2) :
      Cut (.object entries) (.object shorter)

/-- An object is cut by cutting each of its values. -/
theorem Json.Cut.map {α : Type} {members : List α} (key : α → String) {value shorter : α → Json}
    (cut : ∀ member ∈ members, Cut (value member) (shorter member)) :
  Cut (.object (members.map fun member => (key member, value member)))
    (.object (members.map fun member => (key member, shorter member)))
  := by
  apply Cut.object
  · simp [Function.comp_def]
  · rw [List.zip_map']
    intro pair hpair
    obtain ⟨member, hmember, rfl⟩ := List.mem_map.mp hpair
    apply cut member hmember

/-- An object is cut by cutting the values of its entries. -/
theorem Json.Cut.entries {entries : List (String × Json)} {shorter : String × Json → Json}
    (cut : ∀ entry ∈ entries, Cut entry.2 (shorter entry)) :
  Cut (.object entries) (.object (entries.map fun entry => (entry.1, shorter entry)))
  := by
  have h := Cut.map Prod.fst cut
  rwa [List.map_id'' (fun entry => rfl)] at h

/-- The object around a template has the erased template under its key. -/
theorem Template.erase_around (entries : List (String × Json)) (key : String)
    (template : Template) :
  (around entries key template).erase
    = .object (Entries.modify (fun _ => template.erase) key entries)
  := by
  rw [around, erase_object, List.map_map, Entries.modify]
  congr 1
  apply List.map_congr_left
  intro entry _
  simp only [Function.comp_apply]
  split
  · rfl
  · rfl

/-- Nothing changes when the value under a key is put there again. -/
theorem Entries.modify_held {entries : List (String × Json)}
    (distinct : (entries.map Prod.fst).Nodup) {key : String} {value : Json}
    (held : (key, value) ∈ entries) :
  modify (fun _ => value) key entries = entries
  := by
  apply (List.map_congr_left _).trans (List.map_id _)
  intro entry hentry
  split
  · rename_i hkey
    rw [eq_of_key_eq distinct hentry held hkey]
    rfl
  · rfl

/-- The object around a template is cut where the template is. -/
theorem cut_around {entries : List (String × Json)} (distinct : (entries.map Prod.fst).Nodup)
    {key : String} {value : Json} (held : (key, value) ∈ entries) {template : Template}
    (cut : Json.Cut value template.erase) :
  Json.Cut (.object entries) (Template.around entries key template).erase
  := by
  rw [Template.erase_around]
  apply Json.Cut.entries
  intro entry hentry
  split
  · rename_i hkey
    rw [eq_of_key_eq distinct hentry held hkey]
    apply cut
  · apply Json.Cut.same

variable {setup : Setup}

/-! ### Visits -/

/-- A visit that ends keeps its value. -/
theorem Ends.erase_eq {visit : Visit} {found : Match} (last : Ends setup visit found)
    (distinct : visit.value.hasDistinctKeys = true) :
  found.template.erase = visit.value
  := by
  cases last with
  | valueObject entered held =>
      have hkeys := (Json.hasDistinctKeys_object.mp distinct).1
      have hheld := Context.mem_of_entryFor? held
      simp only [ValueObject.matchOf]
      split
      · rename_i hplaceholder
        rw [Json.eq_placeholder hplaceholder] at hheld
        rw [Template.erase_around, Template.erase, Entries.modify_held hkeys hheld]
      · rw [Template.erase_around, Template.erase, Entries.modify_held hkeys hheld]
  | _ => rfl

theorem Ends.cut {visit : Visit} {found : Match} (last : Ends setup visit found)
    (distinct : visit.value.hasDistinctKeys = true) :
  Json.Cut visit.value found.template.erase
  := by
  rw [last.erase_eq distinct]
  apply Json.Cut.same

/-- An entry of a graph object other than the members keeps its value. -/
theorem GraphObject.erase_shareOf {context : Context} (target : Variable)
    {entries : List (String × Json)} (distinct : (entries.map Prod.fst).Nodup)
    {graphKey : String} (members : Match) {entry : String × Json} (hentry : entry ∈ entries)
    (apart : entry.1 ≠ graphKey) :
  (shareOf context target entries graphKey members entry.1 entry.2).template.erase = entry.2
  := by
  simp only [shareOf, apart, if_false]
  split
  · rename_i hany
    simp only [idShare]
    split
    · rename_i hidentity
      rw [identityOf, Option.map_eq_some_iff] at hidentity
      obtain ⟨id, hid, hidentity⟩ := hidentity
      rw [hid, Option.any_some, beq_iff_eq] at hany
      rw [← eq_of_key_eq distinct (Context.mem_of_entryFor? hid) hentry hany,
        eq_placeholder_of_identity hidentity]
      rfl
    · rfl
    · rfl
  · simp only [otherShare]
    split
    · rfl
    · rfl
    · rfl

/-- A graph object has the erased members under their key. -/
theorem GraphObject.erase_matchOf (context : Context) (target : Variable)
    {entries : List (String × Json)} (distinct : (entries.map Prod.fst).Nodup)
    (graphKey : String) (members : Match) :
  (matchOf context target entries graphKey members).template.erase
    = .object (Entries.modify (fun _ => members.template.erase) graphKey entries)
  := by
  simp only [matchOf, Template.erase_object, List.map_map, Entries.modify]
  congr 1
  apply List.map_congr_left
  intro entry hentry
  simp only [Function.comp_apply, Prod.mk.injEq, true_and]
  split
  · rename_i hkey
    simp only [shareOf, hkey, if_true]
  · rename_i hkey
    apply erase_shareOf target distinct members hentry hkey

theorem Leads.cut {outer inner : Visit} {make : Match → Match} {found : Match}
    (step : Leads setup outer inner make) (distinct : outer.value.hasDistinctKeys = true)
    (h : Json.Cut inner.value found.template.erase) :
  Json.Cut outer.value (make found).template.erase
  := by
  cases step with
  | items | members => apply Json.Cut.first _ h
  | topLevelGraph entered held | listObject entered held =>
      apply cut_around (Json.hasDistinctKeys_object.mp distinct).1
        (Context.mem_of_entryFor? held) h
  | graphObject entered held =>
      have hkeys := (Json.hasDistinctKeys_object.mp distinct).1
      rw [GraphObject.erase_matchOf _ _ hkeys, ← Template.erase_around]
      apply cut_around hkeys (Context.mem_of_entryFor? held) h
  | _ => apply h

/-! ### Node objects -/

namespace NodeObject

/-- A row without a link keeps its value. -/
theorem Reads.erase_plain {entries : List (String × Json)} {frame : Frame} {context : Context}
    {branches : List Branch} (reads : Reads setup entries frame context branches) {row : Row}
    (hbranch : Branch.plain row ∈ branches) :
  (row.plainShare (scopeOf context frame.target entries)).template.erase = row.value
  := by
  have hid := reads.entryFor?_id hbranch
  obtain ⟨role, key, value⟩ := row
  cases role with
  | id =>
      simp only [Row.plainShare, idShare]
      split
      · rename_i hidentity
        simp only [scopeOf, hid rfl, Branch.row, Option.map_some, Option.some.injEq] at hidentity
        rw [eq_placeholder_of_identity hidentity]
        rfl
      · rfl
      · rfl
  | type child =>
      simp only [Row.plainShare]
      have hclasses := typeShare_classes (scopeOf context frame.target entries) child key value
      generalize typeShare _ child key value = share at hclasses
      cases hclasses with
      | _ => rfl
  | property iri reverse child =>
      simp only [Row.plainShare]
      split
      · rfl
      · rfl
  | _ => rfl

/-- A branch is cut where its value is. -/
theorem Reads.cut {entries : List (String × Json)} {frame : Frame} {context : Context}
    {branches : List Branch} (reads : Reads setup entries frame context branches)
    {branch : Branch} (hbranch : branch ∈ branches)
    (h : ∀ row link inner item log, branch = .linked row link inner item log →
      Json.Cut row.value item.template.erase) :
  Json.Cut branch.row.value
    (branch.share (scopeOf context frame.target entries)).template.erase
  := by
  cases branch with
  | plain row =>
      rw [Branch.share, reads.erase_plain hbranch]
      apply Json.Cut.same
  | linked row link inner item log => apply h row link inner item log rfl

end NodeObject

/-- The template of a visit is its value cut down. -/
theorem Derives.cut {visit : Visit} {found : Match} {log : Log}
    (derived : Derives setup visit found log) (distinct : visit.value.hasDistinctKeys = true) :
  Json.Cut visit.value found.template.erase
  := by
  induction derived with
  | ends last => apply last.cut distinct
  | leads step read ih => apply step.cut distinct (ih (step.hasDistinctKeys distinct))
  | @node entries frame context branches reads read ih =>
      have hentries := reads.entries_eq
      simp only [NodeObject.matchOf, NodeObject.assemble, Template.erase_object, List.map_map,
        Function.comp_def]
      nth_rewrite 1 [hentries]
      apply Json.Cut.map
      intro branch hbranch
      apply reads.cut hbranch
      intro row link inner item log heq
      subst heq
      apply ih row link inner item log hbranch (reads.hasDistinctKeys distinct hbranch)

/-! ### Queries -/

/-- The template of the query for a document with distinct keys is the document, once the variables
are erased, with nothing changed but arrays that are cut down to their first item. -/
theorem document_cut_erase (setup : Setup) (document : Json) (query : Query)
    (distinct : document.hasDistinctKeys = true)
    (h : setup.grammar.query document = .ok query) :
  Json.Cut document query.template.erase
  := by
  obtain ⟨found, log, derived, rfl⟩ := query_eq_ok.mp h
  apply derived.cut distinct

/-- A record with a graph whose name is asked for, a list in the graph and genres within genres. -/
def record : Json :=
  .object
    [("@context", .object [("@vocab", .string "http://schema/"), ("called", .string "@id")]),
      ("part", .object
        [("called", .string "?"),
          ("@graph", .array
            [.object [("@type", .array [.string "?"]),
                ("track", .object [("@list", .array [.string "?", .string "?"])])],
              .object [("title", .string "?")]])]),
      ("genre", .array [.array [.string "?", .string "swing"], .string "jazz"])]

/-- Of the genres the first is left, and of those within it the first again. -/
theorem document_cut_erase_record :
  ∃ query, ({} : Setup).grammar.query record = .ok query ∧
    (query.template.erase.entry? "genre").map Json.text = some "[[\"?\"]]" ∧
    Json.Cut record query.template.erase
  := by
  have houtcome : (({} : Setup).grammar.query record).toOption.map
      (fun query => (query.template.erase.entry? "genre").map Json.text)
        = some (some "[[\"?\"]]") := by decide +kernel
  obtain ⟨query, h, htext⟩ := exists_of_outcome _ _ houtcome
  use query, h, htext
  apply document_cut_erase {} record query (by decide +kernel) h

end LinkedQuery
