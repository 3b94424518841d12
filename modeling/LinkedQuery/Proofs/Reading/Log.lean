import LinkedQuery.Proofs.Reading.Derivation

/-!
# What a document meets

The reading of a document meets the visits in the log of its derivation.  Each of them is derived
itself, and the template of its match is a part of the template of the query.
-/

namespace LinkedQuery

/-- The visit to a document. -/
def Setup.documentVisit (setup : Setup) (document : Json) : Visit :=
  ⟨.production .document, document, ⟨setup.naming.rootVariable, {}, none⟩⟩

/-- Whether the reading of a document comes to a visit, which has a match. -/
def Setup.Meets (setup : Setup) (document : Json) (visit : Visit) (found : Match) : Prop :=
  ∃ whole log, Derives setup (setup.documentVisit document) whole log ∧
    (visit, found) ∈ (setup.documentVisit document, whole) :: log

variable {setup : Setup}

/-- A query is made of the match of the visit to its document. -/
theorem query_eq_ok {document : Json} {query : Query} :
  setup.grammar.query document = .ok query
    ↔ ∃ found log, Derives setup (setup.documentVisit document) found log ∧ query = found.query
  := by
  rw [Grammar.query, bind_eq_ok]
  constructor
  · rintro ⟨found, hrun, hquery⟩
    obtain ⟨log, derived⟩ := exists_derives (setup.documentVisit document) found hrun
    use found, log, derived
    apply (Except.ok.inj hquery).symm
  · rintro ⟨found, log, derived, rfl⟩
    use found
    exact ⟨derived.run, rfl⟩

theorem query_eq (document : Json) :
  setup.grammar.query document
    = (do
        let found ← setup.run (setup.documentVisit document)
        .ok found.query)
  := rfl

/-- Leaving items out and keeping each at its first place are independent. -/
theorem eraseDups_filter {α : Type} [BEq α] [LawfulBEq α] (P : α → Bool) (items : List α) :
  (items.filter P).eraseDups = items.eraseDups.filter P
  := by
  induction hlength : items.length using Nat.strongRecOn generalizing items with
  | ind length ih =>
      cases items with
      | nil => rfl
      | cons first rest =>
          have hshorter : (rest.filter fun item => !item == first).length < length := by
            rw [← hlength, List.length_cons, Nat.lt_succ_iff]
            apply List.length_filter_le
          have hcomm : (rest.filter fun item => !item == first).filter P
              = (rest.filter P).filter fun item => !item == first := by
            simp only [List.filter_filter, Bool.and_comm]
          have hrest := ih _ hshorter _ rfl
          rw [hcomm] at hrest
          rw [List.eraseDups_cons]
          cases hfirst : P first with
          | true =>
              rw [List.filter_cons_of_pos hfirst, List.filter_cons_of_pos hfirst,
                List.eraseDups_cons, hrest]
          | false =>
              -- What is equal to the first item is left out with it.
              have hsame : (rest.filter P).filter (fun item => !item == first)
                  = rest.filter P := by
                rw [List.filter_eq_self]
                intro item hitem
                have hheld := (List.mem_filter.mp hitem).2
                rw [Bool.not_eq_true', beq_eq_false_iff_ne]
                rintro rfl
                rw [hheld] at hfirst
                cases hfirst
              rw [List.filter_cons_of_neg (by simp [hfirst]),
                List.filter_cons_of_neg (by simp [hfirst]), ← hrest, hsame]

/-- The pattern of a query before it is cut down to the selected variables. -/
def Query.body (query : Query) : Pattern :=
  match query.pattern with
  | .project inner _ => inner
  | pattern => pattern

/-- The log of a linked branch is within the log of its node. -/
theorem NodeObject.mem_flatMap_log {branches : List NodeObject.Branch} {entry : Visit × Match} :
  entry ∈ branches.flatMap NodeObject.Branch.log
    ↔ ∃ row link inner item log, NodeObject.Branch.linked row link inner item log ∈ branches ∧
      entry ∈ (link.visit inner row.value, item) :: log
  := by
  rw [List.mem_flatMap]
  constructor
  · rintro ⟨branch, hbranch, hentry⟩
    cases branch with
    | plain row => cases hentry
    | linked row link inner item log => use row, link, inner, item, log, hbranch, hentry
  · rintro ⟨row, link, inner, item, log, hbranch, hentry⟩
    use .linked row link inner item log, hbranch, hentry

/-- The visits of a log are derived, with logs within it. -/
theorem Derives.of_mem {visit : Visit} {found : Match} {log : Log}
    (derived : Derives setup visit found log) {entry : Visit × Match}
    (hentry : entry ∈ (visit, found) :: log) :
  ∃ log', Derives setup entry.1 entry.2 log' ∧ log' ⊆ log
  := by
  induction derived with
  | ends last =>
      rw [List.mem_singleton] at hentry
      subst hentry
      use [], .ends last, List.Subset.refl _
  | leads step read ih =>
      rcases List.mem_cons.mp hentry with rfl | hentry
      · exact ⟨_, .leads step read, List.Subset.refl _⟩
      · obtain ⟨log', derived', hsub⟩ := ih hentry
        use log', derived'
        apply List.subset_cons_of_subset _ hsub
  | node reads read ih =>
      rcases List.mem_cons.mp hentry with rfl | hentry
      · exact ⟨_, .node reads read, List.Subset.refl _⟩
      · obtain ⟨row, link, inner, item, log, hbranch, hentry⟩ :=
          NodeObject.mem_flatMap_log.mp hentry
        obtain ⟨log', derived', hsub⟩ := ih row link inner item log hbranch hentry
        use log', derived'
        intro other hother
        apply NodeObject.mem_flatMap_log.mpr
        use row, link, inner, item, log, hbranch
        apply List.mem_cons_of_mem _ (hsub hother)

/-- A visit that is met has its match. -/
theorem Setup.Meets.run {document : Json} {visit : Visit} {found : Match}
    (met : setup.Meets document visit found) :
  setup.run visit = .ok found
  := by
  obtain ⟨whole, log, derived, hmem⟩ := met
  obtain ⟨log', derived', -⟩ := derived.of_mem hmem
  apply derived'.run

/-- What holds exactly when no visit of the log breaks it, holds exactly when no visit that is met
breaks it. -/
theorem Derives.iff_of_meets {document : Json} {found : Match} {log : Log} {P : Prop}
    {Q : Visit → Prop} (derived : Derives setup (setup.documentVisit document) found log)
    (h : ∀ log', Derives setup (setup.documentVisit document) found log' →
      (P ↔ ∀ entry ∈ (setup.documentVisit document, found) :: log', ¬ Q entry.1)) :
  P ↔ ∀ visit item, setup.Meets document visit item → ¬ Q visit
  := by
  constructor
  · rintro h' visit item ⟨whole, log', derived', hmem⟩
    obtain rfl : whole = found := Except.ok.inj (derived'.run.symm.trans derived.run)
    apply (h log' derived').mp h' _ hmem
  · intro unbroken
    apply (h log derived).mpr
    rintro ⟨visit, item⟩ hmem
    apply unbroken visit item
    use found, log, derived

/-! ### Parts of templates -/

namespace Template

/-- Whether a template is a part of another, which may be itself. -/
inductive Part (part : Template) : Template → Prop where
  | self : Part part part
  | entry (key : String) {template : Template} {entries : List (String × Template)}
      (held : (key, template) ∈ entries) (within : Part part template) :
      Part part (.object entries)
  | item {v : Variable} {template : Template} (within : Part part template) :
      Part part (.array v template)

theorem Part.trans {first second third : Template} (h : Part first second)
    (h' : Part second third) :
  Part first third
  := by
  induction h' with
  | self => apply h
  | entry key held _ ih => apply Part.entry key held ih
  | item _ ih => apply Part.item ih

/-- A template is a part of the object around it. -/
theorem part_around {entries : List (String × Json)} {key : String} {value : Json}
    (held : (key, value) ∈ entries) (template : Template) :
  Part template (around entries key template)
  := by
  apply Part.entry key _ .self
  apply List.mem_map.mpr
  use (key, value), held
  simp

end Template

/-- The template of the match to which a visit leads is a part of its own. -/
theorem Leads.part {outer inner : Visit} {make : Match → Match}
    (step : Leads setup outer inner make) (found : Match) :
  Template.Part found.template (make found).template
  := by
  cases step with
  | items | members => apply Template.Part.item .self
  | topLevelGraph entered held | listObject entered held =>
      apply Template.part_around (Context.mem_of_entryFor? held)
  | @graphObject entries frame context key graph entered held =>
      apply Template.Part.entry key _ .self
      apply List.mem_map.mpr
      use (key, graph), Context.mem_of_entryFor? held
      simp [GraphObject.shareOf]
  | _ => apply Template.Part.self

/-- The template of the value of a branch is a part of that of the node. -/
theorem NodeObject.part_matchOf {context : Context} {target : Variable}
    {entries : List (String × Json)} {branches : List NodeObject.Branch} {row : NodeObject.Row}
    {link : NodeObject.Link} {inner : Context} {item : Match} {log : Log}
    (h : NodeObject.Branch.linked row link inner item log ∈ branches) :
  Template.Part item.template (NodeObject.matchOf context target entries branches).template
  := by
  apply Template.Part.entry row.key _ .self
  simp only [List.map_map, List.mem_map]
  use .linked row link inner item log, h
  rfl

/-- The templates of all visits are parts of that of the first. -/
theorem Derives.part {visit : Visit} {found : Match} {log : Log}
    (derived : Derives setup visit found log) {entry : Visit × Match}
    (hentry : entry ∈ (visit, found) :: log) :
  Template.Part entry.2.template found.template
  := by
  induction derived with
  | ends last =>
      rw [List.mem_singleton] at hentry
      subst hentry
      apply Template.Part.self
  | leads step read ih =>
      rcases List.mem_cons.mp hentry with rfl | hentry
      · apply Template.Part.self
      · apply (ih hentry).trans (step.part _)
  | node reads read ih =>
      rcases List.mem_cons.mp hentry with rfl | hentry
      · apply Template.Part.self
      · obtain ⟨row, link, inner, item, log, hbranch, hentry⟩ :=
          NodeObject.mem_flatMap_log.mp hentry
        apply (ih row link inner item log hbranch hentry).trans
        apply NodeObject.part_matchOf hbranch

end LinkedQuery
