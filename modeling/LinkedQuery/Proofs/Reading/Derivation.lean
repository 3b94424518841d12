import LinkedQuery.Proofs.Reading.Step

/-!
# Derivations

`Derives` follows a visit through its steps to the end and keeps a log of all visits on the way.
The derivations are exactly the runs with a match, so what the steps preserve holds of every query:
induction over derivations is how the theory speaks of all documents at once.
-/

namespace LinkedQuery

/-- A node object with the branches for its entries. -/
structure NodeObject.Reads (setup : Setup) (entries : List (String × Json)) (frame : Frame)
    (context : Context) (branches : List NodeObject.Branch) : Prop where
  entered : setup.enter frame.context (entries.lookup Keyword.context.text) = .ok context
  rows_eq : branches.map NodeObject.Branch.row
    = NodeObject.rows setup.naming context frame.target entries
  fits : ∀ branch ∈ branches, branch.Fits setup context

/-- The match of a node object with some branches. -/
def NodeObject.matchOf (context : Context) (target : Variable) (entries : List (String × Json))
    (branches : List NodeObject.Branch) : Match :=
  let scope := scopeOf context target entries
  assemble scope (branches.map fun branch => (branch.row.key, branch.share scope))

/-- A visit with its match and the log of all visits that it leads to. -/
inductive Derives (setup : Setup) : Visit → Match → Log → Prop where
  | ends {visit : Visit} {found : Match} (last : Ends setup visit found) :
      Derives setup visit found []
  | leads {outer inner : Visit} {make : Match → Match} {found : Match} {log : Log}
      (step : Leads setup outer inner make) (read : Derives setup inner found log) :
      Derives setup outer (make found) ((inner, found) :: log)
  | node {entries : List (String × Json)} {frame : Frame} {context : Context}
      {branches : List NodeObject.Branch}
      (reads : NodeObject.Reads setup entries frame context branches)
      (read : ∀ row link inner item log,
        NodeObject.Branch.linked row link inner item log ∈ branches →
          Derives setup (link.visit inner row.value) item log) :
      Derives setup ⟨.production .nodeObject, .object entries, frame⟩
        (NodeObject.matchOf context frame.target entries branches)
        (branches.flatMap NodeObject.Branch.log)

/-! ### Derivations are runs -/

section Runs

variable {setup : Setup}

/-- The entries of a node object are those of its branches. -/
theorem NodeObject.Reads.entries_eq {entries : List (String × Json)} {frame : Frame}
    {context : Context} {branches : List NodeObject.Branch}
    (reads : NodeObject.Reads setup entries frame context branches) :
  entries = branches.map (·.row.entry)
  := by
  rw [← NodeObject.map_entry_rows setup.naming context frame.target entries, ← reads.rows_eq,
    List.map_map]
  rfl

/-- The row of a branch is an entry of the node object. -/
theorem NodeObject.Reads.mem_entries {entries : List (String × Json)} {frame : Frame}
    {context : Context} {branches : List NodeObject.Branch}
    (reads : NodeObject.Reads setup entries frame context branches) {branch : NodeObject.Branch}
    (hbranch : branch ∈ branches) :
  (branch.row.key, branch.row.value) ∈ entries
  := by
  rw [reads.entries_eq]
  apply List.mem_map_of_mem hbranch

/-- A node object has the match of its branches. -/
theorem NodeObject.Reads.run {entries : List (String × Json)} {frame : Frame} {context : Context}
    {branches : List NodeObject.Branch}
    (reads : NodeObject.Reads setup entries frame context branches)
    (read : ∀ row link inner item log, NodeObject.Branch.linked row link inner item log ∈ branches →
      setup.run (link.visit inner row.value) = .ok item) :
  setup.run ⟨.production .nodeObject, .object entries, frame⟩
    = .ok (NodeObject.matchOf context frame.target entries branches)
  := by
  have hshares := shares_of_branches setup (scopeOf context frame.target entries) reads.fits read
  rw [NodeObject.run_nodeObject, reads.entered, ok_bind, ← reads.rows_eq]
  simp only [List.map_map, Function.comp_def, hshares, ok_bind]
  rfl

/-- What is derived is what the visit leads to. -/
theorem Derives.run {visit : Visit} {found : Match} {log : Log}
    (derived : Derives setup visit found log) :
  setup.run visit = .ok found
  := by
  induction derived with
  | ends last => apply last.run
  | leads step _ ih => rw [step.run, ih, ok_bind]
  | node reads _ ih => apply reads.run ih

/-! ### Runs are derivations -/

/-- The value of a row is the value of an entry. -/
theorem NodeObject.mem_entries_of_mem_rows {naming : Naming} {context : Context}
    {target : Variable} {entries : List (String × Json)} {row : NodeObject.Row}
    (h : row ∈ NodeObject.rows naming context target entries) :
  (row.key, row.value) ∈ entries
  := by
  rw [← NodeObject.map_entry_rows naming context target entries]
  apply List.mem_map_of_mem h

/-- What a visit leads to is derived. -/
theorem exists_derives (visit : Visit) (found : Match) (h : setup.run visit = .ok found) :
  ∃ log, Derives setup visit found log
  := by
  rcases run_cases h with (last | ⟨inner, make, item, step, hitem, rfl⟩) | ⟨entries, htask, hvalue⟩
  · use [], .ends last
  · have := step.decreases
    obtain ⟨log, hlog⟩ := exists_derives inner item hitem
    use (inner, item) :: log, .leads step hlog
  · have hvisit : visit = ⟨.production .nodeObject, .object entries, visit.frame⟩ := by
      rw [← htask, ← hvalue]
    rw [hvisit] at h ⊢
    rw [NodeObject.run_nodeObject] at h
    obtain ⟨context, entered, h⟩ := bind_eq_ok.mp h
    obtain ⟨shares, hshares, h⟩ := bind_eq_ok.mp h
    rw [Except.ok.injEq] at h
    obtain ⟨branches, hrows, rfl, fits, read⟩ :=
      NodeObject.exists_branches setup (P := Derives setup) (by
        intro row hrow task frame item hitem
        have : sizeOf row.value < sizeOf visit.value := by
          rw [hvalue]
          apply sizeOf_entry_lt (NodeObject.mem_entries_of_mem_rows hrow)
        apply exists_derives _ item hitem) hshares
    subst h
    use branches.flatMap NodeObject.Branch.log
    apply Derives.node ⟨entered, hrows, fits⟩ read
termination_by (sizeOf visit.value, visit.task.rank)
decreasing_by
  · simp only [Prod.lex_def]
    omega
  · simp only [Prod.lex_def]
    omega

end Runs

end LinkedQuery
