import LinkedQuery.Proofs.Reading.Change
import LinkedQuery.Proofs.Variables.Segments
import Mathlib.Data.List.Perm.Basic

/-!
# Entries in another order

A node object whose keys have their segments for themselves, and of which at most one names the
node, has the same branches when its entries are put in another order.
-/

namespace LinkedQuery

/-! ### Entries -/

section Entries

variable {α : Type} {entries entries' : List (String × α)}

/-- Under distinct keys the order does not matter for what is looked up. -/
theorem Entries.lookup_perm (distinct : (entries.map Prod.fst).Nodup) (h : entries'.Perm entries)
    (name : String) :
  entries'.lookup name = entries.lookup name
  := by
  have distinct' : (entries'.map Prod.fst).Nodup := (h.map _).nodup_iff.mpr distinct
  apply Option.ext
  intro value
  rw [lookup_eq_some_iff distinct', lookup_eq_some_iff distinct, h.mem_iff]

/-- When at most one entry names an object, the order does not matter for which one does. -/
theorem Context.entryFor?_id_perm {context : Context}
    (names : NodeObject.countNames context (entries.map Prod.fst) ≤ 1) (h : entries'.Perm entries) :
  context.entryFor? entries' .id = context.entryFor? entries .id
  := by
  rw [NodeObject.countNames, List.countP_map, List.countP_eq_length_filter] at names
  rw [entryFor?, entryFor?, ← List.head?_filter, ← List.head?_filter]
  have hfilter := h.filter fun entry => context.meaning entry.1 == .keyword .id
  change (List.filter (fun entry : String × α => context.meaning entry.1 == .keyword .id)
    entries).length ≤ 1 at names
  generalize entries.filter _ = found at hfilter names
  rcases Nat.le_one_iff_eq_zero_or_eq_one.mp names with hnone | hone
  · obtain rfl := List.eq_nil_of_length_eq_zero hnone
    rw [List.perm_nil.mp hfilter]
  · obtain ⟨entry, rfl⟩ := List.length_eq_one_iff.mp hone
    rw [List.perm_singleton.mp hfilter]

end Entries

/-- Objects with the same entries under distinct keys are alike. -/
theorem Alike.of_perm {setup : Setup} {context : Context} {entries entries' : List (String × Json)}
    (distinct : (entries.map Prod.fst).Nodup) (h : entries'.Perm entries) :
  Alike setup context (.object entries) (.object entries')
  := by
  apply Alike.of_keys (h.map _)
  apply Entries.lookup_perm distinct h

/-! ### Branches -/

namespace NodeObject

variable {setup : Setup} {entries entries' : List (String × Json)} {frame : Frame}
  {context : Context} {branches : List Branch}

/-- The entries of a node object can be put in another order, and its branches with them. -/
theorem Reads.perm (reads : Reads setup entries frame context branches)
    (distinct : (entries.map Prod.fst).Nodup)
    (names : countNames context (entries.map Prod.fst) ≤ 1)
    (segments : ((entries.map Prod.fst).filterMap (segment? context)).Nodup)
    (h : entries'.Perm entries) :
  ∃ branches', branches'.Perm branches ∧ Reads setup entries' frame context branches'
  := by
  have hforall : List.Forall₂ (fun entry (branch : Branch) => entry = branch.row.entry)
      entries branches := by
    rw [reads.entries_eq, List.forall₂_map_left_iff, List.forall₂_same]
    intros
    rfl
  obtain ⟨branches', hentries, hperm⟩ := List.perm_comp_forall₂ h hforall
  have hentries' : entries' = branches'.map (·.row.entry) := by
    rw [← List.forall₂_eq_eq_eq, List.forall₂_map_right_iff]
    apply hentries
  -- The role of a branch depends on its key alone.
  have hrole : ∀ branch ∈ branches,
      branch.row.role = roleOf setup.naming context frame.target branch.row.key := by
    have hroles := reads.map_role
    rw [roles_eq_map _ _ _ (by simpa using names) segments (by simp [Entries.names]),
      reads.map_key, List.map_map] at hroles
    apply List.map_inj_left.mp hroles
  use branches', hperm
  rw [hentries']
  apply Reads.of_roles
  · rw [← hentries', Entries.lookup_perm distinct h]
    apply reads.entered
  · have hkeys : (branches'.map (·.row.key)).Perm (entries.map Prod.fst) := by
      rw [reads.map_key]
      apply hperm.map
    rw [roles_eq_map, List.map_map]
    · apply List.map_congr_left
      intro branch hbranch
      apply hrole branch (hperm.mem_iff.mp hbranch)
    · rw [countNames, hkeys.countP_eq, Bool.toNat_false, Nat.zero_add]
      apply names
    · apply (hkeys.filterMap _).nodup_iff.mpr segments
    · simp [Entries.names]
  · intro branch hbranch
    apply reads.fits branch (hperm.mem_iff.mp hbranch)

/-- The entries of a node object have the same in common in another order. -/
theorem scopeOf_perm (names : countNames context (entries.map Prod.fst) ≤ 1)
    (h : entries'.Perm entries) (target : Variable) :
  scopeOf context target entries' = scopeOf context target entries
  := by
  rw [scopeOf, scopeOf, Context.entryFor?_id_perm names h]

end NodeObject

end LinkedQuery
