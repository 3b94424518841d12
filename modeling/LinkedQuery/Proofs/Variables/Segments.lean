import LinkedQuery.Proofs.Variables.Roles

/-!
# Segments of their own

When no two keys of a node object claim the same segment and at most one names the node, the role
of each key can be told by the key alone, `roleOf`, wherever it stands.
-/

namespace LinkedQuery

/-- A segment that no sibling has is enrolled as it is. -/
theorem Siblings.enroll_of_notMem {siblings : Siblings} {text : String}
    (h : segmentOf text ∉ siblings.counts.names) :
  siblings.enroll text = (segmentOf text, ⟨siblings.counts.insert (segmentOf text) 1⟩)
  := by
  have hlookup : siblings.counts.lookup (segmentOf text) = none := by
    rw [Option.eq_none_iff_forall_ne_some]
    intro count heq
    exact h (Entries.mem_names_of_lookup heq)
  rw [enroll, enrollSegment]
  split
  · rfl
  · simp_all

namespace NodeObject

/-- The segment that a key of a node object claims for its values, before it is told apart from
those of its siblings. -/
def segment? (context : Context) (key : String) : Option String :=
  match context.meaning key with
  | .keyword .type => some (segmentOf "type")
  | .property iri => some (segmentOf (Iri.shortName iri))
  | .reverse iri => some (segmentOf (Iri.shortName iri))
  | _ => none

/-- The role of a key that has its segment for itself, and is the only one to name the node if it
does. -/
def roleOf (naming : Naming) (context : Context) (target : Variable) (key : String) : Role :=
  match context.meaning key with
  | .keyword .context => .context
  | .keyword .id => .id
  | .keyword .type => .type (naming.child target (segmentOf "type"))
  | .keyword keyword => .unsupported keyword
  | .unmapped => .unmapped
  | .property iri => .property iri false (naming.child target (segmentOf (Iri.shortName iri)))
  | .reverse iri => .property iri true (naming.child target (segmentOf (Iri.shortName iri)))

/-- How many keys name the node. -/
def countNames (context : Context) (keys : List String) : Nat :=
  keys.countP fun key => context.meaning key == .keyword .id

theorem countNames_cons (context : Context) (key : String) (keys : List String) :
  countNames context (key :: keys)
    = countNames context keys + if context.meaning key = .keyword .id then 1 else 0
  := by
  simp [countNames, List.countP_cons]

/-- Keys that have their segments for themselves, at most one of which names the node, have the
roles that they have alone. -/
theorem roles_eq_map (naming : Naming) (context : Context) (target : Variable) {named : Bool}
    {siblings : Siblings} {keys : List String}
    (names : named.toNat + countNames context keys ≤ 1)
    (segments : (keys.filterMap (segment? context)).Nodup)
    (fresh : ∀ segment ∈ keys.filterMap (segment? context), segment ∉ siblings.counts.names) :
  roles naming context target named siblings keys = keys.map (roleOf naming context target)
  := by
  induction keys generalizing named siblings with
  | nil => rfl
  | cons key keys ih =>
      -- A key that claims a segment takes it away from the siblings that come later.
      have hclaims (text : String) (hsegment : segment? context key = some (segmentOf text)) :
          siblings.enroll text = (segmentOf text, ⟨siblings.counts.insert (segmentOf text) 1⟩) ∧
            (keys.filterMap (segment? context)).Nodup ∧
            ∀ segment ∈ keys.filterMap (segment? context),
              segment ∉ (siblings.counts.insert (segmentOf text) 1).names := by
        rw [List.filterMap_cons_some hsegment] at segments fresh
        obtain ⟨hapart, hrest⟩ := List.nodup_cons.mp segments
        obtain ⟨hfirst, hothers⟩ := List.forall_mem_cons.mp fresh
        refine ⟨Siblings.enroll_of_notMem hfirst, hrest, ?_⟩
        intro segment hmem
        rw [Siblings.mem_names_insert, not_or]
        refine ⟨hothers segment hmem, ?_⟩
        rintro rfl
        exact hapart hmem
      have hunclaimed (hsegment : segment? context key = none) :
          (keys.filterMap (segment? context)).Nodup ∧
            ∀ segment ∈ keys.filterMap (segment? context),
              segment ∉ siblings.counts.names := by
        rw [List.filterMap_cons_none hsegment] at segments fresh
        exact ⟨segments, fresh⟩
      rw [countNames_cons] at names
      rw [List.map_cons, roles]
      cases hmeaning : context.meaning key with
      | keyword keyword =>
          rw [hmeaning] at names
          cases keyword with
          | id =>
              obtain ⟨hrest, hothers⟩ := hunclaimed (by simp [segment?, hmeaning])
              rw [if_pos rfl] at names
              obtain rfl : named = false := by
                cases named with
                | true =>
                    simp only [Bool.toNat_true] at names
                    omega
                | false => rfl
              have hnames : true.toNat + countNames context keys ≤ 1 := by
                simp only [Bool.toNat_true, Bool.toNat_false] at names ⊢
                omega
              simp [roleOf, hmeaning, ih hnames hrest hothers]
          | type =>
              obtain ⟨henroll, hrest, hothers⟩ := hclaims "type" (by simp [segment?, hmeaning])
              simp [roleOf, hmeaning, henroll, ih names hrest hothers]
          | _ =>
              obtain ⟨hrest, hothers⟩ := hunclaimed (by simp [segment?, hmeaning])
              simp [roleOf, hmeaning, ih names hrest hothers]
      | unmapped =>
          rw [hmeaning] at names
          obtain ⟨hrest, hothers⟩ := hunclaimed (by simp [segment?, hmeaning])
          simp [roleOf, hmeaning, ih names hrest hothers]
      | property iri | reverse iri =>
          rw [hmeaning] at names
          obtain ⟨henroll, hrest, hothers⟩ := hclaims (Iri.shortName iri)
            (by simp [segment?, hmeaning])
          simp [roleOf, hmeaning, henroll, ih names hrest hothers]

end NodeObject

end LinkedQuery
