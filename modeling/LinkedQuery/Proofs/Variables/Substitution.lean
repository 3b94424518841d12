import LinkedQuery.Proofs.Variables.Occurrence

/-!
# Substitution

A variable is filled with a term wherever it occurs in a pattern.  Filling commutes with the ways in
which patterns are combined, and a pattern without the variable stays.
-/

namespace LinkedQuery

/-! ### Terms and triples -/

/-- The term with another in the place of a variable. -/
def Term.fill (term : Term) (v : Variable) (part : Term) : Term :=
  match term with
  | .var w => if w = v then part else .var w
  | .iri value => .iri value
  | .literal value => .literal value

/-- A term as a name; literals name nothing. -/
def Term.name? : Term → Option Name
  | .var v => some (.var v)
  | .iri value => some (.iri value)
  | .literal _ => none

/-- The name with a term in the place of a variable, if the term is a name. -/
def Name.fill (name : Name) (v : Variable) (part : Term) : Name :=
  match name with
  | .var w => if w = v then part.name?.getD (.var w) else .var w
  | .iri value => .iri value

/-- The triple with a term in the place of a variable. -/
def Triple.fill (v : Variable) (part : Term) (triple : Triple) : Triple where
  subject := triple.subject.fill v part
  predicate := triple.predicate.fill v part
  object := triple.object.fill v part

section Terms

variable {v : Variable} {part term : Term} {name : Name} {triple : Triple}

@[simp]
theorem Term.fill_self (v : Variable) (part : Term) :
  (Term.var v).fill v part = part
  := by
  simp [Term.fill]

theorem Term.fill_of_notMem (h : v ∉ term.vars) :
  term.fill v part = term
  := by
  cases term with
  | var w =>
      rw [Term.vars_var, List.mem_singleton] at h
      simp [Term.fill, Ne.symm h]
  | iri value => rfl
  | literal value => rfl

theorem Name.fill_of_notMem (h : v ∉ name.vars) :
  name.fill v part = name
  := by
  cases name with
  | var w =>
      rw [Name.vars_var, List.mem_singleton] at h
      simp [Name.fill, Ne.symm h]
  | iri value => rfl

theorem Triple.fill_of_notMem (h : v ∉ triple.vars) :
  triple.fill v part = triple
  := by
  simp only [Triple.vars, List.mem_append, not_or] at h
  rw [Triple.fill, Term.fill_of_notMem h.1.1, Name.fill_of_notMem h.1.2, Term.fill_of_notMem h.2]

/-- A variable does not occur where it is filled with a term without it. -/
theorem Term.notMem_vars_fill (closed : v ∉ part.vars) :
  v ∉ (term.fill v part).vars
  := by
  cases term with
  | var w =>
      rw [Term.fill]
      split
      · apply closed
      · rename_i hne
        simpa using Ne.symm hne
  | _ => simp [Term.fill, Term.vars]

end Terms

/-! ### Patterns -/

namespace Pattern

/-- The pattern with a term in the place of a variable. -/
def fill (v : Variable) (part : Term) : Pattern → Pattern
  | .basic triples => .basic (triples.map (Triple.fill v part))
  | .members list member => .members (list.fill v part) (member.fill v part)
  | .join left right => .join (fill v part left) (fill v part right)
  | .leftJoin left right => .leftJoin (fill v part left) (fill v part right)
  | .graph name inner => .graph (name.fill v part) (fill v part inner)
  | .project inner selected => .project (fill v part inner) (selected.filter (· ≠ v))

variable {v : Variable} {part : Term}

/-- A pattern without a variable stays. -/
theorem fill_of_notMem {pattern : Pattern} (h : v ∉ pattern.vars) :
  pattern.fill v part = pattern
  := by
  induction pattern with
  | basic triples =>
      rw [vars, List.mem_flatMap] at h
      rw [fill]
      congr 1
      apply (List.map_congr_left _).trans (List.map_id _)
      intro triple htriple
      apply Triple.fill_of_notMem
      intro hv
      apply h ⟨triple, htriple, hv⟩
  | members list member =>
      simp only [vars, List.mem_append, not_or] at h
      rw [fill, Term.fill_of_notMem h.1, Term.fill_of_notMem h.2]
  | join left right ihl ihr | leftJoin left right ihl ihr =>
      simp only [vars, List.mem_append, not_or] at h
      rw [fill, ihl h.1, ihr h.2]
  | graph name inner ih =>
      simp only [vars, List.mem_append, not_or] at h
      rw [fill, Name.fill_of_notMem h.1, ih h.2]
  | project inner selected ih =>
      simp only [vars, List.mem_append, not_or] at h
      rw [fill, ih h.1, List.filter_eq_self.mpr]
      intro w hw
      have hne : w ≠ v := fun heq => h.2 (heq ▸ hw)
      simp [hne]

/-- Patterns without a variable stay. -/
theorem map_fill_of_notMem {parts : List Pattern} (h : v ∉ parts.flatMap vars) :
  parts.map (fill v part) = parts
  := by
  apply (List.map_congr_left _).trans (List.map_id _)
  intro pattern hpattern
  apply fill_of_notMem
  intro hv
  apply h (List.mem_flatMap.mpr ⟨pattern, hpattern, hv⟩)

/-- Filling keeps basic patterns apart as they are, so the same ones are put together. -/
theorem mergeBasics_fill (parts : List Pattern) :
  mergeBasics (parts.map (fill v part)) = (mergeBasics parts).map (fill v part)
  := by
  fun_induction mergeBasics parts with
  | case1 => rfl
  | case2 parts ih =>
      simp only [List.map_cons, fill, List.map_nil, mergeBasics]
      apply ih
  | case3 parts first more triples merged heq ih =>
      rw [heq, List.map_cons, fill] at ih
      simp [fill, mergeBasics, ih]
  | case4 parts first more hne ih =>
      simp only [List.map_cons, fill, mergeBasics, ih]
      cases hmerged : mergeBasics parts with
      | nil => rfl
      | cons pattern rest =>
          cases pattern with
          | basic triples => exact absurd hmerged (hne triples rest)
          | _ => rfl
  | case5 pattern parts hne ih =>
      cases pattern with
      | basic triples => exact absurd rfl (hne triples)
      | _ => simp [fill, mergeBasics, ih]

theorem fill_foldl (combine : Pattern → Pattern → Pattern)
    (h : ∀ left right, (combine left right).fill v part
      = combine (left.fill v part) (right.fill v part))
    (first : Pattern) (parts : List Pattern) :
  (parts.foldl combine first).fill v part
    = (parts.map (fill v part)).foldl combine (first.fill v part)
  := by
  induction parts generalizing first with
  | nil => rfl
  | cons pattern parts ih => rw [List.foldl_cons, ih, h, List.map_cons, List.foldl_cons]

/-- A conjunction is filled part by part. -/
theorem fill_joinAll (parts : List Pattern) :
  (joinAll parts).fill v part = joinAll (parts.map (fill v part))
  := by
  rw [joinAll, joinAll, mergeBasics_fill]
  cases mergeBasics parts with
  | nil => rfl
  | cons first rest => apply fill_foldl join fun _ _ => rfl

end Pattern

end LinkedQuery
