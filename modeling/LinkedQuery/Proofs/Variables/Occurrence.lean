import LinkedQuery.Proofs.Reading.Productions

/-!
# Occurrences of variables

The variables that occur in terms, patterns and templates, and in the matches made of them.  What
occurs in a combination of patterns occurs in one of them, and what occurs in an object template
occurs in one of its entries.
-/

namespace LinkedQuery

/-! ### Patterns -/

def Term.vars : Term → List Variable
  | .var v => [v]
  | _ => []

def Name.vars (name : Name) : List Variable :=
  name.term.vars

def Triple.vars (triple : Triple) : List Variable :=
  triple.subject.vars ++ triple.predicate.vars ++ triple.object.vars

@[simp]
theorem Term.vars_var (v : Variable) :
  (Term.var v).vars = [v]
  := rfl

@[simp]
theorem Name.vars_var (v : Variable) :
  (Name.var v).vars = [v]
  := rfl

namespace Pattern

def vars : Pattern → List Variable
  | .basic triples => triples.flatMap Triple.vars
  | .members list member => list.vars ++ member.vars
  | .join left right => vars left ++ vars right
  | .leftJoin left right => vars left ++ vars right
  | .graph name inner => name.vars ++ vars inner
  | .project inner selected => vars inner ++ selected

section Collections

variable {α : Type} {collect : Pattern → List α} {each : Triple → List α}

/-- Putting basic patterns together loses nothing that is collected from their triples. -/
theorem flatMap_mergeBasics
    (basic : ∀ triples, collect (.basic triples) = triples.flatMap each) (parts : List Pattern) :
  (mergeBasics parts).flatMap collect = parts.flatMap collect
  := by
  fun_induction mergeBasics parts with
  | case1 => rfl
  | case2 parts ih => simp [basic, ih]
  | case3 parts first more triples merged heq ih =>
      simp only [heq, List.flatMap_cons] at ih ⊢
      rw [← ih]
      simp [basic]
  | case4 parts first more _ ih => rw [List.flatMap_cons, List.flatMap_cons, ih]
  | case5 part parts _ ih => rw [List.flatMap_cons, List.flatMap_cons, ih]

/-- What is collected from patterns that are combined one after the other. -/
theorem collect_foldl (combine : Pattern → Pattern → Pattern)
    (combined : ∀ left right, collect (combine left right) = collect left ++ collect right)
    (first : Pattern) (parts : List Pattern) :
  collect (parts.foldl combine first) = collect first ++ parts.flatMap collect
  := by
  induction parts generalizing first with
  | nil => simp
  | cons part parts ih =>
      rw [List.foldl_cons, ih, combined, List.flatMap_cons, List.append_assoc]

/-- What is collected from a conjunction is collected from its parts. -/
theorem collect_joinAll (basic : ∀ triples, collect (.basic triples) = triples.flatMap each)
    (join : ∀ left right, collect (.join left right) = collect left ++ collect right)
    (parts : List Pattern) :
  collect (joinAll parts) = parts.flatMap collect
  := by
  rw [← flatMap_mergeBasics basic, joinAll]
  cases mergeBasics parts with
  | nil => simp [empty, basic]
  | cons first rest => rw [collect_foldl _ join, List.flatMap_cons]

end Collections

/-- What occurs in patterns that are combined occurs in one of them. -/
theorem mem_vars_foldl (combine : Pattern → Pattern → Pattern) {v : Variable}
    (combined : ∀ left right, (combine left right).vars = left.vars ++ right.vars)
    (first : Pattern) (parts : List Pattern) :
  v ∈ (parts.foldl combine first).vars ↔ v ∈ first.vars ∨ v ∈ parts.flatMap vars
  := by
  rw [collect_foldl combine combined, List.mem_append]

/-- What occurs in a conjunction occurs in one of its parts. -/
theorem mem_vars_joinAll {v : Variable} {parts : List Pattern} :
  v ∈ (joinAll parts).vars ↔ v ∈ parts.flatMap vars
  := by
  have h : (joinAll parts).vars = parts.flatMap vars :=
    collect_joinAll (fun _ => rfl) (fun _ _ => rfl) parts
  rw [h]

end Pattern

/-! ### Templates -/

namespace Template

mutual

/-- The variables of a template, those of its arrays included. -/
def vars : Template → List Variable
  | .object entries => entryVars entries
  | .array v item => v :: vars item
  | .name v => [v]
  | .native v => [v]
  | .value _ => []

/-- The variables of the templates of some entries. -/
def entryVars : List (String × Template) → List Variable
  | [] => []
  | (_, template) :: entries => vars template ++ entryVars entries

end

theorem vars_object (entries : List (String × Template)) :
  (Template.object entries).vars = entries.flatMap fun entry => entry.2.vars
  := by
  rw [vars]
  induction entries with
  | nil => rfl
  | cons entry entries ih => simp [entryVars, ih]

theorem placeholders_object (entries : List (String × Template)) :
  (Template.object entries).placeholders = entries.flatMap fun entry => entry.2.placeholders
  := by
  rw [placeholders]
  induction entries with
  | nil => rfl
  | cons entry entries ih => simp [entryPlaceholders, ih]

/-- Around a template there are only constants. -/
theorem mem_vars_around {entries : List (String × Json)} {key : String} {template : Template}
    {v : Variable} (h : v ∈ (around entries key template).vars) :
  v ∈ template.vars
  := by
  simp only [around, vars_object, List.flatMap_map, List.mem_flatMap] at h
  obtain ⟨entry, -, h⟩ := h
  split at h
  · apply h
  · simp [vars] at h

end Template

/-! ### Matches -/

/-- The variables of a match, wherever they occur in it. -/
def Match.vars (found : Match) : List Variable :=
  found.term.vars ++ found.template.vars ++ found.pattern.vars ++ found.projections

theorem Match.mem_vars {found : Match} {v : Variable} :
  v ∈ found.vars ↔ v ∈ found.term.vars ∨ v ∈ found.template.vars
    ∨ v ∈ found.pattern.vars ∨ v ∈ found.projections
  := by
  simp [Match.vars]

/-- An array projects its variable when the items bind it, and what an item projects. -/
theorem mem_itemProjections {target v : Variable} {item : Match} :
  v ∈ itemProjections target item
    ↔ (v = target ∧ item.term = .var target) ∨ v ∈ item.projections
  := by
  rw [itemProjections]
  split
  · simp_all
  · simp_all

namespace NodeObject

/-- The variables of a share, wherever they occur in it. -/
def Share.vars (share : Share) : List Variable :=
  share.template.vars ++ (share.required ++ share.optional).flatMap Pattern.vars
    ++ share.projections

theorem Share.mem_vars {share : Share} {v : Variable} :
  v ∈ share.vars ↔ v ∈ share.template.vars
    ∨ v ∈ (share.required ++ share.optional).flatMap Pattern.vars ∨ v ∈ share.projections
  := by
  simp only [Share.vars, List.mem_append, or_assoc]

/-- What occurs in the match of a node is its subject or occurs in a share. -/
theorem mem_vars_assemble {scope : Scope} {shares : List (String × Share)} {v : Variable}
    (h : v ∈ (assemble scope shares).vars) :
  v ∈ scope.subject.vars ∨ ∃ share ∈ shares, v ∈ share.2.vars
  := by
  simp only [Match.mem_vars, assemble, Template.vars_object, List.flatMap_map,
    Pattern.mem_vars_foldl Pattern.leftJoin (fun _ _ => rfl),
    Pattern.mem_vars_joinAll, List.flatMap_assoc, List.mem_flatMap] at h
  simp only [Share.mem_vars, List.flatMap_append, List.mem_append, List.mem_flatMap]
  rcases h with h | ⟨share, hshare, h⟩ | (⟨share, hshare, h⟩ | ⟨share, hshare, h⟩) |
    ⟨share, hshare, h⟩
  · exact .inl h
  · exact .inr ⟨share, hshare, .inl h⟩
  · exact .inr ⟨share, hshare, .inr (.inl (.inl h))⟩
  · exact .inr ⟨share, hshare, .inr (.inl (.inr h))⟩
  · exact .inr ⟨share, hshare, .inr (.inr h)⟩

end NodeObject

end LinkedQuery
