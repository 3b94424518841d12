import LinkedQuery.Proofs.Json.Place

/-!
# Renamed keys

The keys of one object can be renamed: in the value, in the template that has the object at the
same place, and in the paths of warnings that lead through it.
-/

namespace LinkedQuery

variable (ρ : String → String)

/-! ### Entries -/

namespace Entries

variable {α : Type}

/-- The entries with renamed keys. -/
def rename (entries : List (String × α)) : List (String × α) :=
  entries.map fun entry => (ρ entry.1, entry.2)

variable {ρ}

/-- What stands under a name that no other key is renamed to, and that is kept itself. -/
theorem lookup_rename {name : String} {entries : List (String × α)}
    (kept : ∀ entry ∈ entries, ρ entry.1 = name ↔ entry.1 = name) :
  (rename ρ entries).lookup name = entries.lookup name
  := by
  induction entries with
  | nil => rfl
  | cons entry entries ih =>
      obtain ⟨key, value⟩ := entry
      obtain ⟨hfirst, hrest⟩ := List.forall_mem_cons.mp kept
      have htest : (name == ρ key) = (name == key) := by
        rw [Bool.eq_iff_iff, beq_iff_eq, beq_iff_eq, eq_comm, hfirst, eq_comm]
      simp only [rename, List.map_cons, List.lookup_cons, htest] at ih ⊢
      rw [ih hrest]

end Entries

/-- The object with renamed keys. -/
def Json.rename : Json → Json
  | .object entries => .object (Entries.rename ρ entries)
  | value => value

/-- The template of the object with renamed keys. -/
def Template.rename : Template → Template
  | .object entries => .object (Entries.rename ρ entries)
  | .value json => .value (json.rename ρ)
  | template => template

/-! ### Paths -/

/-- A path seen from an object with renamed keys. -/
def renameStep : List Step → List Step
  | .key name :: rest => .key (ρ name) :: rest
  | path => path

/-- A path, when the keys of the object at a place have been renamed. -/
def renameAt : (place path : List Step) → List Step
  | [], path => renameStep ρ path
  | step :: place, first :: rest =>
    if first = step then first :: renameAt place rest else first :: rest
  | _ :: _, [] => []

variable {ρ}

@[simp]
theorem renameAt_nil (path : List Step) :
  renameAt ρ [] path = renameStep ρ path
  := rfl

@[simp]
theorem renameAt_cons (step : Step) (place path : List Step) :
  renameAt ρ (step :: place) (step :: path) = step :: renameAt ρ place path
  := by
  simp [renameAt]

/-- A path that leads elsewhere stays. -/
theorem renameAt_of_ne {step : Step} {path : List Step} (h : path.head? ≠ some step)
    (place : List Step) :
  renameAt ρ (step :: place) path = path
  := by
  cases path with
  | nil => rfl
  | cons first rest =>
      have hne : first ≠ step := by
        rintro rfl
        exact h rfl
      simp [renameAt, hne]

/-! ### Warnings -/

/-- Whether warnings are at the places of others, with the keys of the object at a place renamed. -/
def Moved (ρ : String → String) (place : List Step) (warnings warnings' : List Warning) : Prop :=
  warnings'.map Warning.path = warnings.map fun warning => renameAt ρ place warning.path

namespace Moved

variable {place : List Step} {step : Step} {warnings warnings' more more' : List Warning}

theorem append (h : Moved ρ place warnings warnings') (h' : Moved ρ place more more') :
  Moved ρ place (warnings ++ more) (warnings' ++ more')
  := by
  rw [Moved] at h h' ⊢
  rw [List.map_append, List.map_append, h, h']

/-- Warnings that are seen from the parent. -/
theorem nest (h : Moved ρ place warnings warnings') (step : Step) :
  Moved ρ (step :: place) (nestAll step warnings) (nestAll step warnings')
  := by
  rw [Moved] at h ⊢
  have hpath : Warning.path ∘ (·.nest step) = List.cons step ∘ Warning.path := rfl
  rw [nestAll, nestAll, List.map_map, List.map_map, hpath, ← List.map_map, h, List.map_map]
  apply List.map_congr_left
  intro warning _
  simp [Warning.nest]

/-- Warnings about other parts stay. -/
theorem of_ne (h : ∀ warning ∈ warnings, warning.path.head? ≠ some step) :
  Moved ρ (step :: place) warnings warnings
  := by
  apply List.map_congr_left
  intro warning hwarning
  rw [renameAt_of_ne (h warning hwarning)]

/-- Warnings about a key that is kept stay. -/
theorem of_kept
    (h : ∀ warning ∈ warnings, ∃ key, warning.path.head? = some (.key key) ∧ ρ key = key) :
  Moved ρ [] warnings warnings
  := by
  apply List.map_congr_left
  intro warning hwarning
  obtain ⟨key, hhead, hkept⟩ := h warning hwarning
  obtain ⟨rest, hpath⟩ := List.head?_eq_some_iff.mp hhead
  rw [hpath, renameAt_nil, renameStep, hkept]

/-- Warnings that are seen through a renamed key. -/
theorem nest_key (key : String) (warnings : List Warning) :
  Moved ρ [] (nestAll (.key key) warnings) (nestAll (.key (ρ key)) warnings)
  := by
  rw [Moved, nestAll, nestAll, List.map_map, List.map_map]
  rfl

theorem flatMap {α β : Type} {items : List α} {f : α → List Warning} {items' : List β}
    {g : β → List Warning}
    (h : List.Forall₂ (fun item item' => Moved ρ place (f item) (g item')) items items') :
  Moved ρ place (items.flatMap f) (items'.flatMap g)
  := by
  induction h with
  | nil => rfl
  | cons first _ ih =>
      rw [List.flatMap_cons, List.flatMap_cons]
      apply first.append ih

end Moved

end LinkedQuery
