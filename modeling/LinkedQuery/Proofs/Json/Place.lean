import LinkedQuery.Proofs.Json.Keys
import LinkedQuery.Rdf.Scalar
import LinkedQuery.Template
import LinkedQuery.Warning
import Mathlib.Data.List.Nodup

/-!
# Places in values and templates

A path leads to a part of a value, `Json.at?`, and `Json.modify` changes that part alone.  A
template has the same places, up to the known values in it, so `Template.at?` and
`Template.modify` follow the same paths.
-/

namespace LinkedQuery

/-! ### Entries under a name -/

namespace Entries

variable {α : Type}

/-- The entries in which what stands under a name is changed. -/
def modify (change : α → α) (name : String) (entries : List (String × α)) : List (String × α) :=
  entries.map fun entry => (entry.1, if entry.1 = name then change entry.2 else entry.2)

@[simp]
theorem map_fst_modify (change : α → α) (name : String) (entries : List (String × α)) :
  (modify change name entries).map Prod.fst = entries.map Prod.fst
  := by
  simp [modify, Function.comp_def]

/-- What stands under another name stays. -/
theorem lookup_modify_of_ne {name other : String} (h : name ≠ other) (change : α → α)
    (entries : List (String × α)) :
  (modify change name entries).lookup other = entries.lookup other
  := by
  induction entries with
  | nil => rfl
  | cons entry entries ih =>
      obtain ⟨key, value⟩ := entry
      simp only [modify, List.map_cons, List.lookup_cons] at ih ⊢
      cases hkey : other == key with
      | true =>
          obtain rfl : other = key := eq_of_beq hkey
          simp [h.symm]
      | false => apply ih

/-- Entries without a name stay when what is under the name is changed. -/
theorem modify_of_notMem {name : String} {entries : List (String × α)}
    (h : name ∉ entries.map Prod.fst) (change : α → α) :
  modify change name entries = entries
  := by
  apply (List.map_congr_left _).trans (List.map_id _)
  intro entry hentry
  have hkey : entry.1 ≠ name := fun heq => h (heq ▸ List.mem_map_of_mem hentry)
  simp [hkey]

/-- Where keys are distinct, one entry is changed. -/
theorem modify_of_nodup {name : String} {value : α} {before after : List (String × α)}
    (distinct : ((before ++ (name, value) :: after).map Prod.fst).Nodup) (change : α → α) :
  modify change name (before ++ (name, value) :: after) = before ++ (name, change value) :: after
  := by
  rw [List.map_append, List.map_cons, List.nodup_append, List.nodup_cons] at distinct
  obtain ⟨-, ⟨hafter, -⟩, hapart⟩ := distinct
  have hbefore : name ∉ before.map Prod.fst := by
    intro hmem
    apply hapart name hmem name List.mem_cons_self rfl
  have hsplit : modify change name (before ++ (name, value) :: after)
      = modify change name before ++ (name, change value) :: modify change name after := by
    simp [modify]
  rw [hsplit, modify_of_notMem hbefore, modify_of_notMem hafter]

/-- The entry for which a property holds first stays in its place. -/
theorem find?_modify (P : String → Bool) (change : α → α) (name : String)
    (entries : List (String × α)) :
  (modify change name entries).find? (fun entry => P entry.1)
    = (entries.find? fun entry => P entry.1).map fun entry =>
        (entry.1, if entry.1 = name then change entry.2 else entry.2)
  := by
  rw [modify, List.find?_map]
  rfl

/-- Under distinct keys an entry is what is looked up. -/
theorem lookup_eq_some_iff {entries : List (String × α)}
    (distinct : (entries.map Prod.fst).Nodup) {name : String} {value : α} :
  entries.lookup name = some value ↔ (name, value) ∈ entries
  := by
  induction entries with
  | nil => simp
  | cons entry entries ih =>
      obtain ⟨key, first⟩ := entry
      rw [List.map_cons, List.nodup_cons] at distinct
      rw [List.lookup_cons, List.mem_cons, Prod.mk.injEq]
      cases hkey : name == key with
      | true =>
          obtain rfl : name = key := eq_of_beq hkey
          have hfree : (name, value) ∉ entries := by
            intro h
            apply distinct.1 (List.mem_map.mpr ⟨_, h, rfl⟩)
          simp [hfree, eq_comm]
      | false =>
          have hne : name ≠ key := ne_of_beq_false hkey
          simp [ih distinct.2, hne]

end Entries

/-- Two entries of an object with distinct keys are the same if their keys are. -/
theorem eq_of_key_eq {entries : List (String × Json)} (distinct : (entries.map Prod.fst).Nodup)
    {entry entry' : String × Json} (h : entry ∈ entries) (h' : entry' ∈ entries)
    (hkey : entry.1 = entry'.1) :
  entry = entry'
  := List.inj_on_of_nodup_map distinct h h' hkey

/-! ### Values -/

namespace Json

/-- The part of a value to which a step leads. -/
def part? : Json → Step → Option Json
  | .object entries, .key name => entries.lookup name
  | .array items, .index position => items[position]?
  | _, _ => none

/-- The part of a value at a path. -/
def at? (value : Json) : List Step → Option Json
  | [] => some value
  | step :: path => (value.part? step).bind fun part => at? part path

/-- A value with a change to the part to which a step leads. -/
def modifyPart (change : Json → Json) : Step → Json → Json
  | .key name, .object entries => .object (Entries.modify change name entries)
  | .index position, .array items => .array (items.modify position change)
  | _, value => value

/-- A value with a change to the part at a path. -/
def modify (change : Json → Json) : List Step → Json → Json
  | [] => change
  | step :: path => modifyPart (modify change path) step

/-- A value with another part at a path. -/
def put (value : Json) (path : List Step) (part : Json) : Json :=
  value.modify (fun _ => part) path

theorem at?_append (value : Json) (front path : List Step) :
  value.at? (front ++ path) = (value.at? front).bind fun part => part.at? path
  := by
  induction front generalizing value with
  | nil => rfl
  | cons step front ih =>
      simp only [List.cons_append, at?]
      cases value.part? step with
      | none => rfl
      | some part => apply ih

/-- A change at the end of a path is one of the part at its front. -/
theorem modify_append (change : Json → Json) (front path : List Step) :
  modify change (front ++ path) = modify (modify change path) front
  := by
  induction front with
  | nil => rfl
  | cons step front ih => rw [List.cons_append, modify, modify, ih]

/-- A change within one entry of an object with distinct keys. -/
theorem modify_entry {key : String} {value : Json} {before after : List (String × Json)}
    (distinct : (Json.object (before ++ (key, value) :: after)).hasDistinctKeys = true)
    (change : Json → Json) (path : List Step) :
  (Json.object (before ++ (key, value) :: after)).modify change (.key key :: path)
    = .object (before ++ (key, value.modify change path) :: after)
  := by
  have hkeys := (hasDistinctKeys_object.mp distinct).1
  rw [modify, modifyPart, Entries.modify_of_nodup hkeys]

/-- Only objects and arrays have parts. -/
theorem at?_eq_some_of_scalar {value part : Json} {scalar : Scalar} {path : List Step}
    (held : value.scalar? = some scalar) (h : value.at? path = some part) :
  path = [] ∧ part = value
  := by
  cases path with
  | nil => exact ⟨rfl, (Option.some.inj h).symm⟩
  | cons step path =>
      cases value with
      | null | array items | object entries => cases held
      | _ => cases h

end Json

/-! ### Templates -/

namespace Template

/-- The part of a template to which a step leads; an array has one item for all. -/
def part? : Template → Step → Option Template
  | .object entries, .key key => entries.lookup key
  | .array _ item, .index 0 => some item
  | _, _ => none

/-- The part of a template at a path. -/
def at? (template : Template) : List Step → Option Template
  | [] => some template
  | step :: path => (template.part? step).bind fun part => at? part path

/-- A template with a change to the part to which a step leads. -/
def modifyPart (change : Template → Template) : Step → Template → Template
  | .key key, .object entries => .object (Entries.modify change key entries)
  | .index 0, .array v item => .array v (change item)
  | _, template => template

/-- A template with a change to the part at a path. -/
def modify (change : Template → Template) : List Step → Template → Template
  | [] => change
  | step :: path => modifyPart (modify change path) step

/-- The variable of a placeholder. -/
def placeholder? : Template → Option Variable
  | .name v => some v
  | .native v => some v
  | _ => none

/-- Whether a template has the placeholder with a variable at a path. -/
def Holds (template : Template) (path : List Step) (v : Variable) : Prop :=
  (template.at? path).bind placeholder? = some v

variable {path : List Step} {v w : Variable}

/-- A known value has no placeholder. -/
@[simp]
theorem not_holds_value {json : Json} :
  ¬ (Template.value json).Holds path v
  := by
  cases path with
  | nil => simp [Holds, at?, placeholder?]
  | cons step path => simp [Holds, at?, part?]

/-- A placeholder is at its own place. -/
@[simp]
theorem holds_name :
  (Template.name w).Holds path v ↔ path = [] ∧ v = w
  := by
  cases path with
  | nil => simp [Holds, at?, placeholder?, eq_comm]
  | cons step path => simp [Holds, at?, part?]

@[simp]
theorem holds_native :
  (Template.native w).Holds path v ↔ path = [] ∧ v = w
  := by
  cases path with
  | nil => simp [Holds, at?, placeholder?, eq_comm]
  | cons step path => simp [Holds, at?, part?]

/-- The placeholders of an array are those of its item. -/
@[simp]
theorem holds_array {item : Template} :
  (Template.array w item).Holds path v ↔ ∃ rest, path = .index 0 :: rest ∧ item.Holds rest v
  := by
  cases path with
  | nil => simp [Holds, at?, placeholder?]
  | cons step path =>
      cases step with
      | key key => simp [Holds, at?, part?]
      | index position =>
          cases position with
          | zero => simp [Holds, at?, part?]
          | succ position => simp [Holds, at?, part?]

/-- The placeholders of an object with distinct keys are those of its entries. -/
theorem holds_object {entries : List (String × Template)}
    (distinct : (entries.map Prod.fst).Nodup) :
  (Template.object entries).Holds path v
    ↔ ∃ key template rest, path = .key key :: rest ∧ (key, template) ∈ entries ∧
      template.Holds rest v
  := by
  cases path with
  | nil => simp [Holds, at?, placeholder?]
  | cons step path =>
      cases step with
      | index position => simp [Holds, at?, part?]
      | key key =>
          simp only [Holds, at?, part?, List.cons.injEq, Step.key.injEq]
          constructor
          · intro h
            cases hlookup : entries.lookup key with
            | none => simp [hlookup] at h
            | some template =>
                rw [hlookup] at h
                exact ⟨key, template, path, ⟨rfl, rfl⟩,
                  (Entries.lookup_eq_some_iff distinct).mp hlookup, h⟩
          · rintro ⟨_, template, _, ⟨rfl, rfl⟩, hmem, h⟩
            rw [(Entries.lookup_eq_some_iff distinct).mpr hmem]
            apply h

end Template

end LinkedQuery
