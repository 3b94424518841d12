/-!
# Ordered entries

`Entries α` is a list of values under names, in the order in which the names first came.
`Entries.insert` puts a value under a name: a name that is already there keeps its place and
changes its value, a new one goes to the end.  Looking a name up is `List.lookup`.
-/

namespace LinkedQuery

/-- Values under names, in order of first appearance. -/
abbrev Entries (α : Type) := List (String × α)

namespace Entries

variable {α : Type}

/-- The names, in order. -/
def names (entries : Entries α) : List String :=
  entries.map Prod.fst

/-- A name that is already present keeps its place. -/
def insert : Entries α → String → α → Entries α
  | [], name, value => [(name, value)]
  | (other, old) :: rest, name, value =>
    if other = name then (other, value) :: rest
    else (other, old) :: insert rest name value

/-- The last value given for a name counts, at the name's first place. -/
def ofList (pairs : List (String × α)) : Entries α :=
  pairs.foldl (fun entries pair => entries.insert pair.1 pair.2) []

theorem lookup_insert_self (entries : Entries α) (name : String) (value : α) :
  (entries.insert name value).lookup name = some value
  := by
  induction entries with
  | nil => simp [insert]
  | cons entry rest ih =>
    obtain ⟨other, old⟩ := entry
    by_cases h : other = name
    · simp [insert, h]
    · have h' : (name == other) = false := by simpa using Ne.symm h
      simp [insert, h, List.lookup_cons, h', ih]

theorem lookup_insert_of_ne (entries : Entries α) {name other : String} (value : α)
    (h : other ≠ name) :
  (entries.insert name value).lookup other = entries.lookup other
  := by
  have h' : (other == name) = false := by simpa using h
  induction entries with
  | nil => simp [insert, List.lookup_cons, h']
  | cons entry rest ih =>
    obtain ⟨key, old⟩ := entry
    by_cases hk : key = name
    · subst hk
      simp [insert, List.lookup_cons, h']
    · by_cases ho : other = key
      · subst ho
        simp [insert, hk]
      · have ho' : (other == key) = false := by simpa using ho
        simp [insert, hk, List.lookup_cons, ho', ih]

/-- An insertion adds its name at the end, unless it is there already. -/
theorem names_insert (entries : Entries α) (name : String) (value : α) :
  (entries.insert name value).names
    = if name ∈ entries.names then entries.names else entries.names ++ [name]
  := by
  induction entries with
  | nil => simp [insert, names]
  | cons entry rest ih =>
    obtain ⟨other, old⟩ := entry
    by_cases h : other = name
    · simp [insert, names, h]
    · simp only [names] at ih
      by_cases hm : name ∈ rest.map Prod.fst
      · simp [insert, names, h, Ne.symm h, hm, ih]
      · simp [insert, names, h, Ne.symm h, hm, ih]

theorem mem_names_of_lookup {entries : Entries α} {name : String} {value : α}
    (h : entries.lookup name = some value) :
  name ∈ entries.names
  := by
  induction entries with
  | nil => simp at h
  | cons entry rest ih =>
    obtain ⟨other, old⟩ := entry
    simp only [List.lookup_cons] at h
    by_cases heq : name = other
    · simp [names, heq]
    · have hne : (name == other) = false := by simpa using heq
      simp only [hne] at h
      simpa [names, heq] using ih h

end Entries

end LinkedQuery
