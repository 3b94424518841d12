import LinkedQuery.Json.Reader
import Mathlib.Tactic.Use

/-!
# Distinct keys

Every JSON value that is read from a text has distinct keys in each of its objects: a key that is
given again gives its value to the first place.  The documents of the theory are values of this
kind.
-/

namespace LinkedQuery

namespace Json

mutual

/-- Whether no object in a value has two entries under one key. -/
def hasDistinctKeys : Json → Bool
  | .array items => itemsHaveDistinctKeys items
  | .object entries => decide (entries.map Prod.fst).Nodup && entriesHaveDistinctKeys entries
  | _ => true

/-- Whether no object in some items has two entries under one key. -/
def itemsHaveDistinctKeys : List Json → Bool
  | [] => true
  | item :: items => hasDistinctKeys item && itemsHaveDistinctKeys items

/-- Whether no object in the values of some entries has two entries under one key. -/
def entriesHaveDistinctKeys : List (String × Json) → Bool
  | [] => true
  | (_, value) :: entries => hasDistinctKeys value && entriesHaveDistinctKeys entries

end

theorem hasDistinctKeys_array {items : List Json} :
  (Json.array items).hasDistinctKeys = true ↔ ∀ item ∈ items, item.hasDistinctKeys = true
  := by
  rw [hasDistinctKeys]
  induction items with
  | nil => simp [itemsHaveDistinctKeys]
  | cons item items ih => simp [itemsHaveDistinctKeys, ih]

theorem hasDistinctKeys_object {entries : List (String × Json)} :
  (Json.object entries).hasDistinctKeys = true
    ↔ (entries.map Prod.fst).Nodup ∧ ∀ entry ∈ entries, entry.2.hasDistinctKeys = true
  := by
  have hentries (entries : List (String × Json)) :
      entriesHaveDistinctKeys entries = true
        ↔ ∀ entry ∈ entries, entry.2.hasDistinctKeys = true := by
    induction entries with
    | nil => simp [entriesHaveDistinctKeys]
    | cons entry entries ih => simp [entriesHaveDistinctKeys, ih]
  simp only [hasDistinctKeys, Bool.and_eq_true, decide_eq_true_eq, hentries]

/-- The value of an entry has distinct keys with the whole. -/
theorem hasDistinctKeys_of_entry? {value part : Json} {key : String}
    (distinct : value.hasDistinctKeys = true) (h : value.entry? key = some part) :
  part.hasDistinctKeys = true
  := by
  cases value with
  | object entries =>
      obtain ⟨earlier, later, heq, -⟩ := List.lookup_eq_some_iff.mp h
      apply (hasDistinctKeys_object.mp distinct).2 (key, part)
      simp [heq]
  | _ => cases h

end Json

/-! ### Entries in order -/

namespace Entries

variable {α : Type}

/-- An insertion keeps names distinct. -/
theorem nodup_names_insert {entries : Entries α} (h : entries.names.Nodup) (name : String)
    (value : α) :
  (entries.insert name value).names.Nodup
  := by
  rw [names_insert]
  split
  · apply h
  · apply List.nodup_append.mpr
    refine ⟨h, List.pairwise_singleton _ _, ?_⟩
    rintro other hother _ hname rfl
    simp_all

/-- What an insertion holds was there before or is what was inserted. -/
theorem mem_insert {entries : Entries α} {name : String} {value : α} {entry : String × α}
    (h : entry ∈ entries.insert name value) :
  entry ∈ entries ∨ entry.2 = value
  := by
  induction entries with
  | nil => simp_all [insert]
  | cons first rest ih =>
      obtain ⟨other, old⟩ := first
      rw [insert] at h
      split at h
      · rcases List.mem_cons.mp h with rfl | h
        · simp
        · simp [h]
      · rcases List.mem_cons.mp h with rfl | h
        · simp
        · rcases ih h with h | h
          · simp [h]
          · simp [h]

/-- Entries from pairs have distinct names, and the values of the pairs. -/
theorem nodup_names_ofList (pairs : List (String × α)) :
  (ofList pairs).names.Nodup ∧ ∀ entry ∈ ofList pairs, ∃ pair ∈ pairs, entry.2 = pair.2
  := by
  suffices h : ∀ (entries : Entries α), entries.names.Nodup →
      let result := pairs.foldl (fun entries pair => entries.insert pair.1 pair.2) entries
      result.names.Nodup ∧
        ∀ entry ∈ result, entry ∈ entries ∨ ∃ pair ∈ pairs, entry.2 = pair.2 by
    have := h [] List.nodup_nil
    simpa [ofList] using this
  induction pairs with
  | nil =>
      intro entries h
      simp [h]
  | cons pair pairs ih =>
      intro entries h
      obtain ⟨hnodup, hmem⟩ := ih _ (nodup_names_insert h pair.1 pair.2)
      constructor
      · apply hnodup
      · intro entry hentry
        rcases hmem entry hentry with hold | ⟨other, hother, heq⟩
        · rcases mem_insert hold with hold | hnew
          · exact .inl hold
          · exact .inr ⟨pair, List.mem_cons_self, hnew⟩
        · exact .inr ⟨other, List.mem_cons_of_mem _ hother, heq⟩

end Entries

/-! ### Reading -/

namespace Json

/-- Whether everything that a reader reads has a property. -/
def Yields {α : Type} (reader : Reader α) (P : α → Prop) : Prop :=
  ∀ input taken, reader input = .ok taken → P taken.value

/-- The property of values with distinct keys in every object. -/
abbrev Distinct (value : Json) : Prop := value.hasDistinctKeys = true

section Readers

variable {item : Reader Json}

theorem map_eq_ok {ε α β : Type} {f : α → β} {result : Except ε α} {value : β}
    (h : result.map f = .ok value) :
  ∃ given, result = .ok given ∧ f given = value
  := by
  cases result with
  | error fault => cases h
  | ok given => exact ⟨given, rfl, Except.ok.inj h⟩

theorem yields_items (h : Yields item Distinct) :
  Yields (items item) fun values => ∀ value ∈ values, Distinct value
  := by
  intro input
  fun_induction items item input with
  | case3 input value rest shorter hread =>
      intro taken heq
      cases heq
      simpa using h input _ hread
  | case6 input value rest shorter hread bound left _ _ _ _ _ _ _ ih =>
      intro taken heq
      obtain ⟨others, hothers, rfl⟩ := map_eq_ok heq
      rw [Taken.relax, Taken.map, List.forall_mem_cons]
      constructor
      · apply h input _ hread
      · apply ih others hothers
  | _ => simp

theorem yields_entry (h : Yields item Distinct) :
  Yields (entry item) fun pair => Distinct pair.2
  := by
  intro input taken heq
  simp only [entry] at heq
  split at heq
  · cases heq
  · split at heq
    · cases heq
    · split at heq
      · obtain ⟨value, hvalue, rfl⟩ := map_eq_ok heq
        apply h _ _ hvalue
      · cases heq

theorem yields_entries (h : Yields item Distinct) :
  Yields (entries item) fun pairs => ∀ pair ∈ pairs, Distinct pair.2
  := by
  intro input
  fun_induction entries item input with
  | case3 input first rest shorter hread =>
      intro taken heq
      cases heq
      simpa using yields_entry h input _ hread
  | case5 input first rest shorter hread bound _ _ _ _ _ _ _ _ ih =>
      intro taken heq
      obtain ⟨others, hothers, rfl⟩ := map_eq_ok heq
      rw [Taken.relax, Taken.map, List.forall_mem_cons]
      constructor
      · apply yields_entry h input _ hread
      · apply ih others hothers
  | _ => simp

theorem yields_arrayBody (h : Yields item Distinct) :
  Yields (arrayBody item) Distinct
  := by
  intro input taken heq
  simp only [arrayBody] at heq
  split at heq
  · cases heq
  · split at heq
    · cases heq
      rfl
    · obtain ⟨values, hvalues, rfl⟩ := map_eq_ok heq
      apply hasDistinctKeys_array.mpr
      apply yields_items h _ _ hvalues

theorem yields_objectBody (h : Yields item Distinct) :
  Yields (objectBody item) Distinct
  := by
  intro input taken heq
  simp only [objectBody] at heq
  split at heq
  · cases heq
  · split at heq
    · cases heq
      rfl
    · split at heq
      · obtain ⟨pairs, hpairs, rfl⟩ := map_eq_ok heq
        obtain ⟨hnodup, hmem⟩ := Entries.nodup_names_ofList pairs.value
        apply hasDistinctKeys_object.mpr
        constructor
        · apply hnodup
        · intro entry hentry
          obtain ⟨pair, hpair, heq⟩ := hmem entry hentry
          rw [heq]
          apply yields_entries h _ _ hpairs pair hpair
      · cases heq

end Readers

/-- A word reads as its value. -/
theorem yields_word {value : Json} (h : Distinct value) (expected : List Char) :
    ∀ input taken, word value expected input = .ok taken → Distinct taken.value := by
  induction expected with
  | nil =>
      intro input taken heq
      cases heq
      apply h
  | cons e expected ih =>
      intro input taken heq
      cases input with
      | nil => cases heq
      | cons c input =>
          rw [word] at heq
          split at heq
          · obtain ⟨rest, hrest, rfl⟩ := map_eq_ok heq
            apply ih input rest hrest
          · cases heq

/-- A scalar has no objects. -/
theorem yields_scalar (c : Char) (rest : List Char) (taken : Taken Json (rest.length + 1))
    (heq : scalar c rest = .ok taken) :
  Distinct taken.value
  := by
  rw [scalar] at heq
  split at heq
  · apply yields_word rfl _ _ _ heq
  · split at heq
    · apply yields_word rfl _ _ _ heq
    · split at heq
      · apply yields_word rfl _ _ _ heq
      · split at heq
        · obtain ⟨number, -, rfl⟩ := map_eq_ok heq
          rfl
        · split at heq
          · obtain ⟨number, -, rfl⟩ := map_eq_ok heq
            rfl
          · split at heq
            · obtain ⟨text, -, rfl⟩ := map_eq_ok heq
              rfl
            · cases heq

theorem yields_nested (depth : Nat) :
  Yields (nested depth) Distinct
  := by
  induction depth with
  | zero =>
      intro input taken heq
      rw [nested] at heq
      split at heq
      · cases heq
      · split at heq
        · cases heq
        · obtain ⟨value, hvalue, rfl⟩ := map_eq_ok heq
          apply yields_scalar _ _ _ hvalue
  | succ depth ih =>
      intro input taken heq
      rw [nested] at heq
      split at heq
      · cases heq
      · split at heq
        · obtain ⟨value, hvalue, rfl⟩ := map_eq_ok heq
          split at hvalue
          · apply yields_arrayBody ih _ _ hvalue
          · apply yields_objectBody ih _ _ hvalue
        · obtain ⟨value, hvalue, rfl⟩ := map_eq_ok heq
          apply yields_scalar _ _ _ hvalue

/-- A value that is read from a text has distinct keys in every object. -/
theorem hasDistinctKeys_of_parse {text : String} {value : Json} (h : parse text = .ok value) :
  value.hasDistinctKeys = true
  := by
  simp only [parse, parseNested] at h
  split at h
  · cases h
  · split at h
    · cases h
      apply yields_nested _ _ _ ‹_›
    · cases h

end Json

end LinkedQuery
