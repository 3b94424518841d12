import LinkedQuery.Proofs.Json.Place

/-!
# The order of a document

The places of a document have an order: a whole comes before its parts, the entries of an object
come in the order of its keys, and the items of an array by position.  Warnings are `InOrder` when
no later one is about an earlier place.
-/

namespace LinkedQuery

/-! ### Places -/

/-- Whether a key stands before another among entries. -/
def Entries.before {α : Type} (entries : List (String × α)) (name name' : String) : Bool :=
  (entries.map Prod.fst).idxOf name < (entries.map Prod.fst).idxOf name'

/-- The keys of entries stand in their order. -/
theorem Entries.pairwise_before {α : Type} {entries : List (String × α)}
    (distinct : (entries.map Prod.fst).Nodup) :
  (entries.map Prod.fst).Pairwise fun name name' => Entries.before entries name name' = true
  := by
  rw [List.pairwise_iff_getElem]
  intro i j hi hj hij
  simp only [Entries.before, distinct.idxOf_getElem, decide_eq_true_eq]
  exact hij

/-- A key that stands before another does not stand after it. -/
theorem Entries.before_eq_false {α : Type} {entries : List (String × α)} {name name' : String}
    (h : Entries.before entries name name' = true) :
  Entries.before entries name' name = false
  := by
  simp only [Entries.before, decide_eq_true_eq, decide_eq_false_iff_not] at h ⊢
  omega

namespace Json

/-- Whether a step leads to an earlier part of a value than another. -/
def stepBefore : Json → Step → Step → Bool
  | .object entries, .key name, .key name' => Entries.before entries name name'
  | .array _, .index position, .index position' => position < position'
  | _, _, _ => false

/-- Whether a path leads to an earlier place of a value than another. -/
def pathBefore : Json → List Step → List Step → Bool
  | _, _, [] => false
  | _, [], _ :: _ => true
  | value, step :: path, step' :: path' =>
    if step = step' then (value.part? step).any fun part => pathBefore part path path'
    else value.stepBefore step step'

/-- Within a part the order is that of the part. -/
@[simp]
theorem pathBefore_cons {value part : Json} {step : Step} (h : value.part? step = some part)
    (path path' : List Step) :
  value.pathBefore (step :: path) (step :: path') = part.pathBefore path path'
  := by
  rw [pathBefore, if_pos rfl, h, Option.any_some]

/-- The places of entries come in the order of their keys. -/
@[simp]
theorem pathBefore_key (entries : List (String × Json)) (name name' : String) :
  (Json.object entries).pathBefore [.key name] [.key name'] = Entries.before entries name name'
  := by
  rw [pathBefore]
  split
  · rename_i hstep
    obtain rfl := Step.key.inj hstep
    cases (Json.object entries).part? (.key name) with
    | none => simp [Entries.before]
    | some part => simp [Entries.before, pathBefore]
  · rfl

/-- What is in one entry comes before what is in a later one. -/
theorem pathBefore_eq_false {entries : List (String × Json)} {name name' : String}
    (h : Entries.before entries name name' = true) (path path' : List Step) :
  (Json.object entries).pathBefore (.key name' :: path') (.key name :: path) = false
  := by
  have hfalse := Entries.before_eq_false h
  have hne : Step.key name' ≠ .key name := by
    intro heq
    obtain rfl := Step.key.inj heq
    rw [h] at hfalse
    cases hfalse
  rw [pathBefore, if_neg hne, stepBefore, hfalse]

end Json

/-! ### Warnings -/

/-- Whether the warnings about a value come in the order of their places. -/
def InOrder (value : Json) (warnings : List Warning) : Prop :=
  warnings.Pairwise fun earlier later => value.pathBefore later.path earlier.path = false

instance (value : Json) (warnings : List Warning) : Decidable (InOrder value warnings) :=
  inferInstanceAs (Decidable (warnings.Pairwise _))

/-- A warning alone is in order. -/
theorem InOrder.of_length_le_one {value : Json} {warnings : List Warning}
    (h : warnings.length ≤ 1) :
  InOrder value warnings
  := by
  match warnings with
  | [] => exact .nil
  | [warning] => exact List.pairwise_singleton _ _

/-- Warnings that are seen from the parent stay in their order. -/
theorem inOrder_nestAll {value part : Json} {step : Step} {warnings : List Warning}
    (h : value.part? step = some part) :
  InOrder value (nestAll step warnings) ↔ InOrder part warnings
  := by
  simp only [InOrder, nestAll, List.pairwise_map, Warning.nest, Json.pathBefore_cons h]

/-- The warnings of an object are in order when those of each entry are. -/
theorem inOrder_flatMap {α : Type} {entries : List (String × Json)} {members : List α}
    {name : α → String} {f : α → List Warning}
    (distinct : (entries.map Prod.fst).Nodup) (keys : members.map name = entries.map Prod.fst)
    (heads : ∀ member ∈ members, ∀ warning ∈ f member,
      warning.path.head? = some (.key (name member))) :
  InOrder (.object entries) (members.flatMap f)
    ↔ ∀ member ∈ members, InOrder (.object entries) (f member)
  := by
  rw [InOrder, List.pairwise_flatMap]
  apply and_iff_left
  have hkeys := Entries.pairwise_before distinct
  rw [← keys, List.pairwise_map] at hkeys
  apply hkeys.imp_of_mem
  intro member member' hmember hmember' hbefore warning hwarning warning' hwarning'
  obtain ⟨path, hpath⟩ := List.head?_eq_some_iff.mp (heads member hmember warning hwarning)
  obtain ⟨path', hpath'⟩ := List.head?_eq_some_iff.mp (heads member' hmember' warning' hwarning')
  rw [hpath, hpath']
  apply Json.pathBefore_eq_false hbefore

/-- When the entries of an object but one have at most a single warning each, the warnings are in
order when those of that one are. -/
theorem inOrder_around {entries : List (String × Json)} {key : String} {value : Json}
    {f : String × Json → List Warning} {warnings : List Warning}
    (distinct : (entries.map Prod.fst).Nodup) (held : (key, value) ∈ entries)
    (heads : ∀ entry ∈ entries, ∀ warning ∈ f entry, warning.path.head? = some (.key entry.1))
    (own : f (key, value) = nestAll (.key key) warnings)
    (others : ∀ entry ∈ entries, entry.1 ≠ key → (f entry).length ≤ 1) :
  InOrder (.object entries) (entries.flatMap f) ↔ InOrder value warnings
  := by
  have hpart : (Json.object entries).part? (.key key) = some value :=
    (Entries.lookup_eq_some_iff distinct).mpr held
  rw [inOrder_flatMap distinct rfl heads, ← inOrder_nestAll hpart, ← own]
  constructor
  · intro h
    apply h _ held
  · intro h entry hentry
    by_cases hkey : entry.1 = key
    · rw [eq_of_key_eq distinct hentry held hkey]
      exact h
    · exact .of_length_le_one (others entry hentry hkey)

end LinkedQuery
