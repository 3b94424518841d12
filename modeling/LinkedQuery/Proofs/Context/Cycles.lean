import LinkedQuery.Proofs.Context.Declaration
import Mathlib.Tactic.Use

/-!
# Cycles of references

An entry on a cycle of references never gets its turn, so terms on a cycle cannot be declared
(`Reaches.acyclic`).  Opening entries finds a cycle only where there is one: the open entries lead
to each other, and the entry that is found open for the second time is on a cycle
(`define_cyclic`).  No entry is open inside of more entries than there are (`defineNested_eq`).
-/

namespace LinkedQuery

theorem map_eq_error {ε α β : Type} {f : α → β} {step : Except ε α} {fault : ε} :
  step.map f = .error fault ↔ step = .error fault
  := by
  cases step with
  | error fault => simp [Except.map]
  | ok value => simp [Except.map]

namespace Creation

/-! ### References of entries -/

/-- The texts from which the IRIs in the definition of a term are made. -/
inductive Mentions (term : String) : Json → String → Prop where
  | value (text : String) : Mentions term (.string text) text
  | reverse {object : Entries Json} {text : String}
      (backward : object.lookup Keyword.reverse.text = some (.string text)) :
      Mentions term (.object object) text
  | id {object : Entries Json} {text : String}
      (forward : object.lookup Keyword.reverse.text = none)
      (named : object.lookup Keyword.id.text = some (.string text)) :
      Mentions term (.object object) text
  | type {object : Entries Json} {text : String}
      (typed : object.lookup Keyword.type.text = some (.string text)) :
      Mentions term (.object object) text
  /-- The term itself, where its definition names nothing else. -/
  | itself {object : Entries Json}
      (forward : object.lookup Keyword.reverse.text = none)
      (unnamed : object.lookup Keyword.id.text = none)
      (compact : (Iri.compact? term).isSome = true) :
      Mentions term (.object object) term

/-- The names to which a text refers in the definition of a term: the lead of a compact IRI, unless
it is the term, or the whole of what is not an IRI by its form. -/
inductive Names (term text : String) : String → Prop where
  | lead {lead suffix : String} (free : Keyword.isKeyword text = false)
      (compact : Iri.compact? text = some (lead, suffix)) (foreign : lead ≠ term) :
      Names term text lead
  | whole (free : Keyword.isKeyword text = false) (simple : Iri.compact? text = none)
      (relative : Iri.hasScheme text = false) :
      Names term text text

/-- Whether an entry refers to an entry, which may be the same. -/
def Refers (declared : Entries Json) (term other : String) : Prop :=
  ∃ entry text, declared.lookup term = some entry ∧ Mentions term entry text ∧
    Names term text other ∧ other ∈ declared.names

section Refers

variable {declared : Entries Json} {term other text : String} {entry : Json}

theorem names_iff :
  Names term text other ↔ reference? term text = some other
  := by
  unfold reference?
  constructor
  · rintro (⟨free, compact, foreign⟩ | ⟨free, simple, relative⟩)
    · simp [free, compact, foreign]
    · simp [free, simple, relative]
  · intro h
    cases hkeyword : Keyword.isKeyword text with
    | true => simp [hkeyword] at h
    | false =>
        cases hcompact : Iri.compact? text with
        | some parts =>
            obtain ⟨lead, suffix⟩ := parts
            simp only [hkeyword, hcompact, Bool.false_eq_true, if_false,
              Option.ite_none_left_eq_some, Option.some.injEq] at h
            obtain ⟨foreign, rfl⟩ := h
            apply Names.lead hkeyword hcompact foreign
        | none =>
            simp only [hkeyword, hcompact, Bool.false_eq_true, if_false,
              Option.ite_none_left_eq_some, Bool.not_eq_true, Option.some.injEq] at h
            obtain ⟨relative, rfl⟩ := h
            apply Names.whole hkeyword hcompact relative

/-- What the texts of an entry refer to are its references. -/
theorem mem_references_iff :
  other ∈ references term entry ↔ ∃ text, Mentions term entry text ∧ Names term text other
  := by
  simp only [names_iff]
  constructor
  · intro h
    cases entry with
    | string text =>
        use text, .value text
        simpa [references] using h
    | object object =>
        simp only [references, List.mem_append, Option.mem_toList] at h
        obtain h | h := h
        · unfold mappingReference? at h
          cases hreverse : object.lookup Keyword.reverse.text with
          | some reversed =>
              cases reversed with
              | string text => exact ⟨text, .reverse hreverse, by simpa [hreverse] using h⟩
              | _ => simp [hreverse] at h
          | none =>
              cases hid : object.lookup Keyword.id.text with
              | some named =>
                  cases named with
                  | string text => exact ⟨text, .id hreverse hid, by simpa [hreverse, hid] using h⟩
                  | _ => simp [hreverse, hid] at h
              | none =>
                  simp only [hreverse, hid, Option.ite_none_right_eq_some] at h
                  cases hcompact : Iri.compact? term with
                  | some parts => exact ⟨term, .itself hreverse hid (by simp [hcompact]), h.2⟩
                  | none =>
                      obtain ⟨scheme, h⟩ := h
                      simp_all [reference?]
        · unfold coercionReference? at h
          cases htype : object.lookup Keyword.type.text with
          | none => simp [htype] at h
          | some type =>
              cases type with
              | string text => exact ⟨text, .type htype, by simpa [htype] using h⟩
              | _ => simp [htype] at h
    | _ => simp [references] at h
  · rintro ⟨text, mentions, h⟩
    cases mentions with
    | value => simpa [references] using h
    | reverse backward => simp [references, mappingReference?, backward, h]
    | id forward named => simp [references, mappingReference?, forward, named, h]
    | type typed => simp [references, coercionReference?, typed, h]
    | itself forward unnamed compact =>
        simp [references, mappingReference?, forward, unnamed, compact, h]

theorem refers_iff :
  Refers declared term other
    ↔ ∃ entry, declared.lookup term = some entry ∧ other ∈ references term entry ∧
        other ∈ declared.names
  := by
  simp only [Refers, mem_references_iff]
  grind

theorem Refers.mem_names (refers : Refers declared term other) :
  other ∈ declared.names
  := by
  obtain ⟨entry, text, -, -, -, h⟩ := refers
  apply h

end Refers

/-! ### Terms on a cycle -/

section Runs

variable {declared : Entries Json} {start final : Creation} {term other : String}

/-- What is defined refers to what is defined. -/
theorem Reaches.closed (run : Reaches declared start final) (fresh : start.done = [])
    (h : term ∈ final.done) (refers : Refers declared term other) :
  other ∈ final.done
  := by
  obtain ⟨between, value, defined, reached, ready, rest⟩ := run.history h (by simp [fresh])
  obtain ⟨entry, hentry, hother, declares⟩ := refers_iff.mp refers
  obtain rfl : value = entry := by simpa using ready.entry.symm.trans hentry
  apply Reaches.done_mono rest
  apply (mem_done_record _ _ _).mpr (.inr (ready.known other hother declares))

/-- What is defined is on no cycle: the last entry on it would have been defined before it was. -/
theorem Reaches.acyclic (run : Reaches declared start final) (fresh : start.done = [])
    (h : term ∈ final.done) :
  ¬ Relation.TransGen (Refers declared) term term
  := by
  induction run generalizing term with
  | refl => simp [fresh] at h
  | @tail before _ run step ih =>
      cases step with
      | @record last value defined ready =>
          obtain rfl | h := (mem_done_record _ _ _).mp h
          · intro cycle
            -- The entry refers to what has been defined, from where the cycle does not lead back.
            obtain ⟨other, refers, back⟩ := Relation.TransGen.head'_iff.mp cycle
            obtain ⟨entry, hentry, hother, declares⟩ := refers_iff.mp refers
            obtain rfl : value = entry := by simpa using ready.entry.symm.trans hentry
            apply ready.fresh
            have hbefore := ready.known other hother declares
            clear refers hother declares cycle
            induction back using Relation.ReflTransGen.head_induction_on with
            | refl => apply hbefore
            | head refers _ ih => apply ih (Reaches.closed run fresh hbefore refers)
          · apply ih h

end Runs

/-! ### Faults -/

section Faults

variable {declared : Entries Json} {define : Definer} {context : Context} {term : String}
  {state : Creation} {fault : ContextFault}

theorem inVocab_error {name : String} (h : inVocab term name state = .error fault) :
  fault = .invalidIriMapping term
  := by
  unfold inVocab at h
  split at h
  · cases h
  · cases h
    rfl

theorem resolved_error {value : String} (h : resolved context term value = .error fault) :
  fault = .invalidIriMapping term
  := by
  unfold resolved at h
  split at h
  · cases h
  · split at h
    · cases h
    · split at h
      · cases h
      · split at h
        · cases h
        · apply inVocab_error h

theorem resolve_stay_error {value : String}
    (h : resolve [] stay term value ⟨context, []⟩ = .error fault) :
  fault = .invalidIriMapping term
  := by
  rw [resolve_stay, bind_eq_error] at h
  obtain h | ⟨iri, -, ⟨⟩⟩ := h
  apply resolved_error h

theorem mappingIn_error {object : Entries Json} (h : mappingIn context term object = .error fault) :
  fault = .invalidIriMapping term
  := by
  rw [mappingIn, map_eq_error, mapping] at h
  split at h
  · obtain h | ⟨known, -, ⟨⟩⟩ := bind_eq_error.mp h
    apply resolve_stay_error h
  · cases h
    rfl
  · split at h
    · cases h
    · obtain h | ⟨known, -, ⟨⟩⟩ := bind_eq_error.mp h
      apply resolve_stay_error h
    · cases h
      rfl
    · obtain h | ⟨known, -, ⟨⟩⟩ := bind_eq_error.mp h
      unfold resolveItself at h
      split at h
      · apply resolve_stay_error h
      · obtain h | ⟨iri, -, ⟨⟩⟩ := bind_eq_error.mp h
        apply inVocab_error h

theorem coercionIn_error {type : Option Json} (h : coercionIn context term type = .error fault) :
  fault = .invalidIriMapping term ∨ fault = .invalidTermDefinition term
  := by
  rw [coercionIn, map_eq_error] at h
  unfold coercion at h
  split at h
  · cases h
  · cases h
  · split at h
    · cases h
    · cases h
    · cases h
    · obtain h | ⟨known, -, ⟨⟩⟩ := bind_eq_error.mp h
      apply Or.inl (resolve_stay_error h)
  · cases h
    apply Or.inr rfl

theorem containers_error {value : Option Json} (h : containers value = .error fault) :
  ∃ found, fault = .invalidContainer found
  := by
  have single {name : String} (h : container name = .error fault) :
      ∃ found, fault = .invalidContainer found := by
    unfold container at h
    split at h
    · cases h
    · cases h
      use name
  unfold containers at h
  split at h
  · cases h
  · rw [bind_eq_error] at h
    obtain h | ⟨found, -, ⟨⟩⟩ := h
    apply single h
  · rename_i items
    induction items with
    | nil => cases h
    | cons item items ih =>
        rw [List.mapM_cons, bind_eq_error] at h
        obtain h | ⟨found, -, h⟩ := h
        · split at h
          · apply single h
          · cases h
            use item.text
        · rw [bind_eq_error] at h
          obtain h | ⟨others, -, ⟨⟩⟩ := h
          apply ih h
  · rename_i other _ _
    cases h
    use other.text

/-- Names that cannot all be required include an entry that cannot be defined. -/
theorem requireAll_error {names : List String}
    (h : requireAll declared define names state = .error fault) :
  ∃ name ∈ names, name ∈ declared.names ∧ ∃ between, define name between = .error fault
  := by
  induction names generalizing state with
  | nil => cases h
  | cons name names ih =>
      rw [requireAll, List.foldlM_cons, bind_eq_error] at h
      obtain h | ⟨between, -, h⟩ := h
      · unfold require at h
        split at h
        · use name, by simp, ‹_›, state
        · cases h
      · obtain ⟨other, hother, rest⟩ := ih h
        use other, by simp [hother]

/-- The definition of an entry fails for a reason of its own, which is no cycle, or because it
refers to an entry that cannot be defined. -/
theorem definition_cyclic {name : String}
    (h : definition declared define term state = .error (.cyclicIriMapping name)) :
  ∃ other between, Refers declared term other
    ∧ define other between = .error (.cyclicIriMapping name)
  := by
  have required {entry : Json} {names : List String} {state : Creation}
      (hentry : declared.lookup term = some entry)
      (h : requireAll declared define names state = .error (.cyclicIriMapping name))
      (referred : names ⊆ references term entry) :
      ∃ other between, Refers declared term other
        ∧ define other between = .error (.cyclicIriMapping name) := by
    obtain ⟨other, hother, declares, between, hdefine⟩ := requireAll_error h
    use other, between, refers_iff.mpr ⟨entry, hentry, referred hother, declares⟩
  cases entry : declared.lookup term with
  | none => simp [definition, entry] at h
  | some value =>
      cases value with
      | null => simp [definition, entry] at h
      | string text =>
          rw [definition_string _ _ _ _ entry, bind_eq_error] at h
          obtain h | ⟨known, -, h⟩ := h
          · apply required entry h
            simp [references]
          · rw [bind_eq_error] at h
            obtain h | ⟨iri, -, ⟨⟩⟩ := h
            cases resolved_error h
      | object object =>
          rw [definition_object _ _ _ _ entry] at h
          simp only [bind_eq_error] at h
          obtain h | ⟨known, -, h | ⟨mapped, -, h | ⟨found, -, h | ⟨known', -, h |
            ⟨coerced, -, ⟨⟩⟩⟩⟩⟩⟩ := h
          · apply required entry h
            simp [references]
          · cases mappingIn_error h
          · obtain ⟨found, ⟨⟩⟩ := containers_error h
          · apply required entry h
            simp [references]
          · obtain ⟨⟨⟩⟩ | ⟨⟨⟩⟩ := coercionIn_error h
      | _ => simp [definition, entry] at h

end Faults

section Define

variable {declared : Entries Json} {waiting : List String} {term name : String}
  {state : Creation}

/-- A cycle is found where an entry is open already, or further on from an entry that is opened. -/
theorem define_cyclic_cases
    (h : define declared waiting term state = .error (.cyclicIriMapping name)) :
  Keyword.isKeyword term = false ∧ (term ∉ waiting ∧ name = term
    ∨ term ∈ waiting ∧ definition declared (define declared (waiting.erase term)) term state
        = .error (.cyclicIriMapping name))
  := by
  rw [define] at h
  cases hkeyword : Keyword.isKeyword term with
  | true => simp [hkeyword] at h
  | false =>
      use rfl
      by_cases hdone : term ∈ state.done
      · simp [hkeyword, hdone] at h
      · by_cases hwaits : term ∈ waiting
        · simp only [hkeyword, hdone, hwaits, Bool.false_eq_true, if_false, dif_pos] at h
          right
          use hwaits
          split at h
          · cases h
            assumption
          · cases h
        · simp only [hkeyword, hdone, hwaits, Bool.false_eq_true, if_false, dif_neg,
            not_false_eq_true, Except.error.injEq, ContextFault.cyclicIriMapping.injEq] at h
          apply Or.inl ⟨hwaits, h.symm⟩

end Define

/-- An entry is found open again only behind a cycle: what is being defined leads to it, and it is
not waiting any more. -/
theorem define_cyclic {declared : Entries Json} {waiting : List String} {term name : String}
    {state : Creation} (entry : term ∈ declared.names)
    (h : define declared waiting term state = .error (.cyclicIriMapping name)) :
  (∃ other ∈ declaredTerms declared, Relation.TransGen (Refers declared) other other)
    ∨ Relation.ReflTransGen (Refers declared) term name ∧ name ∉ waiting
  := by
  obtain ⟨plain, ⟨opened, rfl⟩ | ⟨waits, hdefinition⟩⟩ := define_cyclic_cases h
  · apply Or.inr ⟨.refl, opened⟩
  · obtain ⟨other, between, refers, hdefine⟩ := definition_cyclic hdefinition
    obtain cycle | ⟨path, opened⟩ := define_cyclic refers.mem_names hdefine
    · apply Or.inl cycle
    · by_cases hname : name = term
      · left
        use term, (mem_declaredTerms plain).mpr entry
        apply Relation.TransGen.head' refers (hname ▸ path)
      · right
        use .head refers path
        intro hwaits
        apply opened ((List.mem_erase_of_ne hname).mpr hwaits)
termination_by waiting.length
decreasing_by
  rw [List.length_erase_of_mem waits]
  have := List.length_pos_of_mem waits
  omega

/-- An object whose terms cannot be declared for a cycle has a term on a cycle. -/
theorem declare_cyclic {declared : Entries Json} {context : Context} {name : String}
    (h : context.declare declared = .error (.cyclicIriMapping name)) :
  ∃ term ∈ declaredTerms declared, Relation.TransGen (Refers declared) term term
  := by
  rw [declare_eq, bind_eq_error] at h
  obtain h | ⟨final, -, ⟨⟩⟩ := h
  obtain ⟨term, -, entry, state, hdefine⟩ := requireAll_error h
  obtain cycle | ⟨path, opened⟩ := define_cyclic entry hdefine
  · apply cycle
  · exfalso
    apply opened
    cases path with
    | refl => apply entry
    | tail _ refers => apply refers.mem_names

/-! ### Levels of open entries -/

/-- Defines an entry inside of others that are open.  What would be opened inside of more entries
than there are levels is left to another way to define it. -/
def defineNested (declared : Entries Json) (deeper : Definer) :
    (levels : Nat) → (opened : List String) → Definer
  | 0, _ => deeper
  | levels + 1, opened => fun term state =>
    if Keyword.isKeyword term then .error (.keywordRedefinition term)
    else if term ∈ state.done then .ok state
    else if term ∈ opened then .error (.cyclicIriMapping term)
    else
      match definition declared (defineNested declared deeper levels (term :: opened)) term state
        with
      | .error fault => .error fault
      | .ok (defined, state) => .ok (state.record term defined)

/-- Declares the terms of an object, with entries open inside of each other up to some levels. -/
def declareNested (declared : Entries Json) (deeper : Definer) (levels : Nat)
    (context : Context) : Except ContextFault Context := do
  let state ← requireAll declared (defineNested declared deeper levels []) (declaredTerms declared)
    ⟨context, []⟩
  .ok state.context

/-- Only entries are asked for. -/
theorem require_congr {declared : Entries Json} {define define' : Definer}
    (h : ∀ name ∈ declared.names, define name = define' name) :
  require declared define = require declared define'
  := by
  funext name state
  unfold require
  split
  · rw [h name ‹_›]
  · rfl

theorem definition_congr {declared : Entries Json} {define define' : Definer}
    (h : ∀ name ∈ declared.names, define name = define' name) (term : String) (state : Creation) :
  definition declared define term state = definition declared define' term state
  := by
  simp only [definition, mapping, coercion, resolveItself, resolve, require_congr h]

/-- With a level for each entry that is waiting and one more for finding a cycle, nothing is opened
too deep. -/
theorem defineNested_eq {declared : Entries Json} (deeper : Definer) {levels : Nat}
    {opened waiting : List String} (distinct : waiting.Nodup)
    (split : ∀ name ∈ declared.names, name ∈ waiting ↔ name ∉ opened)
    (enough : waiting.length < levels) :
  ∀ name ∈ declared.names, defineNested declared deeper levels opened name
    = define declared waiting name
  := by
  -- Opening an entry takes it off those that wait, as it takes one level.
  induction levels generalizing opened waiting with
  | zero => simp at enough
  | succ levels ih =>
      intro term entry
      funext state
      rw [defineNested, define]
      by_cases hopen : term ∈ opened
      · have hwaits : term ∉ waiting := fun h => (split term entry).mp h hopen
        simp [hopen, hwaits]
      · have hwaits : term ∈ waiting := (split term entry).mpr hopen
        have rest : definition declared (defineNested declared deeper levels (term :: opened)) term
              state
            = definition declared (define declared (waiting.erase term)) term state := by
          apply definition_congr
          apply ih (distinct.erase term)
          · intro name hname
            rw [distinct.mem_erase_iff, split name hname, List.mem_cons, not_or]
          · rw [List.length_erase_of_mem hwaits]
            have := List.length_pos_of_mem hwaits
            omega
        cases found : definition declared (define declared (waiting.erase term)) term state with
        | error fault => simp [hopen, hwaits, rest, found]
        | ok result => simp [hopen, hwaits, rest, found]

/-- Declaring the terms of an object never opens an entry inside of more entries than there are. -/
theorem declareNested_eq {declared : Entries Json} (distinct : declared.names.Nodup)
    (deeper : Definer) (context : Context) :
  declareNested declared deeper (declared.length + 1) context = context.declare declared
  := by
  have same : require declared (defineNested declared deeper (declared.length + 1) [])
      = require declared (define declared declared.names) := by
    apply require_congr
    apply defineNested_eq deeper distinct (by simp)
    simp [Entries.names]
  rw [declareNested, declare_eq, requireAll, requireAll, same]

end Creation

end LinkedQuery
