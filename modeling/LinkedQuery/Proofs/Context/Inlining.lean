import LinkedQuery.Proofs.Context.Frame
import Mathlib.Tactic.Use

/-!
# Inlining documents

A local context refers to documents by strings, and their contexts to further documents.  With every
string replaced by the context of its document it is processed to the same end, as long as no
chain of strings is longer than the depth (`follow_inlined`), and a longer chain makes it fail
(`Chain.fails`).  This is without a base, where a string is the IRI of its document.  With any base
and any loader, also one whose documents refer to themselves, processing comes to an end
(`evaluates_iff`).
-/

namespace LinkedQuery

/-- A document with a context is behind a reference. -/
def Loader.Yields (loader : Loader) (reference : String) (remote : Json) : Prop :=
  ∃ document, loader reference = .ok document
    ∧ document.entry? Keyword.context.text = some remote

/-- There is one document behind a reference. -/
theorem Loader.Yields.unique {loader : Loader} {reference : String} {remote other : Json}
    (one : loader.Yields reference remote) (two : loader.Yields reference other) :
  remote = other
  := by
  obtain ⟨document, loads, held⟩ := one
  obtain ⟨document', loads', held'⟩ := two
  obtain rfl : document = document' := by simpa using loads.symm.trans loads'
  simpa using held.symm.trans held'

namespace Context

/-! ### Evaluation -/

mutual

/-- What becomes of a context under a local context that is behind some strings: the depth is
counted up with each of them, and nothing but the number of strings limits it. -/
inductive Evaluates (loader : Loader) :
    Nat → Context → Json → Except ContextFault Context → Prop where
  | null {depth : Nat} {context : Context} : Evaluates loader depth context .null (.ok {})
  | boolean {depth : Nat} {context : Context} {value : Bool} :
      Evaluates loader depth context (.boolean value) (.error (.notContext (.boolean value)))
  | number {depth : Nat} {context : Context} {value : Number} :
      Evaluates loader depth context (.number value) (.error (.notContext (.number value)))
  | object {depth : Nat} {context : Context} {declared : Entries Json} :
      Evaluates loader depth context (.object declared) (context.withObject declared)
  | array {depth : Nat} {context : Context} {items : List Json}
      {outcome : Except ContextFault Context}
      (each : EvaluatesEach loader depth context items outcome) :
      Evaluates loader depth context (.array items) outcome
  | deep {depth : Nat} {context : Context} {reference : String} (deep : greatestDepth ≤ depth) :
      Evaluates loader depth context (.string reference) (.error (.recursionLimit reference))
  | absent {depth : Nat} {context : Context} {reference : String} {fault : ContextFault}
      (shallow : depth < greatestDepth)
      (absent : loader (context.referenceIri reference) = .error fault) :
      Evaluates loader depth context (.string reference) (.error fault)
  | bare {depth : Nat} {context : Context} {reference : String} {document : Json}
      (shallow : depth < greatestDepth)
      (loads : loader (context.referenceIri reference) = .ok document)
      (bare : document.entry? Keyword.context.text = none) :
      Evaluates loader depth context (.string reference)
        (.error (.missingContext (context.referenceIri reference)))
  | document {depth : Nat} {context : Context} {reference : String} {document remote : Json}
      {outcome : Except ContextFault Context} (shallow : depth < greatestDepth)
      (loads : loader (context.referenceIri reference) = .ok document)
      (held : document.entry? Keyword.context.text = some remote)
      (inner : Evaluates loader (depth + 1) context remote outcome) :
      Evaluates loader depth context (.string reference) outcome

/-- What becomes of a context under local contexts that follow each other. -/
inductive EvaluatesEach (loader : Loader) :
    Nat → Context → List Json → Except ContextFault Context → Prop where
  | nil {depth : Nat} {context : Context} : EvaluatesEach loader depth context [] (.ok context)
  | fails {depth : Nat} {context : Context} {item : Json} {items : List Json}
      {fault : ContextFault} (first : Evaluates loader depth context item (.error fault)) :
      EvaluatesEach loader depth context (item :: items) (.error fault)
  | cons {depth : Nat} {context next : Context} {item : Json} {items : List Json}
      {outcome : Except ContextFault Context}
      (first : Evaluates loader depth context item (.ok next))
      (others : EvaluatesEach loader depth next items outcome) :
      EvaluatesEach loader depth context (item :: items) outcome

end

mutual

/-- A context becomes nothing else than what it is processed to, with the strings that are left. -/
theorem Evaluates.processWith_eq {loader : Loader} :
    ∀ {depth : Nat} {context : Context} {declared : Json} {outcome : Except ContextFault Context},
      Evaluates loader depth context declared outcome →
      processWith (follow loader (greatestDepth - depth)) context declared = outcome
  | _, _, _, _, .null => rfl
  | _, _, _, _, .boolean => rfl
  | _, _, _, _, .number => rfl
  | _, _, _, _, .object => rfl
  | _, _, _, _, .array each => each.processEach_eq
  | _, _, _, _, .deep deep => by
      rw [Nat.sub_eq_zero_of_le deep]
      rfl
  | _, _, _, _, .absent shallow absent => by
      rw [← Nat.succ_pred_eq_of_pos (Nat.sub_pos_of_lt shallow)]
      simp only [processWith, follow, absent]
      rfl
  | _, _, _, _, .bare shallow loads bare => by
      rw [← Nat.succ_pred_eq_of_pos (Nat.sub_pos_of_lt shallow)]
      simp only [processWith, follow, loads, ok_bind, bare]
  | _, _, _, _, .document shallow loads held inner => by
      rw [← Nat.succ_pred_eq_of_pos (Nat.sub_pos_of_lt shallow), Nat.pred_eq_sub_one, Nat.sub_sub]
      simp only [processWith, follow, loads, ok_bind, held]
      apply inner.processWith_eq

theorem EvaluatesEach.processEach_eq {loader : Loader} :
    ∀ {depth : Nat} {context : Context} {items : List Json}
      {outcome : Except ContextFault Context},
      EvaluatesEach loader depth context items outcome →
      processEach (follow loader (greatestDepth - depth)) context items = outcome
  | _, _, _, _, .nil => rfl
  | _, _, _, _, .fails first => by
      rw [processEach, first.processWith_eq]
  | _, _, _, _, .cons first others => by
      rw [processEach, first.processWith_eq]
      apply others.processEach_eq

end

/-- A way to follow strings at a depth that is what becomes of a context there. -/
def Follower.Evaluating (loader : Loader) (depth : Nat) (follow : Follower) : Prop :=
  ∀ reference context,
    Evaluates loader depth context (.string reference) (follow context reference)

mutual

theorem evaluates_processWith {loader : Loader} {depth : Nat} {follow : Follower}
    (evaluating : follow.Evaluating loader depth) :
    ∀ (declared : Json) (context : Context),
      Evaluates loader depth context declared (processWith follow context declared)
  | .null, _ => .null
  | .boolean _, _ => .boolean
  | .number _, _ => .number
  | .object _, _ => .object
  | .string reference, context => evaluating reference context
  | .array items, context => .array (evaluatesEach_processEach evaluating items context)

theorem evaluatesEach_processEach {loader : Loader} {depth : Nat} {follow : Follower}
    (evaluating : follow.Evaluating loader depth) :
    ∀ (items : List Json) (context : Context),
      EvaluatesEach loader depth context items (processEach follow context items)
  | [], _ => .nil
  | item :: items, context => by
      have first := evaluates_processWith evaluating item context
      rw [processEach]
      cases hfirst : processWith follow context item with
      | error fault =>
          rw [hfirst] at first
          apply EvaluatesEach.fails first
      | ok next =>
          rw [hfirst] at first
          apply EvaluatesEach.cons first (evaluatesEach_processEach evaluating items next)

end

/-- Whatever the loader answers, a string is followed to an end, with the strings that are left. -/
theorem follow_evaluating (loader : Loader) (left : Nat) :
    ∀ depth, depth + left = greatestDepth → Follower.Evaluating loader depth (follow loader left)
  := by
  induction left with
  | zero =>
      intro depth whole reference context
      apply Evaluates.deep (Nat.le_of_eq whole.symm)
  | succ left ih =>
      intro depth whole reference context
      have shallow : depth < greatestDepth := by omega
      rw [follow]
      cases loads : loader (context.referenceIri reference) with
      | error fault => apply Evaluates.absent shallow loads
      | ok document =>
          rw [ok_bind]
          split
          · rename_i remote held
            apply Evaluates.document shallow loads held
            apply evaluates_processWith (ih (depth + 1) (by omega))
          · rename_i bare
            apply Evaluates.bare shallow loads bare

/-- A local context is processed to an end, whatever the loader answers. -/
theorem evaluates_iff {loader : Loader} {context : Context} {declared : Json}
    {outcome : Except ContextFault Context} :
  Evaluates loader 0 context declared outcome ↔ context.process loader declared = outcome
  := by
  constructor
  · intro evaluates
    apply evaluates.processWith_eq
  · rintro rfl
    apply evaluates_processWith (follow_evaluating loader greatestDepth 0 (Nat.zero_add _))

/-! ### Contexts without a base -/

/-- An object without an entry for the base leaves the base as it is. -/
theorem withObject_base {context result : Context} {declared : Entries Json}
    (free : declared.lookup Keyword.base.text = none)
    (h : context.withObject declared = .ok result) :
  result.base = context.base
  := by
  obtain ⟨keyed, hkeyed, hdeclare⟩ := bind_eq_ok.mp h
  obtain ⟨done, declares⟩ := Creation.declare_keeps
    (fun state final => final.context.base = state.context.base)
    (fun _ => rfl) (fun _ _ _ first second => second.trans first) (fun _ _ _ => rfl) hdeclare
  apply Eq.trans declares
  apply (withKeywords_frame hkeyed).2.1 free

/-! ### What is involved in a local context -/

/-- What is involved in a local context: itself, the items of arrays, and the contexts of the
documents to which strings refer. -/
inductive Involves (loader : Loader) : Json → Json → Prop where
  | self {declared : Json} : Involves loader declared declared
  | item {items : List Json} {item found : Json} (member : item ∈ items)
      (inner : Involves loader item found) :
      Involves loader (.array items) found
  | document {reference : String} {remote found : Json}
      (yields : loader.Yields reference remote) (inner : Involves loader remote found) :
      Involves loader (.string reference) found

/-- A chain of strings, each of them in the context of the document to which the one before it
refers. -/
inductive Chain (loader : Loader) : Json → List String → Prop where
  | last {reference : String} : Chain loader (.string reference) [reference]
  | item {items : List Json} {item : Json} {chain : List String} (member : item ∈ items)
      (inner : Chain loader item chain) :
      Chain loader (.array items) chain
  | document {reference : String} {remote : Json} {chain : List String}
      (yields : loader.Yields reference remote) (inner : Chain loader remote chain) :
      Chain loader (.string reference) (reference :: chain)

mutual

/-- A local context with every string replaced by the context of its document. -/
inductive Inlines (loader : Loader) : Json → Json → Prop where
  | null : Inlines loader .null .null
  | boolean (value : Bool) : Inlines loader (.boolean value) (.boolean value)
  | number (value : Number) : Inlines loader (.number value) (.number value)
  | object (entries : Entries Json) : Inlines loader (.object entries) (.object entries)
  | array {items inlined : List Json} (each : InlinesEach loader items inlined) :
      Inlines loader (.array items) (.array inlined)
  | string {reference : String} {remote inlined : Json}
      (yields : loader.Yields reference remote) (inner : Inlines loader remote inlined) :
      Inlines loader (.string reference) inlined

/-- Local contexts that follow each other, with every string replaced. -/
inductive InlinesEach (loader : Loader) : List Json → List Json → Prop where
  | nil : InlinesEach loader [] []
  | cons {item inlined : Json} {items rest : List Json} (first : Inlines loader item inlined)
      (others : InlinesEach loader items rest) :
      InlinesEach loader (item :: items) (inlined :: rest)

end

/-- Whether no context involved sets the base. -/
def LeavesBase (loader : Loader) (declared : Json) : Prop :=
  ∀ entries, Involves loader declared (.object entries) →
    entries.lookup Keyword.base.text = none

/-- Whether the documents of all strings are there, with contexts. -/
def Complete (loader : Loader) (declared : Json) : Prop :=
  ∀ reference, Involves loader declared (.string reference) →
    ∃ remote, loader.Yields reference remote

/-- Whether no chain of strings is longer than a depth. -/
def Within (loader : Loader) (depth : Nat) (declared : Json) : Prop :=
  ∀ chain, Chain loader declared chain → chain.length ≤ depth

section Involved

variable {loader : Loader} {items : List Json} {entries : Entries Json} {remote : Json}
  {reference : String} {depth : Nat}

theorem leavesBase_object :
  LeavesBase loader (.object entries) ↔ entries.lookup Keyword.base.text = none
  := by
  constructor
  · intro leaves
    apply leaves entries .self
  · intro h found involved
    cases involved
    apply h

theorem leavesBase_array :
  LeavesBase loader (.array items) ↔ ∀ item ∈ items, LeavesBase loader item
  := by
  constructor
  · intro leaves item member found inner
    apply leaves found (.item member inner)
  · intro h found involved
    cases involved with
    | item member inner => apply h _ member found inner

theorem leavesBase_string (yields : loader.Yields reference remote) :
  LeavesBase loader (.string reference) ↔ LeavesBase loader remote
  := by
  constructor
  · intro leaves found inner
    apply leaves found (.document yields inner)
  · intro h found involved
    cases involved with
    | document other inner =>
        obtain rfl := other.unique yields
        apply h found inner

theorem complete_object :
  Complete loader (.object entries)
  := by
  intro reference involved
  cases involved

theorem complete_array :
  Complete loader (.array items) ↔ ∀ item ∈ items, Complete loader item
  := by
  constructor
  · intro complete item member found inner
    apply complete found (.item member inner)
  · intro h found involved
    cases involved with
    | item member inner => apply h _ member found inner

theorem complete_string (yields : loader.Yields reference remote) :
  Complete loader (.string reference) ↔ Complete loader remote
  := by
  constructor
  · intro complete found inner
    apply complete found (.document yields inner)
  · intro h found involved
    cases involved with
    | self => use remote
    | document other inner =>
        obtain rfl := other.unique yields
        apply h found inner

theorem within_object :
  Within loader depth (.object entries)
  := by
  intro chain linked
  cases linked

theorem within_array :
  Within loader depth (.array items) ↔ ∀ item ∈ items, Within loader depth item
  := by
  constructor
  · intro within item member chain inner
    apply within chain (.item member inner)
  · intro h chain linked
    cases linked with
    | item member inner => apply h _ member chain inner

theorem within_string (yields : loader.Yields reference remote) :
  Within loader (depth + 1) (.string reference) ↔ Within loader depth remote
  := by
  constructor
  · intro within chain inner
    have := within _ (.document yields inner)
    simpa using this
  · intro h chain linked
    cases linked with
    | last => simp
    | document other inner =>
        obtain rfl := other.unique yields
        simpa using h _ inner

/-- A string is a chain by itself. -/
theorem Within.pos (within : Within loader depth (.string reference)) :
  0 < depth
  := within _ .last

/-- Without a base a string is the IRI of its document. -/
theorem follow_yields {context : Context} (based : context.base = none)
    (yields : loader.Yields reference remote) (depth : Nat) :
  follow loader (depth + 1) context reference = processWith (follow loader depth) context remote
  := by
  obtain ⟨document, loads, held⟩ := yields
  simp only [follow, referenceIri, based, loads, ok_bind, held]

end Involved

/-! ### The base stays away -/

section Base

variable {loader : Loader}

/-- A way to follow strings that makes no base. -/
def Follower.Baseless (loader : Loader) (follow : Follower) : Prop :=
  ∀ reference context result, LeavesBase loader (.string reference) → context.base = none →
    follow context reference = .ok result → result.base = none

mutual

theorem processWith_base {follow : Follower} (baseless : follow.Baseless loader) :
    ∀ (declared : Json) (context result : Context), LeavesBase loader declared →
      context.base = none → processWith follow context declared = .ok result → result.base = none
  | .null, _, _, _, _, h => by
      cases h
      rfl
  | .string reference, context, result, leaves, based, h =>
      baseless reference context result leaves based h
  | .array items, context, result, leaves, based, h =>
      processEach_base baseless items context result (leavesBase_array.mp leaves) based h
  | .object entries, context, result, leaves, based, h =>
      (withObject_base (leavesBase_object.mp leaves) h).trans based

theorem processEach_base {follow : Follower} (baseless : follow.Baseless loader) :
    ∀ (items : List Json) (context result : Context), (∀ item ∈ items, LeavesBase loader item) →
      context.base = none → processEach follow context items = .ok result → result.base = none
  | [], _, _, _, based, h => by
      cases h
      apply based
  | item :: items, context, result, leaves, based, h => by
      rw [processEach] at h
      split at h
      · cases h
      · rename_i found hfound
        have based' := processWith_base baseless item context found (leaves item (by simp)) based
          hfound
        apply processEach_base baseless items found result _ based' h
        intro other member
        apply leaves other (by simp [member])

end

/-- Following strings makes no base. -/
theorem follow_baseless (depth : Nat) :
  Follower.Baseless loader (follow loader depth)
  := by
  induction depth with
  | zero =>
      intro reference context result leaves based h
      cases h
  | succ depth ih =>
      intro reference context result leaves based h
      simp only [follow, bind_eq_ok] at h
      obtain ⟨document, loads, h⟩ := h
      split at h
      · rename_i remote held
        rw [referenceIri, based] at loads
        apply processWith_base ih remote context result _ based h
        apply (leavesBase_string ⟨document, loads, held⟩).mp leaves
      · cases h

end Base

/-! ### Inlined contexts -/

section Inlined

variable {loader : Loader}

/-- A way to follow strings that goes like their inlined contexts, where no chain is longer than a
depth. -/
def Follower.Inlined (loader : Loader) (depth : Nat) (follow : Follower) : Prop :=
  ∀ reference inlined other context, Inlines loader (.string reference) inlined →
    Within loader depth (.string reference) → LeavesBase loader (.string reference) →
    context.base = none → follow context reference = processWith other context inlined

mutual

theorem processWith_inlined {depth : Nat} {follow : Follower} (like : follow.Inlined loader depth)
    (baseless : follow.Baseless loader) (other : Follower) :
    ∀ (declared inlined : Json) (context : Context), Inlines loader declared inlined →
      Within loader depth declared → LeavesBase loader declared → context.base = none →
      processWith follow context declared = processWith other context inlined
  | .null, _, _, .null, _, _, _ => rfl
  | .boolean _, _, _, .boolean _, _, _, _ => rfl
  | .number _, _, _, .number _, _, _, _ => rfl
  | .object _, _, _, .object _, _, _, _ => rfl
  | .string reference, inlined, context, inlines, within, leaves, based =>
      like reference inlined other context inlines within leaves based
  | .array items, _, context, .array each, within, leaves, based =>
      processEach_inlined like baseless other items _ context each (within_array.mp within)
        (leavesBase_array.mp leaves) based

theorem processEach_inlined {depth : Nat} {follow : Follower} (like : follow.Inlined loader depth)
    (baseless : follow.Baseless loader) (other : Follower) :
    ∀ (items inlined : List Json) (context : Context), InlinesEach loader items inlined →
      (∀ item ∈ items, Within loader depth item) → (∀ item ∈ items, LeavesBase loader item) →
      context.base = none → processEach follow context items = processEach other context inlined
  | [], _, _, .nil, _, _, _ => rfl
  | item :: items, _, context, .cons first others, within, leaves, based => by
      rw [processEach, processEach, ← processWith_inlined like baseless other item _ context first
        (within item (by simp)) (leaves item (by simp)) based]
      cases hfound : processWith follow context item with
      | error fault => rfl
      | ok found =>
          apply processEach_inlined like baseless other items _ found others
          · intro later member
            apply within later (by simp [member])
          · intro later member
            apply leaves later (by simp [member])
          · apply processWith_base baseless item context found (leaves item (by simp)) based hfound

end

/-- A string is followed like the inlined context of its document. -/
theorem follow_inlined (depth : Nat) :
  Follower.Inlined loader depth (follow loader depth)
  := by
  induction depth with
  | zero =>
      intro reference inlined other context inlines within
      have := within.pos
      omega
  | succ depth ih =>
      intro reference inlined other context inlines within leaves based
      cases inlines with
      | string yields inner =>
          rw [follow_yields based yields]
          apply processWith_inlined ih (follow_baseless depth) other _ _ context inner
            ((within_string yields).mp within) ((leavesBase_string yields).mp leaves) based

mutual

theorem exists_inlined {depth : Nat}
    (known : ∀ reference, Complete loader (.string reference) →
      Within loader depth (.string reference) →
      ∃ inlined, Inlines loader (.string reference) inlined) :
    ∀ declared : Json, Complete loader declared → Within loader depth declared →
      ∃ inlined, Inlines loader declared inlined
  | .null, _, _ => ⟨_, .null⟩
  | .boolean _, _, _ => ⟨_, .boolean _⟩
  | .number _, _, _ => ⟨_, .number _⟩
  | .object _, _, _ => ⟨_, .object _⟩
  | .string reference, complete, within => known reference complete within
  | .array items, complete, within =>
      have ⟨inlined, each⟩ := exists_inlinedEach known items (complete_array.mp complete)
        (within_array.mp within)
      ⟨.array inlined, .array each⟩

theorem exists_inlinedEach {depth : Nat}
    (known : ∀ reference, Complete loader (.string reference) →
      Within loader depth (.string reference) →
      ∃ inlined, Inlines loader (.string reference) inlined) :
    ∀ items : List Json, (∀ item ∈ items, Complete loader item) →
      (∀ item ∈ items, Within loader depth item) → ∃ inlined, InlinesEach loader items inlined
  | [], _, _ => ⟨[], .nil⟩
  | item :: items, complete, within => by
      obtain ⟨first, hfirst⟩ := exists_inlined known item (complete item (by simp))
        (within item (by simp))
      obtain ⟨rest, hrest⟩ := exists_inlinedEach known items
        (fun other member => complete other (by simp [member]))
        (fun other member => within other (by simp [member]))
      use first :: rest, .cons hfirst hrest

end

/-- What is complete, with chains that end, can be inlined. -/
theorem Complete.exists_inlines {depth : Nat} {declared : Json}
    (complete : Complete loader declared) (within : Within loader depth declared) :
  ∃ inlined, Inlines loader declared inlined
  := by
  induction depth generalizing declared with
  | zero =>
      apply exists_inlined _ declared complete within
      intro reference _ within
      have := within.pos
      omega
  | succ depth ih =>
      apply exists_inlined _ declared complete within
      intro reference complete within
      obtain ⟨remote, yields⟩ := complete reference .self
      obtain ⟨inlined, inlines⟩ := ih ((complete_string yields).mp complete)
        ((within_string yields).mp within)
      use inlined, .string yields inlines

end Inlined

/-! ### Chains that are too long -/

section Chains

variable {loader : Loader}

/-- Local contexts that follow each other fail if one of them does, whatever context without a base
it is put on. -/
theorem processEach_fails {follow : Follower} (baseless : follow.Baseless loader)
    {items : List Json} {item : Json} (member : item ∈ items)
    (leaves : ∀ item ∈ items, LeavesBase loader item)
    (fails : ∀ context : Context, context.base = none →
      ∃ fault, processWith follow context item = .error fault)
    {context : Context} (based : context.base = none) :
  ∃ fault, processEach follow context items = .error fault
  := by
  induction items generalizing context with
  | nil => cases member
  | cons first items ih =>
      rw [processEach]
      cases hfirst : processWith follow context first with
      | error fault => exact ⟨fault, rfl⟩
      | ok found =>
          obtain rfl | member := List.mem_cons.mp member
          · obtain ⟨fault, hfault⟩ := fails context based
            rw [hfault] at hfirst
            cases hfirst
          · apply ih member
            · intro other hother
              apply leaves other (by simp [hother])
            · apply processWith_base baseless first context found (leaves first (by simp)) based
                hfirst

/-- A chain that is longer than the depth makes a local context fail. -/
theorem Chain.fails {declared : Json} {chain : List String} (linked : Chain loader declared chain)
    {depth : Nat} (long : depth < chain.length) (leaves : LeavesBase loader declared)
    {context : Context} (based : context.base = none) :
  ∃ fault, processWith (follow loader depth) context declared = .error fault
  := by
  induction linked generalizing depth context with
  | @last reference =>
      obtain rfl : depth = 0 := by simpa using long
      use .recursionLimit reference
      rfl
  | item member _ ih =>
      have leaves := leavesBase_array.mp leaves
      apply processEach_fails (follow_baseless depth) member leaves
        (fun _ => ih long (leaves _ member)) based
  | @document reference remote chain yields _ ih =>
      cases depth with
      | zero =>
          use .recursionLimit reference
          rfl
      | succ depth =>
          rw [processWith, follow_yields based yields]
          apply ih (by simpa using long) ((leavesBase_string yields).mp leaves) based

end Chains

end Context

end LinkedQuery
