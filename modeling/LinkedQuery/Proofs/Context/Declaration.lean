import LinkedQuery.Proofs.Context.References
import Mathlib.Logic.Relation
import Mathlib.Tactic.Use

/-!
# Declarations

The declaration of terms is a run of steps, each of which defines an entry after everything to which
it refers.  Two runs agree on all that both of them have defined (`Reaches.agree`), so the order of
the steps does not matter.  Searching for an order by opening entries yields such a run
(`define_sound`), and finds one whenever there is one (`define_complete`).
-/

namespace LinkedQuery

namespace Creation

/-! ### Steps -/

/-- An entry whose turn it is: it is not defined yet, and everything to which it refers is. -/
structure Ready (declared : Entries Json) (state : Creation) (term : String) (value : Json)
    (defined : Definition) : Prop where
  fresh : term ∉ state.done
  plain : Keyword.isKeyword term = false
  entry : declared.lookup term = some value
  known : ∀ name ∈ references term value, name ∈ declared.names → name ∈ state.done
  reads : entryDefinition state.context term value = .ok defined

/-- The definition of an entry whose turn it is. -/
inductive Step (declared : Entries Json) : Creation → Creation → Prop where
  | record {state : Creation} {term : String} {value : Json} {defined : Definition}
      (ready : Ready declared state term value defined) :
      Step declared state (state.record term defined)

/-- A run of steps. -/
abbrev Reaches (declared : Entries Json) : Creation → Creation → Prop :=
  Relation.ReflTransGen (Step declared)

section Record

variable (state : Creation) (term : String) (defined : Definition)

theorem definition?_record_self :
  (state.record term defined).context.definition? term = some defined
  := Entries.lookup_insert_self _ _ _

theorem definition?_record_of_ne {name : String} (h : name ≠ term) :
  (state.record term defined).context.definition? name = state.context.definition? name
  := Entries.lookup_insert_of_ne _ _ h

theorem mem_done_record {name : String} :
  name ∈ (state.record term defined).done ↔ name = term ∨ name ∈ state.done
  := List.mem_cons

end Record

/-! ### Runs -/

section Runs

variable {declared : Entries Json} {start state final : Creation} {name : String}

/-- A run changes neither the base nor the vocabulary. -/
theorem Reaches.context_eq (h : Reaches declared state final) :
  final.context.base = state.context.base ∧ final.context.vocab = state.context.vocab
  := by
  induction h with
  | refl => trivial
  | tail _ step ih =>
      cases step
      apply ih

theorem Reaches.done_mono (h : Reaches declared state final) (hname : name ∈ state.done) :
  name ∈ final.done
  := by
  induction h with
  | refl => apply hname
  | tail _ step ih =>
      cases step
      apply (mem_done_record _ _ _).mpr (.inr ih)

/-- What a run defines is an entry and no keyword. -/
theorem Reaches.done_new (h : Reaches declared state final) (hname : name ∈ final.done) :
  name ∈ state.done ∨ (name ∈ declared.names ∧ Keyword.isKeyword name = false)
  := by
  induction h with
  | refl => apply Or.inl hname
  | tail _ step ih =>
      cases step with
      | record ready =>
          obtain rfl | hname := (mem_done_record _ _ _).mp hname
          · apply Or.inr
            constructor
            · apply Entries.mem_names_of_lookup ready.entry
            · apply ready.plain
          · apply ih hname

/-- A run leaves alone what was defined before it, and what is not defined after it. -/
theorem Reaches.definition?_eq (h : Reaches declared state final)
    (kept : name ∈ state.done ∨ name ∉ final.done) :
  final.context.definition? name = state.context.definition? name
  := by
  induction h with
  | refl => rfl
  | @tail between _ run step ih =>
      cases step with
      | @record term _ defined ready =>
          rw [mem_done_record, not_or] at kept
          have hne : name ≠ term := by
            rintro rfl
            apply kept.elim (fun before => ready.fresh (Reaches.done_mono run before))
            intro after
            apply after.1 rfl
          rw [definition?_record_of_ne _ _ _ hne]
          apply ih (kept.imp_right And.right)

/-- When an entry was defined, it was its turn. -/
theorem Reaches.history (h : Reaches declared state final) (after : name ∈ final.done)
    (before : name ∉ state.done) :
  ∃ between value defined, Reaches declared state between
    ∧ Ready declared between name value defined
    ∧ Reaches declared (between.record name defined) final
  := by
  induction h with
  | refl => exact absurd after before
  | @tail between _ run step ih =>
      cases step with
      | @record term value defined ready =>
          obtain rfl | after := (mem_done_record _ _ _).mp after
          · use between, value, defined, run, ready
          · obtain ⟨earlier, value, defined, run, turn, rest⟩ := ih after
            use earlier, value, defined, run, turn
            apply rest.tail (.record ready)

/-- What an entry refers to is the same at its turn and at the end. -/
theorem Ready.termIri?_eq {start : Context} {term : String} {value : Json} {defined : Definition}
    (ready : Ready declared state term value defined)
    (reached : Reaches declared ⟨start, []⟩ state)
    (run : Reaches declared (state.record term defined) final)
    (referred : name ∈ references term value) :
  final.context.termIri? name = state.context.termIri? name
  := by
  have whole : Reaches declared state final := .head (.record ready) run
  have full : Reaches declared ⟨start, []⟩ final := reached.trans whole
  have kept : name ∈ state.done ∨ name ∉ final.done := by
    by_cases hentry : name ∈ declared.names
    · apply Or.inl (ready.known name referred hentry)
    · apply Or.inr
      intro hname
      apply hentry
      apply ((full.done_new hname).resolve_left (by simp)).1
  rw [Context.termIri?, Context.termIri?, whole.definition?_eq kept]

end Runs

/-! ### Two runs -/

section Two

variable {declared : Entries Json} {start one other : Creation}

/-- Runs from one start define the same of what is no entry. -/
theorem Reaches.done_iff_of_undeclared (first : Reaches declared start one)
    (second : Reaches declared start other) {name : String} (h : name ∉ declared.names) :
  name ∈ one.done ↔ name ∈ other.done
  := by
  constructor
  · intro hname
    obtain before | ⟨entry, -⟩ := first.done_new hname
    · apply second.done_mono before
    · exact absurd entry h
  · intro hname
    obtain before | ⟨entry, -⟩ := second.done_new hname
    · apply first.done_mono before
    · exact absurd entry h

/-- Runs that agree on what both have defined read a name alike if both or neither has defined
it. -/
theorem Reaches.alike (first : Reaches declared start one) (second : Reaches declared start other)
    (agree : ∀ name ∈ one.done, name ∈ other.done →
      one.context.definition? name = other.context.definition? name)
    {names : List String} (known : ∀ name ∈ names, name ∈ one.done ↔ name ∈ other.done) :
  Alike names one.context other.context where
  vocab := first.context_eq.2.trans second.context_eq.2.symm
  termIri? name hname := by
    have heq : one.context.definition? name = other.context.definition? name := by
      by_cases hone : name ∈ one.done
      · apply agree name hone ((known name hname).mp hone)
      · have hother : name ∉ other.done := fun h => hone ((known name hname).mpr h)
        rw [first.definition?_eq (.inr hone), second.definition?_eq (.inr hother)]
    rw [Context.termIri?, Context.termIri?, heq]

/-- Where all references of an entry are defined, and it is not, its value is read the same. -/
theorem Ready.of_runs {term : String} {value : Json} {defined : Definition}
    (ready : Ready declared one term value defined)
    (first : Reaches declared start one) (second : Reaches declared start other)
    (agree : ∀ name ∈ one.done, name ∈ other.done →
      one.context.definition? name = other.context.definition? name)
    (fresh : term ∉ other.done)
    (known : ∀ name ∈ references term value, name ∈ declared.names → name ∈ other.done) :
  Ready declared other term value defined
  := by
  have same : ∀ name ∈ term :: references term value, name ∈ one.done ↔ name ∈ other.done := by
    intro name hname
    obtain rfl | hname := List.mem_cons.mp hname
    · apply iff_of_false ready.fresh fresh
    · by_cases hentry : name ∈ declared.names
      · apply iff_of_true (ready.known name hname hentry) (known name hname hentry)
      · apply first.done_iff_of_undeclared second hentry
  have reads := ready.reads
  rw [entryDefinition_congr term (first.alike second agree same)] at reads
  exact ⟨fresh, ready.plain, ready.entry, known, reads⟩

/-- Two runs agree on all that both of them have defined. -/
theorem Reaches.agree (first : Reaches declared start one) (second : Reaches declared start other) :
  ∀ name ∈ one.done, name ∈ other.done →
    one.context.definition? name = other.context.definition? name
  := by
  induction first generalizing other with
  | refl =>
      intro name hone _
      rw [second.definition?_eq (.inl hone)]
  | @tail before _ run step ih =>
      cases step with
      | @record term value defined ready =>
          intro name hone hother
          by_cases hname : name = term
          · subst hname
            obtain ⟨between, value', defined', run', ready', rest⟩ :=
              second.history hother fun h => ready.fresh (Reaches.done_mono run h)
            -- Both runs read the entry where they agree on all that it refers to.
            obtain rfl : value = value' := by
              simpa using ready.entry.symm.trans ready'.entry
            have again := ready.of_runs run run' (ih run') ready'.fresh ready'.known
            obtain rfl : defined = defined' := by
              simpa using again.reads.symm.trans ready'.reads
            rw [rest.definition?_eq (.inl ((mem_done_record _ _ _).mpr (.inl rfl))),
              definition?_record_self, definition?_record_self]
          · rw [definition?_record_of_ne _ _ _ hname]
            apply ih second name (((mem_done_record _ _ _).mp hone).resolve_left hname) hother

end Two

/-! ### The search finds a run -/

/-- A run that defines entries of a list only. -/
structure Advances (declared : Entries Json) (within : List String) (state final : Creation) :
    Prop where
  reaches : Reaches declared state final
  within : ∀ name ∈ final.done, name ∈ state.done ∨ name ∈ within

/-- A way to define an entry by a run that defines entries of a list only. -/
def Sound (declared : Entries Json) (within : List String) (define : Definer) : Prop :=
  ∀ name state final, define name state = .ok final →
    Advances declared within state final ∧ name ∈ final.done

section Search

variable {declared : Entries Json} {within : List String} {define : Definer}
  {state between final : Creation}

theorem Advances.refl :
  Advances declared within state state
  where
  reaches := .refl
  within _ hname := .inl hname

theorem Advances.trans (first : Advances declared within state between)
    (second : Advances declared within between final) :
  Advances declared within state final
  where
  reaches := first.reaches.trans second.reaches
  within name hname := (second.within name hname).elim (first.within name) .inr

theorem Sound.require (sound : Sound declared within define) {name : String}
    (h : require declared define name state = .ok final) :
  Advances declared within state final ∧ (name ∈ declared.names → name ∈ final.done)
  := by
  unfold Creation.require at h
  split at h
  · obtain ⟨advances, hname⟩ := sound name state final h
    exact ⟨advances, fun _ => hname⟩
  · obtain rfl : state = final := by simpa using h
    exact ⟨.refl, fun hname => absurd hname ‹_›⟩

theorem Sound.requireAll (sound : Sound declared within define) {names : List String}
    (h : requireAll declared define names state = .ok final) :
  Advances declared within state final
    ∧ ∀ name ∈ names, name ∈ declared.names → name ∈ final.done
  := by
  induction names generalizing state with
  | nil =>
      obtain rfl : state = final := by simpa [requireAll_nil] using h
      exact ⟨.refl, by simp⟩
  | cons name names ih =>
      rw [Creation.requireAll, List.foldlM_cons, bind_eq_ok] at h
      obtain ⟨between, hfirst, hrest⟩ := h
      obtain ⟨first, hname⟩ := sound.require hfirst
      obtain ⟨rest, hnames⟩ := ih hrest
      use first.trans rest
      rintro other (_ | ⟨_, hother⟩) hentry
      · apply rest.reaches.done_mono (hname hentry)
      · apply hnames other hother hentry

/-- What an open entry has referred to does not change while it refers to more. -/
theorem Sound.stable (sound : Sound declared within define) {term : String}
    (fresh : term ∉ state.done) (opened : term ∉ within) {names others : List String}
    (first : Creation.requireAll declared define names state = .ok between)
    (second : Creation.requireAll declared define others between = .ok final) :
  Alike (term :: names) between.context final.context
  := by
  obtain ⟨before, hnames⟩ := sound.requireAll first
  obtain ⟨after, -⟩ := sound.requireAll second
  have kept : ∀ name ∈ term :: names, name ∈ between.done ↔ name ∈ final.done := by
    intro name hname
    use after.reaches.done_mono
    intro hfinal
    obtain rfl | hname := List.mem_cons.mp hname
    · have := after.within name hfinal
      have := before.within name
      grind
    · obtain hbetween | ⟨hentry, -⟩ := after.reaches.done_new hfinal
      · apply hbetween
      · apply hnames name hname hentry
  apply Reaches.alike .refl after.reaches (Reaches.agree .refl after.reaches) kept

/-- Once it is defined what an open entry refers to, it is its turn. -/
theorem Sound.definition (sound : Sound declared within define) {term : String}
    (plain : Keyword.isKeyword term = false) (fresh : term ∉ state.done) (opened : term ∉ within)
    {defined : Definition} (h : definition declared define term state = .ok (defined, final)) :
  Advances declared within state final ∧ ∃ value, Ready declared final term value defined
  := by
  cases entry : declared.lookup term with
  | none => simp [Creation.definition, entry] at h
  | some value =>
      rw [definition_ok_iff declared define term state final entry
        fun _ _ _ => sound.stable fresh opened] at h
      obtain ⟨required, reads⟩ := h
      obtain ⟨advances, known⟩ := sound.requireAll required
      have unopened : term ∉ final.done := fun h => (advances.within term h).elim fresh opened
      exact ⟨advances, value, unopened, plain, entry, known, reads⟩

/-- Names can be required where each entry among them can be defined. -/
theorem Sound.requireAll_ok (sound : Sound declared within define) {names : List String}
    (able : ∀ name ∈ names, name ∈ declared.names →
      ∀ between, Advances declared within state between →
        ∃ final, define name between = .ok final) :
  ∃ final, Creation.requireAll declared define names state = .ok final
  := by
  induction names generalizing state with
  | nil =>
      use state
      rfl
  | cons name names ih =>
      have hfirst : ∃ between, Creation.require declared define name state = .ok between := by
        unfold Creation.require
        split
        · apply able name (by simp) ‹_› state .refl
        · use state
      obtain ⟨between, hfirst⟩ := hfirst
      have first := (sound.require hfirst).1
      obtain ⟨final, hrest⟩ := ih fun other hother hentry later rest =>
        able other (by simp [hother]) hentry later (first.trans rest)
      use final
      rw [Creation.requireAll, List.foldlM_cons, hfirst]
      apply hrest

end Search

section Define

variable {declared : Entries Json} {context : Context} {waiting : List String} {term : String}
  {state goal final : Creation}

/-- An entry is defined already, or it is opened and recorded after what it refers to. -/
theorem define_ok_iff :
  define declared waiting term state = .ok final
    ↔ Keyword.isKeyword term = false ∧ (term ∈ state.done ∧ final = state
      ∨ term ∉ state.done ∧ term ∈ waiting ∧ ∃ defined known,
        definition declared (define declared (waiting.erase term)) term state
          = .ok (defined, known)
          ∧ final = known.record term defined)
  := by
  rw [define]
  cases hkeyword : Keyword.isKeyword term with
  | true => simp
  | false =>
      by_cases hdone : term ∈ state.done
      · simp [hdone, eq_comm]
      · by_cases hwaits : term ∈ waiting
        · simp only [hdone, hwaits, Bool.false_eq_true, if_false, dif_pos, true_and, false_and,
            false_or, not_false_eq_true]
          cases definition declared (define declared (waiting.erase term)) term state with
          | error fault => simp
          | ok result =>
              obtain ⟨defined, known⟩ := result
              simp only [Except.ok.injEq, Prod.mk.injEq]
              constructor
              · rintro rfl
                use defined, known
              · rintro ⟨_, _, ⟨rfl, rfl⟩, rfl⟩
                rfl
        · simp [hdone, hwaits]

/-- Opening an entry and what it refers to makes a run. -/
theorem define_sound (declared : Entries Json) {waiting : List String} (distinct : waiting.Nodup) :
  Sound declared waiting (define declared waiting)
  := by
  intro term state final h
  obtain ⟨plain, ⟨done, rfl⟩ | ⟨fresh, waits, defined, known, hdefinition, rfl⟩⟩ :=
    define_ok_iff.mp h
  · exact ⟨.refl, done⟩
  · have sound := define_sound declared (distinct.erase term)
    obtain ⟨advances, value, ready⟩ := sound.definition plain fresh
      (fun h => (distinct.mem_erase_iff.mp h).1 rfl) hdefinition
    constructor
    · use advances.reaches.tail (.record ready)
      intro name hname
      obtain rfl | hname := (mem_done_record _ _ _).mp hname
      · apply Or.inr waits
      · apply (advances.within name hname).imp_right List.mem_of_mem_erase
    · apply (mem_done_record _ _ _).mpr (.inl rfl)
termination_by waiting.length
decreasing_by
  rw [List.length_erase_of_mem waits]
  have := List.length_pos_of_mem waits
  omega

/-- What some run has defined can be defined by opening entries, from wherever another run has led,
if all that is not defined yet can still be opened. -/
theorem define_complete (reachable : Reaches declared ⟨context, []⟩ goal)
    (reached : Reaches declared ⟨context, []⟩ state) (distinct : waiting.Nodup)
    (left : ∀ name ∈ goal.done, name ∈ state.done ∨ name ∈ waiting) (aim : term ∈ goal.done) :
  ∃ final, define declared waiting term state = .ok final
  := by
  induction reachable generalizing state waiting term with
  | refl => simp at aim
  | @tail before _ run step ih =>
      cases step with
      | @record last value defined ready =>
          have earlier {name : String} (h : name ∈ before.done) :
              name ∈ (before.record last defined).done := (mem_done_record _ _ _).mpr (.inr h)
          obtain rfl | aim := (mem_done_record _ _ _).mp aim
          · by_cases hdone : term ∈ state.done
            · use state
              apply define_ok_iff.mpr ⟨ready.plain, .inl ⟨hdone, rfl⟩⟩
            · have waits : term ∈ waiting :=
                (left term ((mem_done_record _ _ _).mpr (.inl rfl))).resolve_left hdone
              have opened : term ∉ waiting.erase term :=
                fun h => (distinct.mem_erase_iff.mp h).1 rfl
              have sound := define_sound declared (distinct.erase term)
              obtain ⟨known, required⟩ : ∃ known, requireAll declared
                  (define declared (waiting.erase term)) (references term value) state
                    = .ok known := by
                apply sound.requireAll_ok
                intro name hname hentry between advances
                apply ih (reached.trans advances.reaches) (distinct.erase term) _
                  (ready.known name hname hentry)
                intro other hother
                have hne : other ≠ term := by
                  rintro rfl
                  apply ready.fresh hother
                obtain hstate | hwaits := left other (earlier hother)
                · apply Or.inl (advances.reaches.done_mono hstate)
                · apply Or.inr ((List.mem_erase_of_ne hne).mpr hwaits)
              obtain ⟨advances, hknown⟩ := sound.requireAll required
              have reached' := reached.trans advances.reaches
              have fresh : term ∉ known.done := fun h => (advances.within term h).elim hdone opened
              have again := ready.of_runs run reached' (Reaches.agree run reached') fresh hknown
              have hdefinition := (definition_ok_iff declared _ term state known ready.entry
                fun _ _ _ => sound.stable hdone opened).mpr ⟨required, again.reads⟩
              use known.record term defined
              apply define_ok_iff.mpr
              use ready.plain, .inr ⟨hdone, waits, defined, known, hdefinition, rfl⟩
          · apply ih reached distinct (fun name hname => left name (earlier hname)) aim

end Define

/-! ### What declarations keep -/

section Keeps

variable {declared : Entries Json} {define : Definer} {R : Creation → Creation → Prop}

/-- Whether a way to define entries leads from states only to related ones. -/
def Keeps (R : Creation → Creation → Prop) (define : Definer) : Prop :=
  ∀ name state final, define name state = .ok final → R state final

theorem Keeps.requireAll (keeps : Keeps R define) (refl : ∀ state, R state state)
    (trans : ∀ state between final, R state between → R between final → R state final)
    {names : List String} {state final : Creation}
    (h : requireAll declared define names state = .ok final) :
  R state final
  := by
  induction names generalizing state with
  | nil =>
      cases h
      apply refl
  | cons name names ih =>
      rw [Creation.requireAll, List.foldlM_cons, bind_eq_ok] at h
      obtain ⟨between, hfirst, hrest⟩ := h
      apply trans state between final _ (ih hrest)
      unfold require at hfirst
      split at hfirst
      · apply keeps name state between hfirst
      · cases hfirst
        apply refl

theorem Keeps.definition (keeps : Keeps R define) (refl : ∀ state, R state state)
    (trans : ∀ state between final, R state between → R between final → R state final)
    {term : String} {defined : Definition} {state final : Creation}
    (h : definition declared define term state = .ok (defined, final)) :
  R state final
  := by
  cases entry : declared.lookup term with
  | none => simp [Creation.definition, entry] at h
  | some value =>
      cases value with
      | null =>
          rw [definition_null _ _ _ _ entry] at h
          cases h
          apply refl
      | string text =>
          rw [definition_string _ _ _ _ entry, bind_eq_ok] at h
          obtain ⟨known, required, h⟩ := h
          obtain ⟨iri, -, ⟨⟩⟩ := bind_eq_ok.mp h
          apply keeps.requireAll refl trans required
      | object object =>
          rw [definition_object _ _ _ _ entry] at h
          simp only [bind_eq_ok] at h
          obtain ⟨between, mapping, mapped, -, found, -, known, coercing, coerced, -, ⟨⟩⟩ := h
          apply trans state between final
          · apply keeps.requireAll refl trans mapping
          · apply keeps.requireAll refl trans coercing
      | _ => simp [Creation.definition, entry] at h

end Keeps

/-- What recording an entry keeps, defining one keeps. -/
theorem define_keeps {R : Creation → Creation → Prop} (declared : Entries Json)
    (waiting : List String) (refl : ∀ state, R state state)
    (trans : ∀ state between final, R state between → R between final → R state final)
    (record : ∀ state term defined, R state (state.record term defined)) :
  Keeps R (define declared waiting)
  := by
  intro term state final h
  obtain ⟨-, ⟨-, rfl⟩ | ⟨-, waits, defined, known, hdefinition, rfl⟩⟩ := define_ok_iff.mp h
  · apply refl
  · have keeps := define_keeps declared (waiting.erase term) refl trans record
    apply trans state known _ (keeps.definition refl trans hdefinition)
    apply record
termination_by waiting.length
decreasing_by
  rw [List.length_erase_of_mem waits]
  have := List.length_pos_of_mem waits
  omega

/-! ### Declaring the terms of an object -/

/-- The names that a context object declares to be terms. -/
def declaredTerms (declared : Entries Json) : List String :=
  declared.names.filter fun name => !(Keyword.ofText? name).any Keyword.isContextKey

section Declare

variable {declared : Entries Json} {context result : Context} {goal : Creation} {name : String}

/-- An entry under a name that is no keyword declares a term. -/
theorem mem_declaredTerms (plain : Keyword.isKeyword name = false) :
  name ∈ declaredTerms declared ↔ name ∈ declared.names
  := by
  have hkeyword : Keyword.ofText? name = none := by simpa [Keyword.isKeyword] using plain
  simp [declaredTerms, hkeyword]

theorem mem_names_of_declaredTerms (h : name ∈ declaredTerms declared) :
  name ∈ declared.names
  := (List.mem_filter.mp h).1

/-- To declare terms is to require them all. -/
theorem declare_eq (context : Context) (declared : Entries Json) :
  context.declare declared
    = (do
        let state ← requireAll declared (define declared declared.names) (declaredTerms declared)
          ⟨context, []⟩
        .ok state.context)
  := by
  have hfold : ∀ (names : List String) (state : Creation), (∀ name ∈ names, name ∈ declared.names) →
      names.foldlM (fun state name => define declared declared.names name state) state
        = requireAll declared (define declared declared.names) names state := by
    intro names
    induction names with
    | nil => exact fun _ _ => rfl
    | cons name names ih =>
        intro state entries
        have entry : name ∈ declared.names := entries name (by simp)
        rw [requireAll, List.foldlM_cons, List.foldlM_cons, require, if_pos entry]
        congr 1
        funext state
        apply ih state fun other hother => entries other (by simp [hother])
  rw [Context.declare, ← hfold _ _ fun _ => mem_names_of_declaredTerms]
  rfl

/-- What recording an entry keeps, declaring terms keeps. -/
theorem declare_keeps (R : Creation → Creation → Prop) (refl : ∀ state, R state state)
    (trans : ∀ state between final, R state between → R between final → R state final)
    (record : ∀ state term defined, R state (state.record term defined))
    (h : context.declare declared = .ok result) :
  ∃ done, R ⟨context, []⟩ ⟨result, done⟩
  := by
  rw [declare_eq, bind_eq_ok] at h
  obtain ⟨final, required, ⟨⟩⟩ := h
  use final.done
  apply (define_keeps declared declared.names refl trans record).requireAll refl trans required

/-- Terms are declared by a run that defines them all. -/
theorem declare_reaches (distinct : declared.names.Nodup)
    (h : context.declare declared = .ok result) :
  ∃ final, Reaches declared ⟨context, []⟩ final
    ∧ (∀ name, name ∈ final.done ↔ name ∈ declaredTerms declared) ∧ final.context = result
  := by
  rw [declare_eq, bind_eq_ok] at h
  obtain ⟨final, required, h⟩ := h
  obtain ⟨advances, known⟩ := (define_sound declared distinct).requireAll required
  use final, advances.reaches
  constructor
  · intro name
    constructor
    · intro hname
      obtain ⟨hentry, plain⟩ := (advances.reaches.done_new hname).resolve_left (by simp)
      apply (mem_declaredTerms plain).mpr hentry
    · intro hname
      apply known name hname (mem_names_of_declaredTerms hname)
  · simpa using h

/-- If some run defines all terms, they can be declared. -/
theorem declare_complete (distinct : declared.names.Nodup)
    (reachable : Reaches declared ⟨context, []⟩ goal)
    (all : ∀ name ∈ declaredTerms declared, name ∈ goal.done) :
  ∃ result, context.declare declared = .ok result
  := by
  have entries : ∀ name ∈ goal.done, name ∈ declared.names := fun name hname =>
    ((reachable.done_new hname).resolve_left (by simp)).1
  have able : ∃ final, requireAll declared (define declared declared.names) (declaredTerms declared)
      ⟨context, []⟩ = .ok final := by
    apply (define_sound declared distinct).requireAll_ok
    intro name hname _ between advances
    apply define_complete reachable advances.reaches distinct _ (all name hname)
    intro other hother
    apply Or.inr (entries other hother)
  obtain ⟨final, required⟩ := able
  use final.context
  rw [declare_eq, required]
  rfl

end Declare

end Creation

end LinkedQuery
