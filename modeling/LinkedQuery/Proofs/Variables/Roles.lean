import LinkedQuery.Element.Node
import LinkedQuery.Proofs.Variables.Siblings
import Mathlib.Data.List.Forall2
import Mathlib.Tactic.Use

/-!
# Variables of roles

The roles that lead to a value have a variable for it, a child of the variable of their node.
Nothing is below the variables of two roles, and at most one role names the node.
-/

namespace LinkedQuery.NodeObject

/-- The variable for the values of a role. -/
def Role.child? : Role → Option Variable
  | .type child => some child
  | .property _ _ child => some child
  | _ => none

/-- Whether two roles share nothing: not the name of the node, and no variable below theirs. -/
def Role.Apart (naming : Naming) (first second : Role) : Prop :=
  (first = .id → second ≠ .id) ∧
    ∀ v ∈ first.child?, ∀ w ∈ second.child?, ∀ u, naming.Below v u → ¬ naming.Below w u

/-- What the role of a key can be, by what the key stands for. -/
inductive Role.Suits : Meaning → Role → Prop where
  | context : Suits (.keyword .context) .context
  | id : Suits (.keyword .id) .id
  | duplicateId : Suits (.keyword .id) .duplicateId
  | type (child : Variable) : Suits (.keyword .type) (.type child)
  | unsupported {keyword : Keyword}
      (apart : keyword ≠ .context ∧ keyword ≠ .id ∧ keyword ≠ .type) :
      Suits (.keyword keyword) (.unsupported keyword)
  | unmapped : Suits .unmapped .unmapped
  | property (iri : String) (child : Variable) : Suits (.property iri) (.property iri false child)
  | reverse (iri : String) (child : Variable) : Suits (.reverse iri) (.property iri true child)

variable (naming : Naming) (context : Context) (target : Variable)

/-- The roles of keys suit what the keys stand for. -/
theorem roles_suit (named : Bool) (siblings : Siblings) (keys : List String) :
  List.Forall₂ (fun key role => Role.Suits (context.meaning key) role) keys
    (roles naming context target named siblings keys)
  := by
  induction keys generalizing named siblings with
  | nil => exact .nil
  | cons key keys ih =>
      simp only [roles]
      cases hmeaning : context.meaning key with
      | keyword keyword =>
          cases keyword with
          | context => exact .cons (hmeaning ▸ .context) (ih _ _)
          | id =>
              apply List.Forall₂.cons _ (ih _ _)
              rw [hmeaning]
              cases named with
              | true => exact .duplicateId
              | false => exact .id
          | type => exact .cons (hmeaning ▸ .type _) (ih _ _)
          | _ => exact .cons (hmeaning ▸ .unsupported (by decide)) (ih _ _)
      | unmapped => exact .cons (hmeaning ▸ .unmapped) (ih _ _)
      | property iri => exact .cons (hmeaning ▸ .property iri _) (ih _ _)
      | reverse iri => exact .cons (hmeaning ▸ .reverse iri _) (ih _ _)

/-- What a role is when some siblings have their segments: it has no variable, or one with a new
segment. -/
inductive Role.Enrolls (siblings : Siblings) (role : Role) : Siblings → Prop where
  | none (alone : role.child? = none) : Enrolls siblings role siblings
  | some (text : String) (child : role.child? = naming.child target (siblings.enroll text).1) :
      Enrolls siblings role (siblings.enroll text).2

/-- The role of the first key, and what it leaves for the others. -/
theorem roles_cons (named : Bool) (siblings : Siblings) (key : String) (keys : List String) :
  ∃ role named' siblings',
    roles naming context target named siblings (key :: keys)
        = role :: roles naming context target named' siblings' keys
      ∧ role.Enrolls naming target siblings siblings'
      ∧ (role = .id ↔ named = false ∧ context.meaning key = .keyword .id)
      ∧ named' = (named || context.meaning key == .keyword .id)
  := by
  simp only [roles]
  cases hmeaning : context.meaning key with
  | keyword keyword =>
      cases keyword with
      | id =>
          refine ⟨_, _, _, rfl, .none ?_, ?_, by simp⟩
          · cases named
            · rfl
            · rfl
          · cases named
            · simp
            · simp
      | type => exact ⟨_, _, _, rfl, .some "type" rfl, by simp, by simp⟩
      | _ => exact ⟨_, _, _, rfl, .none rfl, by simp, by simp⟩
  | unmapped => exact ⟨_, _, _, rfl, .none rfl, by simp, by simp⟩
  | property iri => exact ⟨_, _, _, rfl, .some _ rfl, by simp, by simp⟩
  | reverse iri => exact ⟨_, _, _, rfl, .some _ rfl, by simp, by simp⟩

/-- A variable with a segment that no sibling has. -/
def Enrolled (siblings : Siblings) (v : Variable) : Prop :=
  ∃ segment, v = naming.child target segment ∧ segmentOf segment = segment
    ∧ segment ∉ siblings.counts.names

/-- The roles of keys have new variables and share nothing. -/
theorem roles_apart (named : Bool) (siblings : Siblings) (keys : List String) :
  let given := roles naming context target named siblings keys
  given.Pairwise (Role.Apart naming)
    ∧ (named = true → .id ∉ given)
    ∧ ∀ role ∈ given, ∀ v ∈ role.child?, Enrolled naming target siblings v
  := by
  induction keys generalizing named siblings with
  | nil => simp [roles]
  | cons key keys ih =>
      obtain ⟨role, named', siblings', heq, henrolls, hid, hnamed⟩ :=
        roles_cons naming context target named siblings key keys
      obtain ⟨hapart, hids, hchildren⟩ := ih named' siblings'
      -- What is new after the first role is new before it, and differs from its segment.
      have hlater (w : Variable) (hw : Enrolled naming target siblings' w) :
          Enrolled naming target siblings w ∧
            ∀ v ∈ role.child?, ∀ u, naming.Below v u → ¬ naming.Below w u := by
        obtain ⟨segment, rfl, hsegment, hnew⟩ := hw
        cases henrolls with
        | none alone =>
            constructor
            · use segment
            · simp [alone]
        | some text child =>
            obtain ⟨-, hnames, htext⟩ := siblings.enroll_spec text
            rw [hnames, not_or] at hnew
            constructor
            · use segment
              exact ⟨rfl, hsegment, hnew.1⟩
            · simp only [child, Option.mem_some_iff, forall_eq']
              intro u hu hu'
              have := hu'.segment_eq hu
              rw [hsegment, htext] at this
              exact hnew.2 this
      simp only [heq]
      refine ⟨List.pairwise_cons.mpr ⟨?_, hapart⟩, ?_, List.forall_mem_cons.mpr ⟨?_, ?_⟩⟩
      · intro other hother
        constructor
        · rintro hrole rfl
          exact hids (by simp [hnamed, (hid.mp hrole).2]) hother
        · intro v hv w hw
          apply (hlater w (hchildren other hother w hw)).2 v hv
      · intro hearlier hmem
        rcases List.mem_cons.mp hmem with hrole | hmem
        · simp [(hid.mp hrole.symm).1] at hearlier
        · exact hids (by simp [hnamed, hearlier]) hmem
      · intro v hv
        cases henrolls with
        | none alone => simp [alone] at hv
        | some text child =>
            obtain ⟨hfresh, -, htext⟩ := siblings.enroll_spec text
            rw [child, Option.mem_some_iff] at hv
            exact ⟨_, hv.symm, htext, hfresh⟩
      · intro other hother w hw
        apply (hlater w (hchildren other hother w hw)).1

end LinkedQuery.NodeObject
