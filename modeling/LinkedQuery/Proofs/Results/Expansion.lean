import LinkedQuery.Proofs.Context.Rooted

/-!
# What IRIs are expanded to

A value is expanded to an IRI with a scheme, unless it has the form of a compact IRI and neither a
scheme nor a term stands before its colon: such a value is left as it is.  This holds in a context
as long as no object among its layers leaves a text of its own without a scheme as it is.
-/

namespace LinkedQuery

namespace Context

/-! ### Layers -/

/-- Whether a context object leaves a text of its own as it is, though it has no scheme: as the
vocabulary, under the base of the object, or as the IRI of a term. -/
inductive Layer.Loosens (layer : Layer) : Prop where
  | vocab {text : String} (entry : layer.declared.lookup Keyword.vocab.text = some (.string text))
      (leaves : Leaves { layer.before with base := layer.after.base } text)
  | term {term text : String}
      (dangles : Creation.Dangles layer.declared layer.before layer.after term text)

/-- On top of a context whose IRIs have schemes, a context object makes one whose IRIs have schemes
exactly when it leaves no text without a scheme as it is. -/
theorem Layer.rooted_iff (layer : Layer) (regular : layer.before.Regular)
    (rooted : layer.before.Rooted) :
  layer.after.Rooted ↔ ¬ layer.Loosens
  := by
  have distinct := (Json.hasDistinctKeys_object.mp layer.distinct).1
  obtain ⟨keyed, final, hkeyed, run, all, hafter⟩ := withObject_reaches distinct layer.applies
  have base : layer.after.base = keyed.base := by rw [← hafter, run.context_eq.1]
  have vocab : layer.after.vocab = keyed.vocab := by rw [← hafter, run.context_eq.2]
  have same (name : String) : keyed.termIri? name = layer.before.termIri? name := by
    rw [termIri?, termIri?, definition?, definition?, (withKeywords_frame hkeyed).1]
  constructor
  · intro rooted' loosens
    cases loosens with
    | @vocab text entry leaves =>
        rw [base] at leaves
        have hscheme := rooted'.vocab text (vocab.trans (leaves.vocab_eq hkeyed entry))
        cases leaves.schemeless.symm.trans hscheme
    | @term term text dangles =>
        have dangles' : Creation.Dangles layer.declared keyed final.context term text :=
          hafter ▸ dangles.congr fun name => (same name).symm
        have hterm := dangles'.termIri?_eq run all
        rw [hafter] at hterm
        cases dangles.schemeless.symm.trans (rooted'.term term text hterm)
  · intro tight
    rw [← hafter]
    apply run.rooted .refl
    · apply rooted.withKeywords regular hkeyed
      intro text entry leaves
      apply tight (.vocab entry (base ▸ leaves))
    · intro term text dangles
      apply tight (.term (hafter ▸ dangles.congr same))

/-- On top of each other, context objects that leave no text without a scheme as it is make a
context whose IRIs have schemes. -/
theorem Built.rooted {context : Context} (built : Built (fun layer => ¬ layer.Loosens) context) :
  context.Rooted
  := by
  induction built with
  | empty =>
      constructor
      · simp
      · simp [termIri?, definition?]
  | layer layer under tight ih =>
      have reached : Reached layer.before := reached_iff_built.mpr (under.mono fun _ _ => trivial)
      apply (layer.rooted_iff reached.regular ih).mpr tight

/-! ### Values -/

/-- There is a text without a colon that is neither a keyword nor one of some names. -/
theorem exists_unused (names : List String) :
  ∃ text : String, ':' ∉ text.toList ∧ Keyword.isKeyword text = false ∧ text ∉ names
  := by
  obtain ⟨bound, hbound⟩ : ∃ bound, ∀ name ∈ names, name.length < bound := by
    induction names with
    | nil => exact ⟨0, by simp⟩
    | cons name names ih =>
        obtain ⟨bound, hbound⟩ := ih
        use name.length + bound + 1
        intro other hother
        rcases List.mem_cons.mp hother with rfl | hother
        · omega
        · have := hbound other hother
          omega
  -- No name is as long as this one.
  use String.ofList (List.replicate bound 'a')
  constructor
  · simp [List.mem_replicate]
  · constructor
    · cases hkeyword : Keyword.ofText? (String.ofList (List.replicate bound 'a')) with
      | none => simp [Keyword.isKeyword, hkeyword]
      | some keyword =>
          have marked : '@' ∈ keyword.text.toList := by
            cases keyword <;> decide
          rw [Keyword.text_eq_of_ofText? hkeyword] at marked
          simp [List.mem_replicate] at marked
    · intro hname
      have := hbound _ hname
      simp at this

/-- The contexts that expand all values but those that stray to IRIs with schemes are those whose
vocabulary and terms have schemes. -/
theorem Regular.expandsAbsolutely_iff {context : Context} (regular : context.Regular) :
  context.ExpandsAbsolutely ↔ context.Rooted
  := by
  constructor
  · intro absolute
    constructor
    · intro vocab hvocab
      obtain ⟨text, uncolored, plain, unused⟩ := exists_unused context.terms.names
      obtain ⟨simple, schemeless⟩ := Iri.simple_of_notMem uncolored
      have undefined : context.definition? text = none := by
        cases hdefinition : context.definition? text with
        | none => rfl
        | some definition => exact absurd (Entries.mem_names_of_lookup hdefinition) unused
      have hexpand : context.expand? text true = some (vocab ++ text) := by
        simp [expand?, plain, undefined, expandReference?, simple, schemeless, hvocab]
      rw [← Iri.hasScheme_append_eq vocab uncolored]
      apply (absolute text true _ hexpand).mpr
      intro strays
      obtain ⟨lead, suffix, compact, -⟩ := strays.compact
      cases simple.symm.trans compact
    · intro name iri hterm
      obtain ⟨hiri, free⟩ := Option.filter_eq_some_iff.mp hterm
      obtain ⟨definition, hdefinition, -⟩ := Option.bind_eq_some_iff.mp hiri
      have plain := regular.plain name (Entries.mem_names_of_lookup hdefinition)
      have hexpand : context.expand? name true = some iri := by
        simp_all [expand?]
      apply (absolute name true iri hexpand).mpr
      intro strays
      cases (strays.unknown rfl).symm.trans hterm
  · apply Rooted.expandsAbsolutely

/-- A context expands all values but those that stray to IRIs with schemes exactly when its
vocabulary and its terms have schemes.  It is made of layers.  This is so as long as none of them
leaves a text without a scheme as it is, and no longer under another layer that does. -/
theorem expand_absolute_iff {context : Context} (reached : Reached context) :
  (context.ExpandsAbsolutely ↔ context.Rooted)
    ∧ Built (fun _ => True) context
    ∧ (Built (fun layer => ¬ layer.Loosens) context → context.ExpandsAbsolutely)
    ∧ ∀ layer : Layer, layer.before = context → context.ExpandsAbsolutely →
        (layer.after.ExpandsAbsolutely ↔ ¬ layer.Loosens)
  := by
  have hrooted := reached.regular.expandsAbsolutely_iff
  use hrooted, reached_iff_built.mp reached, fun built => built.rooted.expandsAbsolutely
  rintro layer rfl absolute
  rw [(layer.regular reached.regular).expandsAbsolutely_iff]
  apply layer.rooted_iff reached.regular (hrooted.mp absolute)

/-- Terms under a vocabulary. -/
def wordsAt (vocab : String) : Entries Json :=
  [("@vocab", .string vocab), ("title", .string "dc:title"), ("name", .string "title")]

/-- Under a vocabulary with a scheme the terms expand absolutely; a relative vocabulary that stands
under nothing is left as it is. -/
theorem expand_absolute_iff_words :
  (∃ layer : Layer, layer.before = {} ∧ layer.declared = wordsAt "http://words/"
      ∧ layer.after.ExpandsAbsolutely)
    ∧ ∃ layer : Layer, layer.before = {} ∧ layer.declared = wordsAt "words/"
      ∧ ¬ layer.after.ExpandsAbsolutely
  := by
  have hwords : (withObject {} (wordsAt "http://words/")).toOption.map Context.base
      = some none := by
    decide +kernel
  have hrelative : (withObject {} (wordsAt "words/")).toOption.map Context.base = some none := by
    decide +kernel
  obtain ⟨words, happlies, -⟩ := exists_of_outcome _ _ hwords
  obtain ⟨relative, happlies', hbase⟩ := exists_of_outcome _ _ hrelative
  obtain ⟨-, -, built, hlayer⟩ := expand_absolute_iff .empty
  constructor
  · use ⟨{}, wordsAt "http://words/", words, rfl, happlies⟩, rfl, rfl
    apply (hlayer _ rfl (built .empty)).mpr
    rintro (⟨entry, leaves⟩ | dangles)
    · cases entry
      have hscheme : Iri.hasScheme "http://words/" = true := by decide
      cases leaves.schemeless.symm.trans hscheme
    · -- Every text among the entries has a scheme or no colon.
      obtain ⟨value, entry, mapped⟩ := dangles.mapped
      obtain ⟨lead, suffix, compact, -⟩ := dangles.compact
      have schemeless := dangles.schemeless
      have hmem : value ∈ (wordsAt "http://words/").map Prod.snd := by
        obtain ⟨earlier, later, heq, -⟩ := List.lookup_eq_some_iff.mp entry
        exact List.mem_map.mpr ⟨_, heq ▸ List.mem_append_right _ List.mem_cons_self, rfl⟩
      simp only [wordsAt, List.map_cons, List.map_nil, List.mem_cons, List.not_mem_nil,
        or_false] at hmem
      rcases hmem with rfl | rfl | rfl
      · cases mapped
        cases schemeless
      · cases mapped
        cases schemeless
      · cases mapped
        cases compact
  · use ⟨{}, wordsAt "words/", relative, rfl, happlies'⟩, rfl, rfl
    intro absolute
    apply (hlayer _ rfl (built .empty)).mp absolute
    exact .vocab rfl (.relative (by decide) (by decide) (by decide) rfl hbase)

/-- What looks like a compact IRI stays as it is, though digits begin no scheme. -/
theorem expand_schemeless_ns :
  ({} : Context).process .disabled (.object []) = .ok {}
    ∧ (∀ inVocab, ({} : Context).expand? "1ns:x" inVocab = some "1ns:x")
    ∧ Iri.hasScheme "1ns:x" = false
  := by
  have hprocess : ({} : Context).process .disabled (.object []) = .ok {} := rfl
  use hprocess
  decide

end Context

end LinkedQuery
