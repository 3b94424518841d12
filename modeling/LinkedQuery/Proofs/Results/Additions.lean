import LinkedQuery.Proofs.Context.Frame
import LinkedQuery.Proofs.Reading.Visit

/-!
# What a context object adds

A context object decides about what it names, and about nothing else, whatever its entries refer to:
everything else stays as it was, and the terms that it adds stand behind those that were there.
-/

namespace LinkedQuery

namespace Context

variable {loader : Loader} {context result : Context} {declared : Entries Json}

/-- A context object without an entry for the base, for the vocabulary or for a term leaves that
alone.  The terms of its result are those that were there, in their order, and behind them the ones
that it declares and that are new; none of the new ones is a keyword. -/
theorem process_frame (distinct : declared.names.Nodup)
    (h : context.process loader (.object declared) = .ok result) :
  (declared.lookup Keyword.base.text = none → result.base = context.base)
    ∧ (declared.lookup Keyword.vocab.text = none → result.vocab = context.vocab)
    ∧ (∀ name ∉ declared.names, result.definition? name = context.definition? name)
    ∧ (∀ name, name ∈ result.terms.names
        ↔ name ∈ context.terms.names ∨ name ∈ Creation.declaredTerms declared)
    ∧ (∀ name ∈ result.terms.names, Keyword.isKeyword name = true → name ∈ context.terms.names)
    ∧ ∃ added : List String, added.Nodup ∧ result.terms.names = context.terms.names ++ added
  := by
  obtain ⟨keyed, final, hkeyed, run, all, rfl⟩ := withObject_reaches distinct h
  obtain ⟨terms, base, vocab⟩ := withKeywords_frame hkeyed
  obtain ⟨added, hnames, hadded, hmem⟩ := run.names_eq
  rw [terms] at hnames hmem
  have hterm (name : String) : name ∈ final.context.terms.names
      ↔ name ∈ context.terms.names ∨ name ∈ Creation.declaredTerms declared := by
    rw [hnames, List.mem_append, hmem, all]
    grind
  use fun free => run.context_eq.1.trans (base free)
  use fun free => run.context_eq.2.trans (vocab free)
  constructor
  · intro name undeclared
    have unfinished : name ∉ final.done := fun hname =>
      undeclared (Creation.mem_names_of_declaredTerms ((all name).mp hname))
    rw [run.definition?_eq (.inr unfinished), definition?, definition?, terms]
  · use hterm
    constructor
    · intro name hname keyword
      apply ((hterm name).mp hname).resolve_right
      intro hdeclared
      cases (run.plain ((all name).mpr hdeclared)).symm.trans keyword
    · use added, hadded

/-- A context with a base and a term. -/
def shelf : Context where
  base := some "http://shelf/"
  terms := [("book", { iri := some "ex:book" })]

/-- Terms that refer to each other and to one that is there already. -/
def shelfTerms : Entries Json :=
  [("@vocab", .string "http://words/"), ("writer", .string "author"),
    ("author", .string "book:author")]

/-- The terms of a shelf stand behind its old one, and the base of the shelf stays. -/
theorem process_frame_shelf :
  ∃ result, shelf.process .disabled (.object shelfTerms) = .ok result
    ∧ result.base = some "http://shelf/" ∧ result.definition? "book" = shelf.definition? "book"
    ∧ (∀ name, name ∈ result.terms.names ↔ name = "book" ∨ name = "writer" ∨ name = "author")
    ∧ result.terms.names = ["book", "author", "writer"]
  := by
  have houtcome : (shelf.process .disabled (.object shelfTerms)).toOption.map
      (fun result => result.terms.names) = some ["book", "author", "writer"] := by
    decide +kernel
  obtain ⟨result, h, hnames⟩ := exists_of_outcome _ _ houtcome
  obtain ⟨base, -, kept, added, -, -⟩ := process_frame (by decide) h
  have hdeclared : Creation.declaredTerms shelfTerms = ["writer", "author"] := by decide +kernel
  use result, h, base rfl, kept "book" (by decide)
  constructor
  · intro name
    rw [added, hdeclared]
    simp [shelf, Entries.names]
  · apply hnames

end Context

end LinkedQuery
