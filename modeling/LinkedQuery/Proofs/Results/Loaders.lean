import LinkedQuery.Proofs.Reading.Log
import LinkedQuery.Settings.Basic
import Mathlib.Tactic.Use

/-!
# Richer loaders

A loader that serves every document that another one serves, and possibly more, changes no query
that was made with the other (`query_richer`): the other loader has answered every question that was
asked on the way to the query, and the richer one gives the same answers.  So queries stay what they
are when settings allow documents to be fetched.
-/

namespace LinkedQuery

namespace Loader

/-- Whether a loader serves every document that another one serves. -/
def Covers (richer poorer : Loader) : Prop :=
  ∀ iri document, poorer iri = .ok document → richer iri = .ok document

/-- Serves some documents and asks the network for the others. -/
def caching (documents : Entries Json) (network : Loader) : Loader := fun iri =>
  match documents.lookup iri with
  | some document => .ok document
  | none => network iri

theorem caching_covers_ofDocuments (documents : Entries Json) (network : Loader) :
  (caching documents network).Covers (ofDocuments documents)
  := by
  intro iri document h
  cases hlookup : documents.lookup iri with
  | none => simp [ofDocuments, hlookup] at h
  | some held => simpa [ofDocuments, caching, hlookup] using h

end Loader

/-! ### Contexts -/

namespace Context

/-- Whether references that become a context in one way to follow them become the same one in
another. -/
def Follower.Covers (richer poorer : Follower) : Prop :=
  ∀ context reference result, poorer context reference = .ok result →
    richer context reference = .ok result

mutual

theorem processWith_mono {poorer richer : Follower} (covers : richer.Covers poorer) :
    ∀ {declared : Json} {context result : Context},
      processWith poorer context declared = .ok result →
      processWith richer context declared = .ok result
  | .null, _, _, h => h
  | .boolean _, _, _, h => h
  | .number _, _, _, h => h
  | .object _, _, _, h => h
  | .string reference, context, result, h => covers context reference result h
  | .array _, _, _, h => processEach_mono covers h

theorem processEach_mono {poorer richer : Follower} (covers : richer.Covers poorer) :
    ∀ {items : List Json} {context result : Context},
      processEach poorer context items = .ok result →
      processEach richer context items = .ok result
  | [], _, _, h => h
  | item :: items, context, result, h => by
      rw [processEach] at h ⊢
      cases hfirst : processWith poorer context item with
      | error fault => simp [hfirst] at h
      | ok next =>
          rw [hfirst] at h
          rw [processWith_mono covers hfirst]
          apply processEach_mono covers h

end

/-- A richer loader follows references to the same contexts, through as many documents. -/
theorem follow_mono {poorer richer : Loader} (covers : richer.Covers poorer) (depth : Nat) :
  Follower.Covers (follow richer depth) (follow poorer depth)
  := by
  induction depth with
  | zero =>
      intro context reference result h
      cases h
  | succ depth ih =>
      intro context reference result h
      rw [follow] at h ⊢
      obtain ⟨document, loads, h⟩ := bind_eq_ok.mp h
      rw [covers _ document loads, ok_bind]
      cases held : document.entry? Keyword.context.text with
      | none => simp [held] at h
      | some remote =>
          rw [held] at h
          apply processWith_mono ih h

theorem enter_mono {poorer richer : Loader} (covers : richer.Covers poorer) {context : Context}
    {declared : Option Json} {result : Context} (h : context.enter poorer declared = .ok result) :
  context.enter richer declared = .ok result
  := by
  cases declared with
  | none => apply h
  | some declared => apply processWith_mono (follow_mono covers greatestDepth) h

end Context

/-! ### Readings -/

/-- Whether a setup names variables like another one and enters every context that it enters. -/
structure Setup.Covers (richer poorer : Setup) : Prop where
  naming_eq : richer.naming = poorer.naming
  enter : ∀ {context declared result},
    poorer.enter context declared = .ok result → richer.enter context declared = .ok result

/-- A richer loader makes a richer setup. -/
theorem Loader.Covers.setup {poorer richer : Loader} (covers : richer.Covers poorer)
    (naming : Naming) :
  Setup.Covers ⟨richer, naming⟩ ⟨poorer, naming⟩
  where
  naming_eq := rfl
  enter := by
    intro context declared result h
    rw [Setup.enter_eq_ok] at h ⊢
    apply Context.enter_mono covers h

section Readings

variable {poorer richer : Setup} (covers : richer.Covers poorer)

include covers

theorem Ends.mono {visit : Visit} {found : Match} (last : Ends poorer visit found) :
  Ends richer visit found
  := by
  cases last with
  | null => apply Ends.null
  | placeholder => apply Ends.placeholder
  | scalar known held => apply Ends.scalar known held
  | valueObject entered held => apply Ends.valueObject (covers.enter entered) held
  | setObject => apply Ends.setObject
  | noItems => apply Ends.noItems
  | noMembers => apply Ends.noMembers
  | noNodes refused =>
      rw [← covers.naming_eq]
      apply Ends.noNodes refused

theorem Leads.mono {outer inner : Visit} {make : Match → Match}
    (step : Leads poorer outer inner make) :
  Leads richer outer inner make
  := by
  cases step with
  | document entered bare => apply Leads.document (covers.enter entered) bare
  | documentGraph entered held => apply Leads.documentGraph (covers.enter entered) held
  | documents => apply Leads.documents
  | nodeObjects objects => apply Leads.nodeObjects objects
  | items => apply Leads.items
  | topLevelGraph entered held chosen =>
      apply Leads.topLevelGraph (covers.enter entered) held chosen
  | entryValue entered chosen => apply Leads.entryValue (covers.enter entered) chosen
  | listObject entered held => apply Leads.listObject (covers.enter entered) held
  | members =>
      rw [← covers.naming_eq]
      apply Leads.members
  | onlyMember single =>
      rw [← covers.naming_eq]
      apply Leads.onlyMember single
  | graphObject entered held => apply Leads.graphObject (covers.enter entered) held
  | graphNodes objects =>
      rw [← covers.naming_eq]
      apply Leads.graphNodes objects
  | graphNode =>
      rw [← covers.naming_eq]
      apply Leads.graphNode
  | graphValue => apply Leads.graphValue

theorem NodeObject.Branch.Fits.mono {context : Context} {branch : NodeObject.Branch}
    (fits : branch.Fits poorer context) :
  branch.Fits richer context
  := by
  cases branch with
  | plain row => apply fits
  | linked row link inner item log => exact ⟨fits.1, covers.enter fits.2⟩

theorem NodeObject.Reads.mono {entries : List (String × Json)} {frame : Frame} {context : Context}
    {branches : List NodeObject.Branch}
    (reads : NodeObject.Reads poorer entries frame context branches) :
  NodeObject.Reads richer entries frame context branches
  where
  entered := covers.enter reads.entered
  rows_eq := by
    rw [covers.naming_eq]
    apply reads.rows_eq
  fits branch hbranch := (reads.fits branch hbranch).mono covers

/-- With a richer loader, everything is read as before. -/
theorem Derives.mono {visit : Visit} {found : Match} {log : Log}
    (derived : Derives poorer visit found log) :
  Derives richer visit found log
  := by
  induction derived with
  | ends last => apply Derives.ends (last.mono covers)
  | leads step _ ih => apply Derives.leads (step.mono covers) ih
  | node reads _ ih => apply Derives.node (reads.mono covers) ih

theorem Setup.Covers.query {document : Json} {query : Query}
    (h : poorer.grammar.query document = .ok query) :
  richer.grammar.query document = .ok query
  := by
  obtain ⟨found, log, derived, hquery⟩ := query_eq_ok.mp h
  have hvisit : richer.documentVisit document = poorer.documentVisit document := by
    rw [Setup.documentVisit, covers.naming_eq, Setup.documentVisit]
  apply query_eq_ok.mpr
  use found, log
  rw [hvisit]
  exact ⟨derived.mono covers, hquery⟩

end Readings

/-! ### Queries -/

/-- Settings that allow no fetching serve no documents but those that are put before a network. -/
theorem Settings.caching_covers_loader {settings : Settings}
    (offline : settings.remoteContexts = false) (network : Loader) :
  (Loader.caching settings.contextCache network).Covers settings.loader
  := by
  simp only [loader, offline, Bool.false_eq_true, if_false]
  split
  · intro iri document h
    cases h
  · apply Loader.caching_covers_ofDocuments

/-- A query is the same with every loader that serves the documents of a loader with which there is
a query.  So a query that settings give without fetching is given with fetching too, whatever the
network answers. -/
theorem query_richer (document : Json) (query : Query) :
  (∀ naming poorer richer, Loader.Covers richer poorer →
      (Setup.grammar ⟨poorer, naming⟩).query document = .ok query →
      (Setup.grammar ⟨richer, naming⟩).query document = .ok query) ∧
    ∀ settings : Settings, settings.remoteContexts = false →
      settings.grammar.query document = .ok query →
      { settings with remoteContexts := true }.grammar.query document = .ok query ∧
        ∀ network, (Setup.grammar ⟨.caching settings.contextCache network,
          settings.grammar.naming⟩).query document = .ok query
  := by
  have hloaders (naming : Naming) (poorer richer : Loader) (covers : richer.Covers poorer)
      (h : (Setup.grammar ⟨poorer, naming⟩).query document = .ok query) :
      (Setup.grammar ⟨richer, naming⟩).query document = .ok query :=
    (covers.setup naming).query h
  use hloaders
  intro settings offline h
  have hcaching (network : Loader) := hloaders settings.grammar.naming settings.loader _
    (settings.caching_covers_loader offline network) h
  constructor
  · -- Fetching is asking a network that is never reached.
    apply hcaching fun iri => .error (.loadingFailed iri (Loader.fetchFailure iri))
  · apply hcaching

/-- Settings with one document at hand, and no fetching. -/
def shelved : Settings where
  contextCache :=
    [("http://example.org/terms",
      .object [("@context", .object [("name", .string "http://example.org/name")])])]

/-- A query document whose context is the one at hand. -/
def signature : Json :=
  .object [("@context", .string "http://example.org/terms"), ("name", .string "?")]

/-- The query for the name is the same when fetching is allowed, and when the documents at hand are
put before a network that answers everything with null. -/
theorem query_richer_signature :
  ∃ query, shelved.grammar.query signature = .ok query ∧
    query.projections = [⟨"root·name"⟩] ∧
    { shelved with remoteContexts := true }.grammar.query signature = .ok query ∧
    (Setup.grammar ⟨.caching shelved.contextCache fun _ => .ok .null, {}⟩).query signature
      = .ok query
  := by
  have houtcome : (shelved.grammar.query signature).toOption.map Query.projections
      = some [⟨"root·name"⟩] := by decide +kernel
  obtain ⟨query, h, hselected⟩ := exists_of_outcome _ _ houtcome
  obtain ⟨hloaders, hsettings⟩ := query_richer signature query
  use query, h, hselected, (hsettings shelved rfl h).1
  apply hloaders {} shelved.loader _ (Settings.caching_covers_loader rfl _)
  apply h

end LinkedQuery
