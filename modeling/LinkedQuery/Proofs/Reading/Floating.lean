import LinkedQuery.Proofs.Reading.Reorder

/-!
# Entries that float

The local context of an object, and the entry that names it if there is only one, do the same
wherever they stand.  When entries are `Repositions` of others, these two have moved and the others
have stayed in order, and the object has the same match, rearranged.
-/

namespace LinkedQuery

/-- Whether an entry can stand anywhere in an object with some keys: it is the local context, or it
is the only entry that names the object. -/
def Context.floats (context : Context) (keys : List String) (key : String) : Bool :=
  key == Keyword.context.text ||
    decide (NodeObject.countNames context keys ≤ 1) && context.meaning key == .keyword .id

/-- Whether entries are others in which only those have moved that float in a context. -/
structure Context.Repositions (context : Context) (entries entries' : List (String × Json)) :
    Prop where
  perm : entries'.Perm entries
  others : entries'.filter (fun entry => !context.floats (entries.map Prod.fst) entry.1)
    = entries.filter fun entry => !context.floats (entries.map Prod.fst) entry.1

section Entries

variable {context : Context} {entries entries' : List (String × Json)} {keys : List String}
  {key : String}

/-- A key that floats stands for the local context or for the name. -/
theorem Context.meaning_of_floats (h : context.floats keys key = true) :
  context.meaning key = .keyword .context ∨ context.meaning key = .keyword .id
  := by
  simp only [floats, Bool.or_eq_true, Bool.and_eq_true, beq_iff_eq] at h
  rcases h with rfl | ⟨-, hmeaning⟩
  · exact .inl (context.meaning_text .context)
  · exact .inr hmeaning

/-- Entries that float have no part in which entry is for a keyword. -/
theorem Context.Repositions.entryFor? (repositions : context.Repositions entries entries')
    {keyword : Keyword} (other : keyword ≠ .context) :
  context.entryFor? entries' keyword = context.entryFor? entries keyword
  := by
  by_cases hid : keyword = .id ∧ NodeObject.countNames context (entries.map Prod.fst) ≤ 1
  · obtain ⟨rfl, hnames⟩ := hid
    apply Context.entryFor?_id_perm hnames repositions.perm
  · have hfind (given : List (String × Json)) :
        context.entryFor? given keyword
          = (given.filter fun entry => !context.floats (entries.map Prod.fst) entry.1).find?
              fun entry => context.meaning entry.1 == .keyword keyword := by
      rw [Context.entryFor?, List.find?_filter]
      congr 1
      funext entry
      rw [Bool.eq_iff_iff, decide_eq_true_iff, beq_iff_eq]
      refine ⟨fun hmeaning => ⟨?_, hmeaning⟩, And.right⟩
      rw [Bool.not_eq_true', floats, Bool.or_eq_false_iff]
      constructor
      · rw [beq_eq_false_iff_ne]
        intro hkey
        rw [hkey, Context.meaning_text, Meaning.keyword.injEq] at hmeaning
        exact other hmeaning.symm
      · simp only [hmeaning, Bool.and_eq_false_iff, decide_eq_false_iff_not, beq_eq_false_iff_ne,
          ne_eq, Meaning.keyword.injEq]
        exact (not_and_or.mp hid).symm
    rw [hfind, hfind, repositions.others]

end Entries

/-! ### Objects that hold something under a keyword -/

section Objects

variable {context : Context} {entries entries' : List (String × Json)} {target : Variable}
  {key : String} {value : Json}

theorem Template.reordered_around (h : entries'.Perm entries) (key : String)
    (template : Template) :
  (around entries key template).Reordered [] (around entries' key template)
  := .object (h.map _)

theorem ValueObject.repositioned_matchOf (repositions : context.Repositions entries entries') :
  Rearranged [] (matchOf context target entries key value)
    (matchOf context target entries' key value)
  := by
  have hentry {keyword : Keyword} (other : keyword ≠ .context) :=
    repositions.entryFor? other
  have haround := Template.reordered_around repositions.perm key
  have hdatatype : datatypeIn context entries' = datatypeIn context entries := by
    rw [datatypeIn, datatypeIn, hentry (by decide)]
  have hlanguage : languageIn context entries' = languageIn context entries := by
    rw [languageIn, languageIn, hentry (by decide)]
  rw [matchOf, matchOf]
  split
  · refine ⟨rfl, rfl, .refl _, haround _, ?_⟩
    rw [hentry (by decide), hentry (by decide)]
  · rw [constantOf, constantOf, hdatatype, hlanguage]
    exact ⟨rfl, rfl, .refl _, haround _, .refl _⟩

theorem TopLevelGraph.reordered_matchOf (h : entries'.Perm entries) (contents : Match) :
  Rearranged [] (matchOf entries key contents) (matchOf entries' key contents)
  := ⟨rfl, rfl, .refl _, Template.reordered_around h _ _, h.flatMap_right _⟩

theorem ListObject.reordered_matchOf (h : entries'.Perm entries) (list : Match) :
  Rearranged [] (matchOf entries key list) (matchOf entries' key list)
  := ⟨rfl, rfl, .refl _, Template.reordered_around h _ _, .refl _⟩

theorem GraphObject.repositioned_matchOf (repositions : context.Repositions entries entries')
    (members : Match) :
  Rearranged [] (matchOf context target entries key members)
    (matchOf context target entries' key members)
  := by
  have hid : context.entryFor? entries' .id = context.entryFor? entries .id :=
    repositions.entryFor? (by decide)
  simp only [matchOf, shareOf, identityOf, hid]
  exact ⟨rfl, rfl, .refl _, .object (repositions.perm.map _), repositions.perm.flatMap_right _⟩

end Objects

/-! ### Node objects -/

namespace NodeObject

section Rows

variable (naming : Naming) (context : Context) (target : Variable)

/-- The rows of entries that stand behind others, which may have named the node and have claimed
segments. -/
def rowsBehind (named : Bool) (siblings : Siblings) (entries : List (String × Json)) : List Row :=
  rowsOf (roles naming context target named siblings (entries.map Prod.fst)) entries

/-- The first of some rows, and what it leaves for the others. -/
theorem exists_rowsBehind_cons (named : Bool) (siblings : Siblings) (key : String)
    (value : Json) :
  ∃ role named' siblings',
    (∀ entries, rowsBehind naming context target named siblings ((key, value) :: entries)
      = ⟨role, key, value⟩ :: rowsBehind naming context target named' siblings' entries) ∧
    (context.meaning key = .keyword .context →
      role = .context ∧ named' = named ∧ siblings' = siblings) ∧
    (context.meaning key = .keyword .id →
      role = (if named then .duplicateId else .id) ∧ named' = true ∧ siblings' = siblings) ∧
    (context.meaning key ≠ .keyword .id → named' = named)
  := by
  simp only [rowsBehind, List.map_cons, roles]
  cases hmeaning : context.meaning key with
  | keyword keyword =>
      cases keyword with
      | id => exact ⟨_, _, _, fun _ => rfl, by simp, fun _ => ⟨rfl, rfl, rfl⟩, by simp⟩
      | context => exact ⟨_, _, _, fun _ => rfl, fun _ => ⟨rfl, rfl, rfl⟩, by simp, fun _ => rfl⟩
      | _ => exact ⟨_, _, _, fun _ => rfl, by simp, by simp, fun _ => rfl⟩
  | _ => exact ⟨_, _, _, fun _ => rfl, by simp, by simp, fun _ => rfl⟩

/-- Keys of which none is for the name have the same roles, be the node named or not. -/
theorem roles_of_unnamed {keys : List String} (unnamed : countNames context keys = 0)
    (named named' : Bool) (siblings : Siblings) :
  roles naming context target named siblings keys
    = roles naming context target named' siblings keys
  := by
  induction keys generalizing siblings with
  | nil => rfl
  | cons key keys ih =>
      rw [countNames_cons, Nat.add_eq_zero_iff] at unnamed
      obtain ⟨hkeys, hkey⟩ := unnamed
      simp only [roles]
      cases hmeaning : context.meaning key with
      | keyword keyword =>
          cases keyword with
          | id => simp [hmeaning] at hkey
          | _ => simp only [ih hkeys]
      | _ => simp only [ih hkeys]

/-- Behind the only entry for the name, rows are as if the node were not named. -/
theorem rowsBehind_of_unnamed {entries : List (String × Json)}
    (unnamed : countNames context (entries.map Prod.fst) = 0) (keep : String × Json → Bool)
    (siblings : Siblings) :
  rowsBehind naming context target true siblings (entries.filter keep)
    = rowsBehind naming context target false siblings (entries.filter keep)
  := by
  rw [rowsBehind, rowsBehind, roles_of_unnamed]
  apply Nat.eq_zero_of_le_zero
  rw [← unnamed]
  apply List.Sublist.countP_le
  apply List.filter_sublist.map

/-- The row of an entry that floats. -/
def floatingRow (entry : String × Json) : Row :=
  ⟨if entry.1 = Keyword.context.text then .context else .id, entry.1, entry.2⟩

/-- The rows of entries that float are what they are alone, and the other rows are what they are
without those. -/
theorem filter_rowsBehind {single : Bool} {floats : String → Bool}
    (hfloats : ∀ key, floats key = (key == Keyword.context.text ||
      single && context.meaning key == .keyword .id)) (named : Bool) (siblings : Siblings)
    {entries : List (String × Json)}
    (names : single = true → named.toNat + countNames context (entries.map Prod.fst) ≤ 1) :
  (rowsBehind naming context target named siblings entries).filter (fun row => !floats row.key)
      = rowsBehind naming context target named siblings
          (entries.filter fun entry => !floats entry.1) ∧
    (rowsBehind naming context target named siblings entries).filter (fun row => floats row.key)
      = (entries.filter fun entry => floats entry.1).map floatingRow
  := by
  induction entries generalizing named siblings with
  | nil => exact ⟨rfl, rfl⟩
  | cons entry entries ih =>
      obtain ⟨key, value⟩ := entry
      obtain ⟨role, named', siblings', hstep, hcontext, hid, hother⟩ :=
        exists_rowsBehind_cons naming context target named siblings key value
      rw [List.map_cons, countNames_cons] at names
      rw [hstep]
      cases hkey : floats key with
      | false =>
          have hnames : single = true →
              named'.toNat + countNames context (entries.map Prod.fst) ≤ 1 := by
            intro hsingle
            have hmeaning : context.meaning key ≠ .keyword .id := by
              intro hmeaning
              simp [hfloats, hsingle, hmeaning] at hkey
            rw [hother hmeaning]
            simpa [hmeaning] using names hsingle
          obtain ⟨hothers, hfloating⟩ := ih _ siblings' hnames
          simp [hkey, hstep, hothers, hfloating]
      | true =>
          simp only [List.filter_cons, hkey, Bool.not_true, Bool.false_eq_true, if_false, if_true,
            List.map_cons]
          rw [hfloats, Bool.or_eq_true, Bool.and_eq_true, beq_iff_eq, beq_iff_eq] at hkey
          rcases hkey with rfl | ⟨hsingle, hmeaning⟩
          · have hmeaning := context.meaning_text .context
            obtain ⟨rfl, rfl, rfl⟩ := hcontext hmeaning
            obtain ⟨hothers, hfloating⟩ := ih named' siblings' (by simpa [hmeaning] using names)
            rw [hothers, hfloating]
            exact ⟨rfl, rfl⟩
          · -- The only entry for the name is here, so there is none behind it.
            obtain ⟨rfl, rfl, rfl⟩ := hid hmeaning
            have hnames := names hsingle
            rw [if_pos hmeaning] at hnames
            obtain ⟨rfl, hnone⟩ : named = false ∧
                countNames context (entries.map Prod.fst) = 0 := by
              cases named with
              | true =>
                  rw [Bool.toNat_true] at hnames
                  omega
              | false => exact ⟨rfl, by omega⟩
            obtain ⟨hothers, hfloating⟩ := ih true siblings' (by simp [hnone])
            have hkey : key ≠ Keyword.context.text := by
              rintro rfl
              rw [context.meaning_text] at hmeaning
              cases hmeaning
            rw [hothers, hfloating, floatingRow, if_neg hkey, rowsBehind_of_unnamed _ _ _ hnone]
            exact ⟨rfl, rfl⟩

end Rows

/-! ### Branches -/

section Branches

variable {setup : Setup} {entries entries' : List (String × Json)} {frame : Frame}
  {context : Context} {branches branches' : List Branch}

/-- When entries that float are moved, the rows are moved with them. -/
theorem rows_repositioned (repositions : context.Repositions entries entries') (naming : Naming)
    (target : Variable) :
  let stays (row : Row) := !context.floats (entries.map Prod.fst) row.key
  (rows naming context target entries').Perm (rows naming context target entries) ∧
    (rows naming context target entries').filter stays
      = (rows naming context target entries).filter stays
  := by
  let floats := context.floats (entries.map Prod.fst)
  have hkeys : (entries'.map Prod.fst).Perm (entries.map Prod.fst) := repositions.perm.map _
  have hsplit (given : List (String × Json))
      (hgiven : (given.map Prod.fst).Perm (entries.map Prod.fst)) :
      (rows naming context target given).filter (fun row => !floats row.key)
          = rowsBehind naming context target false {} (given.filter fun entry => !floats entry.1) ∧
        (rows naming context target given).filter (fun row => floats row.key)
          = (given.filter fun entry => floats entry.1).map floatingRow := by
    apply filter_rowsBehind naming context target (fun _ => rfl) false {}
    intro hsingle
    rw [countNames, hgiven.countP_eq, Bool.toNat_false, Nat.zero_add]
    exact of_decide_eq_true hsingle
  obtain ⟨hothers, hfloating⟩ := hsplit entries (.refl _)
  obtain ⟨hothers', hfloating'⟩ := hsplit entries' hkeys
  have hstay : (rows naming context target entries').filter (fun row => !floats row.key)
      = (rows naming context target entries).filter fun row => !floats row.key := by
    rw [hothers, hothers', repositions.others]
  refine ⟨?_, hstay⟩
  have hfloat : ((rows naming context target entries').filter fun row => floats row.key).Perm
      ((rows naming context target entries).filter fun row => floats row.key) := by
    rw [hfloating, hfloating']
    apply (repositions.perm.filter _).map
  have hwhole (given : List Row) := List.filter_append_perm (fun row => floats row.key) given
  exact (hwhole _).symm.trans ((hfloat.append (.of_eq hstay)).trans (hwhole _))

/-- Items in another order, whose distinct values are in the same order, are in the same order. -/
theorem eq_of_perm_of_map_eq {α β : Type} {f : α → β} {items items' : List α}
    (distinct : (items.map f).Nodup) (h : items'.Perm items) (same : items'.map f = items.map f) :
  items' = items
  := by
  induction items generalizing items' with
  | nil => exact List.perm_nil.mp h
  | cons first items ih =>
      obtain ⟨first', others, rfl, hfirst, hothers⟩ := List.map_eq_cons_iff.mp same
      obtain rfl : first' = first := by
        apply List.inj_on_of_nodup_map distinct (h.mem_iff.mp List.mem_cons_self)
          List.mem_cons_self hfirst
      rw [ih (List.nodup_cons.mp distinct).2 h.cons_inv hothers]

/-- When entries that float are moved, the branches are moved with them. -/
theorem Reads.reposition (reads : Reads setup entries frame context branches)
    (distinct : (entries.map Prod.fst).Nodup)
    (repositions : context.Repositions entries entries') :
  let stays (branch : Branch) := !context.floats (entries.map Prod.fst) branch.row.key
  ∃ branches', Reads setup entries' frame context branches' ∧ branches'.Perm branches ∧
    branches'.filter stays = branches.filter stays
  := by
  obtain ⟨hperm, hstay⟩ := rows_repositioned repositions setup.naming frame.target
  have hforall : List.Forall₂ (fun row (branch : Branch) => row = branch.row)
      (rows setup.naming context frame.target entries) branches := by
    rw [← reads.rows_eq, List.forall₂_map_left_iff, List.forall₂_same]
    intros
    rfl
  obtain ⟨branches', hrows, hbranches⟩ := List.perm_comp_forall₂ hperm hforall
  have hrows' : branches'.map Branch.row
      = rows setup.naming context frame.target entries' := by
    rw [eq_comm, ← List.forall₂_eq_eq_eq, List.forall₂_map_right_iff]
    apply hrows
  refine ⟨branches', ⟨?_, hrows', ?_⟩, hbranches, ?_⟩
  · rw [Entries.lookup_perm distinct repositions.perm, reads.entered]
  · intro branch hbranch
    apply reads.fits branch (hbranches.mem_iff.mp hbranch)
  · apply eq_of_perm_of_map_eq (f := Branch.row) _ (hbranches.filter _)
    · rw [← hrows', ← reads.rows_eq, List.filter_map, List.filter_map] at hstay
      exact hstay
    · rw [reads.map_key] at distinct
      apply List.Nodup.of_map Row.key
      rw [List.map_map]
      exact (List.filter_sublist.map _).nodup distinct

/-- What is collected from items is what is collected from those that give something. -/
theorem flatMap_filter_eq {α β : Type} {keep : α → Bool} {collect : α → List β} (items : List α)
    (nothing : ∀ item ∈ items, keep item = false → collect item = []) :
  (items.filter keep).flatMap collect = items.flatMap collect
  := by
  induction items with
  | nil => rfl
  | cons first items ih =>
      obtain ⟨hfirst, hothers⟩ := List.forall_mem_cons.mp nothing
      rw [List.filter_cons, List.flatMap_cons]
      cases hkeep : keep first with
      | true => rw [if_pos rfl, List.flatMap_cons, ih hothers]
      | false => rw [if_neg Bool.false_ne_true, ih hothers, hfirst hkeep, List.nil_append]

/-- An entry that floats adds nothing to the pattern of its node. -/
theorem Reads.share_of_floats (reads : Reads setup entries frame context branches)
    {branch : Branch} (hbranch : branch ∈ branches) {keys : List String}
    (h : context.floats keys branch.row.key = true) (scope : Scope) :
  (branch.share scope).required = [] ∧ (branch.share scope).optional = []
  := by
  have hsuits := reads.suits hbranch
  obtain ⟨row, rfl⟩ : ∃ row, branch = .plain row := by
    rcases Context.meaning_of_floats h with hmeaning | hmeaning
    · exact reads.exists_plain hbranch hmeaning
    · exact reads.exists_plain hbranch hmeaning
  obtain ⟨role, key, value⟩ := row
  simp only [Branch.row] at h hsuits
  rcases Context.meaning_of_floats h with hmeaning | hmeaning
  · rw [hmeaning] at hsuits
    cases hsuits with
    | context => exact ⟨rfl, rfl⟩
    | unsupported apart => exact absurd rfl apart.1
  · rw [hmeaning] at hsuits
    cases hsuits with
    | id =>
        simp only [Branch.share, Row.plainShare, idShare]
        split
        all_goals exact ⟨rfl, rfl⟩
    | duplicateId => exact ⟨rfl, rfl⟩
    | unsupported apart => exact absurd rfl apart.2.1

/-- A node object of which entries that float are moved. -/
theorem Reads.exists_repositioned (reads : Reads setup entries frame context branches)
    (visited : Visited setup branches) (distinct : (entries.map Prod.fst).Nodup)
    (repositions : context.Repositions entries entries') :
  ∃ found', setup.run ⟨.production .nodeObject, .object entries', frame⟩ = .ok found' ∧
    Rearranged [] (matchOf context frame.target entries branches) found'
  := by
  obtain ⟨branches', reads', hperm, hstay⟩ := reads.reposition distinct repositions
  have hrun := reads'.run fun row link inner item log hbranch =>
    (visited row link inner item log (hperm.mem_iff.mp hbranch)).run
  refine ⟨_, hrun, ?_⟩
  have hscope : scopeOf context frame.target entries' = scopeOf context frame.target entries := by
    rw [scopeOf, scopeOf, repositions.entryFor? (by decide)]
  let scope := scopeOf context frame.target entries
  -- Only the branches that stay have a part in the pattern.
  have hcollect (collect : Branch → List Pattern)
      (nothing : ∀ branch ∈ branches,
        context.floats (entries.map Prod.fst) branch.row.key = true → collect branch = []) :
      branches'.flatMap collect = branches.flatMap collect := by
    rw [← flatMap_filter_eq branches, ← hstay, flatMap_filter_eq]
    · intro branch hbranch hfloats
      apply nothing branch (hperm.mem_iff.mp hbranch) (by simpa using hfloats)
    · intro branch hbranch hfloats
      apply nothing branch hbranch (by simpa using hfloats)
  have hrequired := hcollect (fun branch => (branch.share scope).required)
    fun branch hbranch hfloats => (reads.share_of_floats hbranch hfloats scope).1
  have hoptional := hcollect (fun branch => (branch.share scope).optional)
    fun branch hbranch hfloats => (reads.share_of_floats hbranch hfloats scope).2
  rw [matchOf, matchOf, hscope]
  constructor
  · rfl
  · simp only [assemble, List.flatMap_map]
    rw [hrequired, hoptional]
  · exact (hperm.map _).flatMap_right _
  · exact .object ((hperm.map _).map _)
  · exact (hperm.map _).flatMap_right _

end Branches

end NodeObject

end LinkedQuery
