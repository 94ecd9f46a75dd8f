import RecordSql.Proofs.EmptyLists
import RecordSql.Proofs.SameRows

/-!
# What the global search lets through

The global search is a group of conditions with `OR` between them, one for each searchable column
whose type can hold what is searched for. The others are left out.

* As long as one column is left, the clause is there, and whatever else it asks, it holds only when
  the search holds on one of these columns. A clause with an empty list is read as nothing, since no
  text of the grammar has an empty pair of parentheses.
* When no column is left, the group is empty. An empty group is taken for one that was not asked
  for, so the clause is that of the listing without the search, and there may be none.
-/

namespace RecordSql

open Text Checked

namespace Builder

variable {b : Builder} {e : Entity} {l : Listing} {search : Predicate} {target : Target}
  {searches : List Sql} {clause : Option Sql}

/-- A searchable column that can hold what is searched for. -/
structure Searched (e : Entity) (l : Listing) (search : Predicate) (target : Target) : Prop where
  searchable : ∃ name ∈ searchableColumns l, e.resolve? name = some target
  holds : ∃ condition, search.coerce target.dataType = .ok condition

/-- What is asked by the global search is asked of searched columns. -/
theorem searched_of_mem_searchAsks (hs : l.search = some search) {φ : Formula}
    (h : φ ∈ b.searchAsks e l) :
    ∃ target, Searched e l search target ∧ b.ask? search target = some φ := by
  unfold searchAsks at h
  rw [hs] at h
  obtain ⟨name, hname, hask⟩ := List.mem_filterMap.1 h
  obtain ⟨target, ht, hask⟩ := Option.bind_eq_some_iff.1 hask
  refine ⟨target, ⟨⟨name, hname, ht⟩, ?_⟩, hask⟩
  unfold ask? at hask
  split at hask
  next condition _ hcoerce _ => exact ⟨condition, hcoerce⟩
  next => exact absurd hask (by simp)

/-- The group of the search is empty just when no column is searched. -/
theorem searchConditions_eq_nil_iff (hs : l.search = some search)
    (h : b.searchConditions e l = .ok searches) :
    searches = [] ↔ ∀ target, ¬ Searched e l search target := by
  constructor
  · rintro rfl target ⟨⟨name, hname, ht⟩, condition, hcoerce⟩
    obtain ⟨target', ht', hkept⟩ := mem_searchConditions h hs hname
    obtain rfl := Option.some.inj (ht'.symm.trans ht)
    obtain ⟨operand, -, hmem⟩ := hkept condition hcoerce
    exact absurd hmem List.not_mem_nil
  · intro hnone
    refine List.eq_nil_iff_forall_not_mem.2 fun sql hsql => ?_
    obtain ⟨search', hs', name, hname, target, ht, condition, hcoerce, -⟩ :=
      exists_of_mem_searchConditions h hsql
    obtain rfl := Option.some.inj (hs'.symm.trans hs)
    exact hnone target ⟨⟨name, hname, ht⟩, condition, hcoerce⟩

/-- Without conditions of its own, the search leaves no trace in the clause. -/
theorem filterClause_without_search (h : b.filterClause e l = .ok clause)
    (hs : b.searchConditions e l = .ok []) :
    b.filterClause e { l with search := none } = .ok clause := by
  obtain ⟨columns, searches, hcolumns, hsearches, hclause⟩ := filterClause_eq_ok.1 h
  obtain rfl := Except.ok.inj (hs.symm.trans hsearches)
  exact filterClause_eq_ok.2 ⟨columns, [], hcolumns, rfl, hclause⟩

theorem combine_isSome (columns : List Sql) (h : searches ≠ []) :
    ∃ sql, combine columns searches = some sql := by
  obtain ⟨search, searches, rfl⟩ := List.exists_cons_of_ne_nil h
  cases columns with
  | nil => exact ⟨_, rfl⟩
  | cons column columns => exact ⟨_, rfl⟩

/-- A formula that holds only when the search holds on a searched column. -/
def Restricts (b : Builder) (e : Entity) (l : Listing) (search : Predicate) (φ : Formula) : Prop :=
  ∀ truth, φ.Holds truth →
    ∃ target ψ, Searched e l search target ∧ b.ask? search target = some ψ ∧ ψ.Holds truth

/-- A reading of a clause, wherever it stands in a statement. -/
def ReadAs (b : Builder) (e : Entity) (sql : Sql) (φ : Formula) : Prop :=
  ∃ before after, Derives (b.reading e (before ++ sql ++ after)) .disjunction
    (Sql.charsFrom b.style before.bindings.length sql) φ

section Present

variable {sql : Sql} (h : b.filterClause e l = .ok (some sql))
include h

/-- A clause that is read as anything has no empty list. -/
theorem sound_of_readAs (hc : e.check = .ok ()) {φ : Formula} (hread : b.ReadAs e sql φ) :
    l.Sound := by
  obtain ⟨before, after, hderives⟩ := hread
  by_contra hl
  refine not_emptyList_of_filled (hderives.filled ?_) (filterClause_listsNothing h hl _)
  rintro text ⟨target, operand, hr, ho, rfl⟩
  exact (filled_operand b.style (hr.declares.check hc) ho).1

variable (hs : l.search = some search) (hsearched : ∃ target, Searched e l search target)
include hs hsearched

/-- The group of the search is one of those that have to hold. -/
theorem exists_means_restricts (hl : l.Sound) :
    ∃ φ, b.Means e sql φ ∧ b.Restricts e l search φ := by
  obtain ⟨columns, searches, hcolumns, hsearches, hclause⟩ := filterClause_eq_ok.1 h
  have hanswers := searchConditions_answer_of_sound hl hsearches
  have hsays := says_combine (columnConditions_answer_of_sound hl hcolumns) hanswers
  obtain ⟨φ, hmeans, -, hholds⟩ := hsays.present sql hclause
  have hasks : b.searchAsks e l ≠ [] := by
    intro hnil
    rw [hnil, List.forall₂_nil_right_iff, searchConditions_eq_nil_iff hs hsearches] at hanswers
    obtain ⟨target, htarget⟩ := hsearched
    exact hanswers target htarget
  refine ⟨φ, hmeans, fun truth hφ => ?_⟩
  obtain ⟨ψ, hψ, htruth⟩ := (hholds truth).1 hφ _ (List.mem_cons_of_mem _ List.mem_cons_self) hasks
  obtain ⟨target, htarget, hask⟩ := searched_of_mem_searchAsks hs hψ
  exact ⟨target, ψ, htarget, hask, htruth⟩

theorem restricts_of_readAs (hc : e.check = .ok ()) {φ : Formula} (hread : b.ReadAs e sql φ) :
    b.Restricts e l search φ := by
  obtain ⟨ψ, hmeans, hrestricts⟩ :=
    exists_means_restricts h hs hsearched (sound_of_readAs h hc hread)
  obtain ⟨before, after, hderives⟩ := hread
  rwa [hmeans.only hc before after φ hderives]

end Present

/-- A clause stands behind the `WHERE` of its listing. -/
theorem listingText_filterClause {sql : Sql} (h : b.filterClause e l = .ok (some sql))
    {s : Statement} (hs : b.select e (some l) = .ok s) :
    ∃ source text, b.Encloses s text ∧
      b.ListingText l source (" WHERE " ++ sql.write b.style) text := by
  obtain ⟨_, _, hbody, _⟩ := build_eq_ok.1 hs
  obtain ⟨_, _, source, hsource, _⟩ := selectBody_eq_ok.1 hbody
  obtain ⟨⟨text, henclosed, htext⟩, _⟩ := select_written hsource h hs
  rw [Sql.whereSuffix, Sql.write_text] at htext
  exact ⟨_, text, henclosed, htext⟩

/--
**A global search restricts as long as it is looked for somewhere.**

When a searchable column can hold what is searched for, the clause is there, it stands behind the
`WHERE` of the listing, and every reading of it says that the search holds on one of these columns.
The clause is read as something when its lists have items. When no searchable column can hold what
is searched for, the clause is the one of the listing without the search.
-/
theorem search_restricts (hs : l.search = some search) (h : b.filterClause e l = .ok clause) :
    ((∃ target, Searched e l search target) → ∃ sql, clause = some sql ∧
      (l.Sound → ∃ φ, b.Means e sql φ ∧ b.Restricts e l search φ) ∧
      (e.check = .ok () → ∀ φ, b.ReadAs e sql φ → b.Restricts e l search φ) ∧
      ∀ s, b.select e (some l) = .ok s → ∃ source text, b.Encloses s text ∧
        b.ListingText l source (" WHERE " ++ sql.write b.style) text) ∧
    ((∀ target, ¬ Searched e l search target) →
      b.filterClause e { l with search := none } = .ok clause) := by
  obtain ⟨columns, searches, hcolumns, hsearches, hclause⟩ := filterClause_eq_ok.1 h
  have hnil := searchConditions_eq_nil_iff hs hsearches
  constructor
  · intro hsearched
    have hne : searches ≠ [] := by
      intro hempty
      obtain ⟨target, htarget⟩ := hsearched
      exact hnil.1 hempty target htarget
    obtain ⟨sql, hsql⟩ := combine_isSome columns hne
    obtain rfl := hclause.symm.trans hsql
    exact ⟨sql, rfl, exists_means_restricts h hs hsearched,
      fun hc φ hread => restricts_of_readAs h hs hsearched hc hread,
      fun s hselect => listingText_filterClause h hselect⟩
  · intro hnone
    rw [hnil.2 hnone] at hsearches
    exact filterClause_without_search h hsearches

/-- A search for a name among the columns of a card. -/
def searchAnn (searchable : List String) : Listing :=
  { Listing.empty with
    search := some (.equals "Ann")
    columns := searchable.map fun name => ⟨name, true, none⟩ }

/-- A search in both columns looks at the name alone, and a search in the number at nothing. -/
theorem search_restricts_searchAnn :
    (∃ sql, Builder.default.filterClause annsCard (searchAnn ["Id", "Name"]) = .ok (some sql) ∧
      sql.write Builder.default.style = "t0.Name = @p0" ∧
      (∃ φ, Builder.default.Means annsCard sql φ) ∧
      ∀ φ, Builder.default.ReadAs annsCard sql φ → ∀ truth, φ.Holds truth →
        truth ⟨"t0.Name", .equals, [.text "Ann"]⟩) ∧
    Builder.default.filterClause annsCard { searchAnn ["Id"] with search := none } = .ok none := by
  have hcheck : annsCard.check = .ok () := rfl
  have hnumber : ∀ target, ¬ Searched annsCard (searchAnn ["Id"]) (.equals "Ann") target := by
    rintro target ⟨⟨name, hname, ht⟩, condition, hcoerce⟩
    obtain rfl := List.mem_singleton.1 hname
    obtain rfl := Option.some.inj ht
    cases hcoerce
  have hsound : (searchAnn ["Id", "Name"]).Sound := by
    refine ⟨fun c hc => absurd hc List.not_mem_nil, fun search hs _ => ?_⟩
    obtain rfl := Option.some.inj hs
    trivial
  constructor
  · obtain ⟨hpresent, -⟩ :=
      search_restricts (b := .default) (e := annsCard) (l := searchAnn ["Id", "Name"]) rfl rfl
    obtain ⟨sql, hsql, hmeans, hread, -⟩ := hpresent
      ⟨.field (Field.new "Name" .text), ⟨"Name", by decide, rfl⟩, _, rfl⟩
    obtain rfl := Option.some.inj hsql
    obtain ⟨φ, hφ, -⟩ := hmeans hsound
    refine ⟨_, rfl, by decide +kernel, ⟨φ, hφ⟩, fun φ hφ truth hholds => ?_⟩
    obtain ⟨target, ψ, ⟨⟨name, hname, ht⟩, condition, hcoerce⟩, hask, hψ⟩ :=
      hread hcheck φ hφ truth hholds
    rcases List.mem_pair.1 hname with rfl | rfl
    · obtain rfl := Option.some.inj ht
      cases hcoerce
    · obtain rfl := Option.some.inj ht
      obtain rfl := Option.some.inj hask
      exact hψ
  · exact (search_restricts (b := .default) (l := searchAnn ["Id"]) rfl rfl).2 hnumber

/-- **A search is dropped when no column can hold it**: every card is listed, though none has a
number that is searched for. -/
theorem search_dropped :
    searchableColumns (searchAnn ["Id"]) = ["Id"] ∧
    Builder.default.filterClause annsCard (searchAnn ["Id"]) = .ok none ∧
    ∃ s, Builder.default.run (.select annsCard (some (searchAnn ["Id"]))) = .ok s ∧
      s.text = "SELECT t0.Id, t0.Name FROM Card t0" :=
  ⟨rfl, rfl, _, rfl, by decide +kernel⟩

end Builder

end RecordSql
