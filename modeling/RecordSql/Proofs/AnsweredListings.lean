import RecordSql.Proofs.Refusals
import RecordSql.Proofs.Windows

/-!
# Which listings are answered

The conditions that a listing has to meet are spread over the steps of its builder, and the steps
are taken in an order of their own: its filter, its global search, its order, its page. Taken
together they ask for little:

* a name is looked up just where it is used: for a search of the column itself, for the global
  search, for a sort;
* a column that is searched has to hold what is searched for, while the global search passes over
  columns that cannot hold it;
* a page has to have numbers that fit, and something to be ordered by.

An entity without encrypted fields asks for no keys, so once it can be listed at all, these are the
only reasons for a refusal, and each of them lies with the filter. What a column is called that
nothing uses does not matter.
-/

namespace RecordSql

open Checked

/-- An entity that can be listed, if only what is asked of it can be answered. -/
structure Entity.Listable (e : Entity) : Prop where
  checked : e.check = .ok ()
  plain : ∀ f ∈ e.fields, f.dataType ≠ .encrypted
  shown : (∃ f ∈ e.fields, f.isProjected = true) ∨ ∃ t ∈ e.joinedTables, t.join.columns ≠ []
  joined : ∀ t ∈ e.joinedTables, ∃ target, e.joinSource t = .ok target

namespace Listing

/-- A listing that an entity has an answer to. -/
structure Answerable (l : Listing) (e : Entity) : Prop where
  /-- A column with a search of its own is there, and can hold what is searched for. -/
  searched : ∀ c ∈ l.columns, ∀ search, c.search = some search →
    ∃ target, e.resolve? c.data = some target ∧
      ∃ condition, search.coerce target.dataType = .ok condition
  /-- Under a global search, every searchable column is there. -/
  searchable : l.search.isSome → ∀ c ∈ l.columns, c.searchable = true →
    ∃ target, e.resolve? c.data = some target
  /-- Every sort points to a column of the listing, which is there. -/
  sorted : ∀ sort ∈ l.sorts, ∃ c, l.columns[sort.column.toNat]? = some c ∧
    ∃ target, e.resolve? c.data = some target
  /-- The last row of a page has a number, and its rows have an order. -/
  paged : 0 < l.length.toNat → l.start.toNat + l.length.toNat < UInt64.size ∧
    (l.sorts ≠ [] ∨ ∃ key, e.key? = some key)

/-- The column with an index is used: it is searched, or searchable under a global search, or
sorted by. -/
inductive Uses (l : Listing) (i : Nat) : Prop where
  | searched {c : ListColumn} : l.columns[i]? = some c → c.search.isSome → Uses l i
  | searchable {c : ListColumn} : l.columns[i]? = some c → c.searchable = true → l.search.isSome →
      Uses l i
  | sorted {sort : SortTerm} : sort ∈ l.sorts → sort.column.toNat = i → Uses l i

/-- The listing with other names for its columns. -/
def renamed (l : Listing) (names : Nat → String) : Listing :=
  { l with columns := l.columns.mapIdx fun i c => { c with data := names i } }

end Listing

namespace Builder

variable {b : Builder} {e : Entity} {l : Listing}

/-! ## What can be read -/

section Plain

variable (hplain : ∀ f ∈ e.fields, f.dataType ≠ .encrypted)
include hplain

/-- Without encryption every column can be read. -/
theorem exists_operand {target : Target} (ht : e.Reaches target) :
    ∃ operand, b.operand target = .ok operand := by
  cases ht with
  | field hf => exact ⟨_, readField_eq_ok.2 (.inl ⟨hplain _ hf, rfl⟩)⟩
  | joined _ _ => exact ⟨_, rfl⟩

theorem exists_fieldItem {f : Field} (hf : f ∈ e.fields) : ∃ item, b.fieldItem f = .ok item := by
  have hencrypted := hplain f hf
  by_cases hdate : f.dataType = .date
  · exact ⟨_, fieldItem_eq_ok.2 (.inl ⟨hdate, rfl⟩)⟩
  · exact ⟨_, fieldItem_eq_ok.2 (.inr (.inr ⟨hdate, hencrypted, rfl⟩))⟩

/-! ## Conditions -/

theorem exists_columnCondition {name : String} {search : Predicate} :
    (∃ sql, b.columnCondition e name search = .ok sql) ↔
      ∃ target, e.resolve? name = some target ∧
        ∃ condition, search.coerce target.dataType = .ok condition := by
  constructor
  · intro ⟨sql, h⟩
    obtain ⟨target, condition, _, ht, hc, _⟩ := columnCondition_eq_ok.1 h
    exact ⟨target, ht, condition, hc⟩
  · intro ⟨target, ht, condition, hc⟩
    obtain ⟨operand, ho⟩ := exists_operand (b := b) hplain (Entity.reaches_of_resolve? ht)
    exact ⟨_, columnCondition_eq_ok.2 ⟨target, condition, operand, ht, hc, ho, rfl⟩⟩

/-- For the global search it is enough that the column is there. -/
theorem exists_searchCondition {name : String} {search : Predicate} :
    (∃ o, b.searchCondition e search name = .ok o) ↔ ∃ target, e.resolve? name = some target := by
  constructor
  · intro ⟨o, h⟩
    obtain ⟨target, ht, _⟩ := searchCondition_eq_ok.1 h
    exact ⟨target, ht⟩
  · intro ⟨target, ht⟩
    cases hc : search.coerce target.dataType with
    | error fault => exact ⟨_, searchCondition_eq_ok.2 ⟨target, ht, .inl ⟨fault, hc, rfl⟩⟩⟩
    | ok condition =>
      obtain ⟨operand, ho⟩ := exists_operand (b := b) hplain (Entity.reaches_of_resolve? ht)
      exact ⟨_, searchCondition_eq_ok.2 ⟨target, ht, .inr ⟨condition, hc, operand, ho, rfl⟩⟩⟩

theorem exists_columnConditions :
    (∃ columns, b.columnConditions e l = .ok columns) ↔
      ∀ c ∈ l.columns, ∀ search, c.search = some search →
        ∃ target, e.resolve? c.data = some target ∧
          ∃ condition, search.coerce target.dataType = .ok condition := by
  refine exists_mapM_eq_ok.trans ?_
  constructor
  · intro h c hc search hs
    have hm : (c.data, search) ∈ searchedColumns l :=
      List.mem_filterMap.2 ⟨c, hc, by rw [hs]; rfl⟩
    exact (exists_columnCondition hplain).1 (h (c.data, search) hm)
  · intro h column hm
    obtain ⟨c, hc, hcolumn⟩ := List.mem_filterMap.1 hm
    obtain ⟨search, hs, rfl⟩ := Option.map_eq_some_iff.1 hcolumn
    exact (exists_columnCondition hplain).2 (h c hc search hs)

theorem exists_searchConditions :
    (∃ searches, b.searchConditions e l = .ok searches) ↔
      (l.search.isSome → ∀ c ∈ l.columns, c.searchable = true →
        ∃ target, e.resolve? c.data = some target) := by
  cases hs : l.search with
  | none => exact iff_of_true ⟨[], searchConditions_eq_ok.2 (.inl ⟨hs, rfl⟩)⟩ (by simp)
  | some search =>
    have hconditions : (∃ searches, b.searchConditions e l = .ok searches) ↔
        ∃ conditions, (searchableColumns l).mapM (b.searchCondition e search) = .ok conditions := by
      constructor
      · intro ⟨searches, h⟩
        rcases searchConditions_eq_ok.1 h with ⟨hn, _⟩ | ⟨search', hs', conditions, hc, _⟩
        · exact absurd (hs.symm.trans hn) (by simp)
        · obtain rfl := Option.some.inj (hs.symm.trans hs')
          exact ⟨conditions, hc⟩
      · intro ⟨conditions, hc⟩
        exact ⟨_, searchConditions_eq_ok.2 (.inr ⟨search, hs, conditions, hc, rfl⟩)⟩
    rw [hconditions, exists_mapM_eq_ok]
    constructor
    · intro h _ c hc hsearchable
      have hm : c.data ∈ searchableColumns l :=
        List.mem_map_of_mem (List.mem_filter.2 ⟨hc, hsearchable⟩)
      exact (exists_searchCondition hplain).1 (h _ hm)
    · intro h name hm
      obtain ⟨c, hc, rfl⟩ := List.mem_map.1 hm
      obtain ⟨hc, hsearchable⟩ := List.mem_filter.1 hc
      exact (exists_searchCondition hplain).2 (h rfl c hc hsearchable)

/-! ## Orders and pages -/

theorem exists_sortTerms :
    (∃ terms, b.sortTerms e l = .ok terms) ↔
      ∀ sort ∈ l.sorts, ∃ c, l.columns[sort.column.toNat]? = some c ∧
        ∃ target, e.resolve? c.data = some target := by
  constructor
  · intro ⟨terms, h⟩ sort hsort
    obtain ⟨targets, htargets, hterms⟩ := sortTerms_eq_ok.1 h
    obtain ⟨⟨c, direction⟩, hm, hsorted⟩ := exists_of_mapM_mem htargets hsort
    obtain ⟨term, _, hterm⟩ := exists_of_mapM_mem hterms hm
    obtain ⟨target, ht, _⟩ := sortTerm_eq_ok.1 hterm
    unfold Listing.sortTarget at hsorted
    split at hsorted
    · next c' hc =>
      obtain ⟨rfl, _⟩ := Prod.mk.inj (Except.ok.inj hsorted)
      exact ⟨c', hc, target, ht⟩
    · exact absurd hsorted (by simp)
  · intro h
    have htargets : ∃ targets, l.sortTargets = .ok targets := by
      refine exists_mapM_eq_ok.2 fun sort hsort => ?_
      obtain ⟨c, hc, _⟩ := h sort hsort
      exact ⟨(c, sort.direction), by rw [Listing.sortTarget, hc]⟩
    obtain ⟨targets, htargets⟩ := htargets
    have hterms : ∃ terms, targets.mapM (fun target => b.sortTerm e target.1 target.2) =
        .ok terms := by
      refine exists_mapM_eq_ok.2 fun target hm => ?_
      obtain ⟨sort, hsort, hcolumn⟩ := mem_sortTargets htargets hm
      obtain ⟨c, hc, t, ht⟩ := h sort hsort
      obtain rfl := Option.some.inj (hcolumn.symm.trans hc)
      obtain ⟨operand, ho⟩ := exists_operand (b := b) hplain (Entity.reaches_of_resolve? ht)
      exact ⟨_, sortTerm_eq_ok.2 ⟨t, ht, operand, ho, rfl⟩⟩
    obtain ⟨terms, hterms⟩ := hterms
    exact ⟨terms, sortTerms_eq_ok.2 ⟨targets, htargets, hterms⟩⟩

end Plain

theorem exists_windowOrder {terms : List Sql} :
    (∃ orderBy, windowOrder e terms = .ok orderBy) ↔ terms ≠ [] ∨ ∃ key, e.key? = some key := by
  constructor
  · intro ⟨orderBy, h⟩
    rcases windowOrder_eq_ok.1 h with ⟨_, key, hkey, _⟩ | ⟨hne, _⟩
    · exact .inr ⟨key, hkey⟩
    · exact .inl hne
  · intro h
    by_cases hne : terms = []
    · obtain ⟨key, hkey⟩ := h.resolve_left (not_not_intro hne)
      exact ⟨_, windowOrder_eq_ok.2 (.inl ⟨hne, key, hkey, rfl⟩)⟩
    · exact ⟨_, windowOrder_eq_ok.2 (.inr ⟨hne, rfl⟩)⟩

theorem exists_pagedSelect {projection source : Sql} {filter : Option Sql} {terms : List Sql} :
    (∃ sql, b.pagedSelect e projection source filter terms (some l) = .ok sql) ↔
      (0 < l.length.toNat → l.start.toNat + l.length.toNat < UInt64.size ∧
        (terms ≠ [] ∨ ∃ key, e.key? = some key)) := by
  by_cases hpos : 0 < l.length.toNat
  · have hwindowed : (some l).filter Listing.isWindowed = some l := by
      simp [Option.filter, Listing.isWindowed, hpos]
    rw [← exists_windowOrder]
    constructor
    · intro ⟨sql, h⟩ _
      rcases pagedSelect_eq_ok.1 h with ⟨hwhole, _⟩ | ⟨l', hl, w, hw, orderBy, ho, _⟩
      · exact absurd (hwindowed.symm.trans hwhole) (by simp)
      · obtain rfl := Option.some.inj (hwindowed.symm.trans hl)
        exact ⟨(Window.exists_of?.1 ⟨w, hw⟩).2, orderBy, ho⟩
    · intro h
      obtain ⟨hfits, orderBy, ho⟩ := h hpos
      obtain ⟨w, hw⟩ := Window.exists_of?.2 ⟨hpos, hfits⟩
      exact ⟨_, pagedSelect_eq_ok.2 (.inr ⟨l, hwindowed, w, hw, orderBy, ho, rfl⟩)⟩
  · have hwhole : (some l).filter Listing.isWindowed = none := by
      simp [Option.filter, Listing.isWindowed, hpos]
    exact iff_of_true ⟨_, pagedSelect_eq_ok.2 (.inl ⟨hwhole, rfl⟩)⟩ fun h => absurd h hpos

/-! ## Entities that can be listed -/

section Listable

variable (he : e.Listable)
include he

theorem exists_projection : ∃ items, b.projection e = .ok items := by
  obtain ⟨fields, hfields⟩ : ∃ fields, (e.fields.filter Field.isProjected).mapM b.fieldItem =
      .ok fields :=
    exists_mapM_eq_ok.2 fun f hf => exists_fieldItem he.plain (List.mem_of_mem_filter hf)
  refine ⟨_, projection_eq_ok.2 ⟨fields, hfields, ?_, rfl⟩⟩
  -- a field that is shown has an item, and so has a column that is pulled in
  rcases he.shown with ⟨f, hf, hshown⟩ | ⟨t, ht, hcolumns⟩
  · obtain ⟨item, hitem, _⟩ := exists_of_mapM_mem hfields (List.mem_filter.2 ⟨hf, hshown⟩)
    exact List.append_ne_nil_of_left_ne_nil (List.ne_nil_of_mem hitem) _
  · obtain ⟨c, hc⟩ := List.exists_mem_of_ne_nil _ hcolumns
    exact List.append_ne_nil_of_right_ne_nil _
      (List.ne_nil_of_mem (List.mem_flatMap.2 ⟨t, ht, List.mem_map_of_mem hc⟩))

theorem exists_fromClause : ∃ source, fromClause e = .ok source := by
  obtain ⟨joins, hjoins⟩ : ∃ joins, e.joinedTables.mapM (joinClause e) = .ok joins := by
    refine exists_mapM_eq_ok.2 fun t ht => ?_
    obtain ⟨target, htarget⟩ := he.joined t ht
    exact ⟨_, joinClause_eq_ok.2 ⟨target, htarget, rfl⟩⟩
  exact ⟨_, fromClause_eq_ok.2 ⟨joins, hjoins, rfl⟩⟩

/-- The steps of a listing succeed when what they ask for is there. -/
theorem exists_selectBody : (∃ sql, b.selectBody e (some l) = .ok sql) ↔ l.Answerable e := by
  constructor
  · intro ⟨sql, h⟩
    obtain ⟨_, _, _, _, filter, hfilter, terms, hterms, hpage⟩ := selectBody_eq_ok.1 h
    obtain ⟨columns, searches, hcolumns, hsearches, _⟩ := filterClause_eq_ok.1 hfilter
    have hsorts := sorts_eq_nil hterms
    refine ⟨(exists_columnConditions he.plain).1 ⟨columns, hcolumns⟩,
      (exists_searchConditions he.plain).1 ⟨searches, hsearches⟩,
      (exists_sortTerms he.plain).1 ⟨terms, hterms⟩, fun hpos => ?_⟩
    obtain ⟨hfits, horder⟩ := exists_pagedSelect.1 ⟨sql, hpage⟩ hpos
    exact ⟨hfits, horder.imp_left (mt hsorts.2)⟩
  · intro h
    obtain ⟨items, hitems⟩ := exists_projection (b := b) he
    obtain ⟨source, hsource⟩ := exists_fromClause he
    obtain ⟨columns, hcolumns⟩ := (exists_columnConditions (b := b) he.plain).2 h.searched
    obtain ⟨searches, hsearches⟩ := (exists_searchConditions (b := b) he.plain).2 h.searchable
    obtain ⟨terms, hterms⟩ := (exists_sortTerms (b := b) he.plain).2 h.sorted
    have hsorts := sorts_eq_nil hterms
    obtain ⟨sql, hsql⟩ : ∃ sql, b.pagedSelect e (Sql.items items) source
        (combine columns searches) terms (some l) = .ok sql :=
      exists_pagedSelect.2 fun hpos =>
        ⟨(h.paged hpos).1, (h.paged hpos).2.imp_left (mt hsorts.1)⟩
    exact ⟨sql, selectBody_eq_ok.2 ⟨items, hitems, source, hsource, _,
      filterClause_eq_ok.2 ⟨columns, searches, hcolumns, hsearches, rfl⟩, terms, hterms, hsql⟩⟩

/-- Whatever an entity that can be listed refuses, it refuses for the filter. -/
theorem refuses_listing :
    Refuses (fun err => ∃ fault, err = .invalidFilter fault) (b.select e (some l)) := by
  have hfilter : ∀ fault, ∃ fault', QueryError.invalidFilter fault = .invalidFilter fault' :=
    fun fault => ⟨fault, rfl⟩
  have ho : ∀ target, e.Reaches target →
      Refuses (fun err => ∃ fault, err = .invalidFilter fault) (b.operand target) := by
    intro target ht
    obtain ⟨operand, hoperand⟩ := exists_operand (b := b) he.plain ht
    rw [hoperand]
    exact .ok operand
  obtain ⟨items, hitems⟩ := exists_projection (b := b) he
  obtain ⟨source, hsource⟩ := exists_fromClause he
  unfold Builder.select build
  rw [he.checked]
  refine .bind (.ok _) fun _ _ => .bind ?_ fun sql hbody => ?_
  · unfold selectBody
    rw [hitems, hsource]
    exact .bind (.ok _) fun _ _ => .bind (.ok _) fun _ _ =>
      .bind (refuses_filterClause ho hfilter l) fun _ _ =>
        .bind (refuses_sortTerms ho hfilter l) fun _ _ => .of_filter hfilter
  · obtain ⟨s, hs⟩ := exists_finish_body (r := .select e (some l)) hbody
    rw [hs]
    exact .ok s

end Listable

/-! ## Columns that nothing uses -/

section Renamed

variable {names : Nat → String}
  (h : ∀ i c, l.columns[i]? = some c → l.Uses i → names i = c.data)
include h

/-- A column that is used keeps its name, so it stays as it was. -/
theorem getElem?_renamed {i : Nat} (hused : l.Uses i) :
    (l.renamed names).columns[i]? = l.columns[i]? := by
  unfold Listing.renamed
  rw [List.getElem?_mapIdx]
  cases hc : l.columns[i]? with
  | none => rfl
  | some c =>
    rw [Option.map_some, h i c hc hused]

/-- What is read off the columns one by one is the same, if only columns that are used give
anything. -/
theorem filterMap_renamed {α : Type} {read : ListColumn → Option α}
    (hnone : ∀ c name, read c = none → read { c with data := name } = none)
    (hused : ∀ i c, l.columns[i]? = some c → (read c).isSome → l.Uses i) :
    (l.renamed names).columns.filterMap read = l.columns.filterMap read := by
  have hsame : (l.renamed names).columns.map read = l.columns.map read := by
    refine List.ext_getElem? fun i => ?_
    rw [List.getElem?_map, List.getElem?_map]
    by_cases hi : l.Uses i
    · rw [getElem?_renamed h hi]
    · unfold Listing.renamed
      rw [List.getElem?_mapIdx]
      cases hc : l.columns[i]? with
      | none => rfl
      | some c =>
        have hread : read c = none := by
          by_contra hsome
          exact hi (hused i c hc (Option.isSome_iff_ne_none.2 hsome))
        simp only [Option.map_some]
        rw [hread, hnone c _ hread]
  have hmap : ∀ columns : List ListColumn,
      columns.filterMap read = (columns.map read).filterMap id :=
    fun columns => (List.filterMap_map (f := read) (g := id) (l := columns)).symm
  rw [hmap, hsame, ← hmap]

theorem searchedColumns_renamed : searchedColumns (l.renamed names) = searchedColumns l := by
  refine filterMap_renamed h ?_ ?_
  · intro c name hnone
    rw [Option.map_eq_none_iff] at hnone ⊢
    exact hnone
  · intro i c hc hsome
    exact .searched hc (by simpa using hsome)

theorem searchConditions_renamed :
    b.searchConditions e (l.renamed names) = b.searchConditions e l := by
  have hsearch : (l.renamed names).search = l.search := rfl
  unfold searchConditions
  rw [hsearch]
  cases hs : l.search with
  | none => rfl
  | some search =>
    have hread : ∀ l' : Listing, searchableColumns l' =
        l'.columns.filterMap fun c => if c.searchable then some c.data else none := by
      intro l'
      rw [searchableColumns, ← List.filterMap_eq_filter, List.map_filterMap]
      refine List.filterMap_congr fun c _ => ?_
      cases hc : c.searchable with
      | true => simp [Option.guard, hc]
      | false => simp [Option.guard, hc]
    have hcolumns : searchableColumns (l.renamed names) = searchableColumns l := by
      rw [hread, hread]
      refine filterMap_renamed h ?_ ?_
      · intro c name hnone
        by_cases hc : c.searchable = true
        · exact absurd hnone (by simp [hc])
        · exact if_neg hc
      · intro i c hi hsome
        by_cases hc : c.searchable = true
        · exact .searchable hi hc (by rw [hs]; rfl)
        · exact absurd hsome (by simp [hc])
    dsimp only
    rw [hcolumns]

theorem sortTerms_renamed : b.sortTerms e (l.renamed names) = b.sortTerms e l := by
  have htargets : (l.renamed names).sortTargets = l.sortTargets := by
    refine mapM_congr fun sort hsort => ?_
    have hcolumn := getElem?_renamed h (.sorted hsort rfl)
    have hlength : (l.renamed names).columns.length = l.columns.length := List.length_mapIdx
    unfold Listing.sortTarget
    rw [hcolumn, hlength]
  rw [sortTerms, sortTerms, htargets]

/-- **What a column is called that nothing uses does not matter.** -/
theorem select_renamed : b.select e (some (l.renamed names)) = b.select e (some l) := by
  have hfilter : b.filterClause e (l.renamed names) = b.filterClause e l := by
    rw [filterClause, filterClause, columnConditions, columnConditions, searchedColumns_renamed h,
      searchConditions_renamed h]
  have hpage : ∀ projection source filter terms,
      b.pagedSelect e projection source filter terms (some (l.renamed names)) =
        b.pagedSelect e projection source filter terms (some l) := by
    intro projection source filter terms
    unfold pagedSelect
    cases hwindow : l.isWindowed with
    | true =>
      have hwindow' : (l.renamed names).isWindowed = true := hwindow
      rw [Option.filter_some_pos hwindow', Option.filter_some_pos hwindow]
      rfl
    | false =>
      have hwindow' : (l.renamed names).isWindowed = false := hwindow
      rw [Option.filter_some_neg (by simp [hwindow']), Option.filter_some_neg (by simp [hwindow])]
  unfold select selectBody filterClause? sortTerms?
  simp only [hfilter, sortTerms_renamed h, hpage]

end Renamed

/-! ## Answers -/

/-- **A listing is answered just when what it asks for is there.** Whatever builder is asked, an
entity that can be listed has an answer when every search of a column finds a column that can hold
it, every searchable column is there under a global search, every sort points to a column that is
there, and the page, if there is one, ends below `2 ^ 64` and has an order. In every other case the
refusal lies with the filter. The names of columns that nothing uses change nothing. -/
theorem listing_answered (he : e.Listable) (b : Builder) (l : Listing) :
    ((∃ s, b.select e (some l) = .ok s) ↔ l.Answerable e) ∧
      (¬ l.Answerable e → ∃ fault, b.select e (some l) = .error (.invalidFilter fault)) ∧
      ∀ names, (∀ i c, l.columns[i]? = some c → l.Uses i → names i = c.data) →
        b.select e (some (l.renamed names)) = b.select e (some l) := by
  have hanswered : (∃ s, b.select e (some l) = .ok s) ↔ l.Answerable e := by
    rw [← exists_selectBody (b := b) he]
    constructor
    · intro ⟨s, h⟩
      obtain ⟨_, sql, hbody, _⟩ := build_eq_ok.1 h
      exact ⟨sql, hbody⟩
    · intro ⟨sql, hbody⟩
      obtain ⟨s, hs⟩ := exists_finish_body (r := .select e (some l)) hbody
      exact ⟨s, build_eq_ok.2 ⟨he.checked, sql, hbody, hs⟩⟩
  refine ⟨hanswered, fun hnot => ?_, fun names hnames => select_renamed hnames⟩
  cases hrun : b.select e (some l) with
  | ok s => exact absurd (hanswered.1 ⟨s, hrun⟩) hnot
  | error err =>
    obtain ⟨fault, rfl⟩ := refuses_listing he err hrun
    exact ⟨fault, rfl⟩

/-- Invoices with the names of their customers. -/
def invoices : Entity where
  table := "Invoices"
  fields := [{ Field.new "Id" .integer with isKey := true }, .new "Total" .integer,
    { Field.new "CustomerId" .integer with
      join := some ⟨.left, "Customers", "Id", none, ["Name AS CustomerName"]⟩ }]
  properties := .empty

/-- Five invoices from some row on, of at least a hundred, for customers that are called something
like `smi`, by name. Notes are shown and play no part. -/
def invoicePage (start : UInt64) (notes : String) : Listing where
  start := start
  length := 5
  search := some (.like "smi")
  columns := [⟨"CustomerName", true, none⟩, ⟨"Total", false, some (.range (some "100") none)⟩,
    ⟨notes, false, none⟩]
  sorts := [⟨0, .asc⟩]
  total := none
  filteredRecords := none

theorem invoices_listable : invoices.Listable where
  checked := rfl
  plain := by decide
  shown := .inl ⟨_, List.mem_cons_self, rfl⟩
  joined := List.forall_mem_singleton.2 ⟨_, rfl⟩

theorem invoicePage_answerable (notes : String) : (invoicePage 10 notes).Answerable invoices where
  searched := by
    have htotal : ∃ target, invoices.resolve? "Total" = some target ∧
        ∃ condition, (Predicate.range (some "100") none).coerce target.dataType = .ok condition :=
      ⟨_, rfl, _, rfl⟩
    simpa [invoicePage] using htotal
  searchable := by
    have hname : ∃ target, invoices.resolve? "CustomerName" = some target := ⟨_, rfl⟩
    simpa [invoicePage] using hname
  sorted := List.forall_mem_singleton.2 ⟨_, rfl, _, rfl⟩
  paged := fun _ => ⟨by simp [invoicePage, UInt64.size], .inl (by simp [invoicePage])⟩

theorem invoicePage_not_uses : ¬ (invoicePage 10 "Notes").Uses 2 := by
  intro huses
  cases huses with
  | searched hc hsearch => exact absurd hsearch (Option.some.inj hc ▸ Bool.false_ne_true)
  | searchable hc hsearchable _ =>
    exact absurd hsearchable (Option.some.inj hc ▸ Bool.false_ne_true)
  | sorted hsort hcolumn =>
    obtain rfl := List.mem_singleton.1 hsort
    exact absurd hcolumn (by decide)

theorem listing_answered_invoices :
    invoices.Listable ∧ (invoicePage 10 "Notes").Answerable invoices ∧
      (∃ s, default.select invoices (some (invoicePage 10 "Notes")) = .ok s) ∧
      ¬ (invoicePage 18446744073709551615 "Notes").Answerable invoices ∧
      (∃ fault, default.select invoices (some (invoicePage 18446744073709551615 "Notes")) =
        .error (.invalidFilter fault)) ∧
      default.select invoices (some (invoicePage 10 "Remarks")) =
        default.select invoices (some (invoicePage 10 "Notes")) := by
  have hpage := invoicePage_answerable "Notes"
  have hlate : ¬ (invoicePage 18446744073709551615 "Notes").Answerable invoices := fun h =>
    absurd (h.paged (by decide)).1 (by decide)
  refine ⟨invoices_listable, hpage, (listing_answered invoices_listable default _).1.2 hpage, hlate,
    (listing_answered invoices_listable default _).2.1 hlate, ?_⟩
  refine (listing_answered invoices_listable default (invoicePage 10 "Notes")).2.2
    (fun i => ["CustomerName", "Total", "Remarks"].getD i "") ?_
  intro i c hc huses
  match i, hc with
  | 0, hc => exact Option.some.inj hc ▸ rfl
  | 1, hc => exact Option.some.inj hc ▸ rfl
  | 2, _ => exact absurd huses invoicePage_not_uses
  | _ + 3, hc => exact absurd hc (by simp [invoicePage])

end Builder

end RecordSql
