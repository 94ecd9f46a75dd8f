import RecordSql.Proofs.KeyRestriction
import RecordSql.Proofs.TwoDialects

/-!
# A listing, its count and its aggregates see the same rows

Three kinds of statements take the rows of a listing: the listing itself, the number of its rows,
and the aggregates over it. Each is written by a builder of its own, but the source of the rows and
the clause on them are the same parts in all three, and are written as the same text.

* In front of the clause nothing is bound, so its parameters are numbered from the first one on,
  whatever is selected. An order binds nothing either; only conditions on functions come behind.
* A body about one entity has no semicolons, so the key of the settings is opened and closed around
  all of it.
* What needs the key in a count needs it in the listing as well. The listing does more that may be
  refused, so a listing that is answered has its count.
* The count and the aggregates do not look at the window, the order and the two counts of a listing.
-/

namespace RecordSql

open Checked Text

variable {style : Style} {a c sql : Sql}

/-! ## Text of parts -/

namespace Sql

theorem write_nil : write style [] = "" := rfl

theorem write_text (s : String) : write style (.text s :: sql) = s ++ sql.write style := by
  rw [write, charsFrom_of_binding?_none rfl, String.ofList_append, Piece.write,
    String.ofList_toList]
  rfl

/-- Behind a part that binds nothing, the numbers start as they would without it. -/
theorem write_append_of_unbound (h : a.bindings = []) :
    (a ++ c).write style = a.write style ++ c.write style := by
  rw [write, charsFrom_append, h, String.ofList_append]
  rfl

/-- A part that binds nothing is written alike behind any other. -/
theorem write_append_unbound (h : c.bindings = []) :
    (a ++ c).write style = a.write style ++ c.write style := by
  rw [write, charsFrom_append, charsFrom_of_bindings_nil h, String.ofList_append,
    String.ofList_toList]
  rfl

theorem dropSemicolons_of_not_mem {s : String} (h : ';' ∉ s.toList) : dropSemicolons s = s := by
  have hkeep : s.toList.reverse.dropWhile (fun c => decide (c = ';')) = s.toList.reverse := by
    rw [List.dropWhile_eq_self_iff]
    intro hl hc
    exact h (List.mem_reverse.1 (of_decide_eq_true hc ▸ List.getElem_mem hl))
  rw [dropSemicolons, hkeep, List.reverse_reverse, String.ofList_toList]

/-- A part whose wording has no semicolons does not shed any. -/
theorem charsFrom_withoutSemicolons (h : ∀ s, .text s ∈ sql → ';' ∉ s.toList) (n : Nat) :
    charsFrom style n sql.withoutSemicolons = charsFrom style n sql := by
  induction sql using List.reverseRecOn with
  | nil => rfl
  | append_singleton init p ih =>
    by_cases ht : ∃ s, p = .text s
    · obtain ⟨s, rfl⟩ := ht
      have hs := dropSemicolons_of_not_mem (h s (List.mem_append_right _ List.mem_cons_self))
      rw [withoutSemicolons_text, hs]
      split
      -- only a text that is empty is lost
      · next hempty =>
        rw [ih fun s' hm => h s' (List.mem_append_left _ hm), hempty, charsFrom_append,
          Dialect.charsFrom_wording]
        exact (List.append_nil _).symm
      · rfl
    · rw [withoutSemicolons_of_ne_text init fun s he => ht ⟨s, he⟩]

end Sql

/-! ## Finishing without semicolons -/

/-- The wording of a body about one entity is plain. -/
theorem Request.plain_of_stock {b : Builder} {r : Request} {s : String}
    (hr : ∀ steps, r ≠ .batch steps) (h : r.Stock b (.text s)) : Plain s := by
  obtain ⟨e, _, hs⟩ := h
  cases hs with
  | wording hp => exact hp
  | extra ha =>
    cases ha with
    | batch _ => exact absurd rfl (hr _)

namespace Builder

variable {b : Builder} {e : Entity} {l : Listing} {s : Statement}

/-- The text of a statement is this one, inside what opens and closes the key of the settings. -/
def Encloses (b : Builder) (s : Statement) (text : String) : Prop :=
  ∃ opening closing, b.Wraps opening closing ∧ s.text = opening ++ text ++ closing

/-- **A body about one entity stands as a whole inside its key.** -/
theorem encloses_finish {r : Request} (hr : ∀ steps, r ≠ .batch steps) (h : b.body r = .ok sql)
    (hf : b.finish sql = .ok s) : b.Encloses s (sql.write b.style) := by
  have hplain : ∀ t, .text t ∈ sql → ';' ∉ t.toList := fun t ht hc =>
    absurd (r.plain_of_stock hr ((formed_body h).stock _ ht) _ hc) (by decide)
  rcases finish_cases hf with ⟨_, rfl⟩ | ⟨_, _, keys, hkeys, rfl⟩
  · refine ⟨"", "", .inl ⟨rfl, rfl⟩, ?_⟩
    rw [String.append_empty, String.empty_append]
    rfl
  · refine ⟨_, _, .inr ⟨keys, hkeys, rfl, rfl⟩, ?_⟩
    rw [Statement.text, Sql.write, Sql.charsFrom_wrapped, Sql.charsFrom_withoutSemicolons hplain,
      String.ofList_append, String.ofList_append, String.ofList_toList, String.ofList_toList,
      ← String.append_assoc]
    rfl

/-- A builder that cannot encrypt finishes only what has no need of a key. -/
theorem keyText_of_finish (h : b.finish sql = .ok s) (hcan : ¬ b.CanEncrypt) :
    sql.filterMap Piece.keyText? = [] := by
  rcases finish_cases h with ⟨hn, _⟩ | ⟨_, hd, keys, hkeys, _⟩
  · exact Sql.needsKey_eq_false.1 hn
  · exact absurd ⟨hd, Option.isSome_iff_exists.2 ⟨keys, hkeys⟩⟩ hcan

end Builder

/-! ## The texts -/

/-- The text of a listing as a whole, with what comes behind its filter. -/
def wholeText (projection source filter rest : String) : String :=
  "SELECT " ++ projection ++ " " ++ source ++ filter ++ rest

/-- The text of an order that may not be there. -/
def orderText : Option String → String
  | none => ""
  | some terms => " ORDER BY " ++ terms

/-- The text of one page of a listing. -/
def Dialect.pageText (d : Dialect) (w : Window) (projection source filter orderBy : String) :
    String :=
  match d with
  | .sqlServer =>
    "SELECT * FROM (SELECT " ++ projection ++ ", ROW_NUMBER() OVER (ORDER BY " ++ orderBy ++
      ") AS RowNum " ++ source ++ filter ++
      s!") paged WHERE paged.RowNum BETWEEN {w.firstRow} AND {w.lastRow}" ++
      " ORDER BY paged.RowNum"
  | .oracle =>
    "SELECT " ++ projection ++ " " ++ source ++ filter ++ " ORDER BY " ++ orderBy ++
      s!" OFFSET {w.start} ROWS FETCH NEXT {w.length} ROWS ONLY"

section Written

variable {projection source orderBy : Sql} (filter : Option Sql) (hp : projection.bindings = [])
  (hs : source.bindings = []) (ho : orderBy.bindings = [])
include hp hs

/-- What stands in front of a filter binds nothing. -/
theorem write_rows (s : String) :
    Sql.write style (.text s :: projection ++ .text " " :: source ++ Sql.whereSuffix filter) =
      s ++ projection.write style ++ " " ++ source.write style ++
        (Sql.whereSuffix filter).write style := by
  have hhead : Sql.bindings (.text s :: projection) = [] := hp
  have hrows : Sql.bindings (.text s :: projection ++ .text " " :: source) = [] := by
    rw [Sql.bindings_append, hhead, List.nil_append]
    exact hs
  rw [Sql.write_append_of_unbound hrows, Sql.write_append_of_unbound hhead, Sql.write_text,
    Sql.write_text, String.append_assoc]
  simp only [String.append_assoc]

include ho

/-- A page as text: its parts bind nothing, the filter apart. -/
theorem Dialect.write_paginate (d : Dialect) (w : Window) :
    (d.paginate ⟨projection, source, filter, orderBy⟩ w).write style =
      d.pageText w (projection.write style) (source.write style)
        ((Sql.whereSuffix filter).write style) (orderBy.write style) := by
  have horder : ∀ t : String, Sql.bindings (.text t :: orderBy) = [] := fun _ => ho
  unfold paginate pageText
  cases d with
  | sqlServer =>
    -- the rows are numbered between the projection and the source, which binds nothing either
    have hprojection : ∀ t : String, Sql.bindings (.text t :: projection) = [] := fun _ => hp
    have hnumbered : ∀ t t' : String,
        Sql.bindings (.text t :: projection ++ .text t' :: orderBy) = [] := by
      intro t t'
      rw [Sql.bindings_append, hprojection, List.nil_append, horder]
    have hrows : ∀ t t' t'' : String,
        Sql.bindings (.text t :: projection ++ .text t' :: orderBy ++ .text t'' :: source) =
          [] := by
      intro t t' t''
      rw [Sql.bindings_append, hnumbered, List.nil_append]
      exact hs
    have hend : ∀ t t' : String, Sql.bindings [.text t, .text t'] = [] := fun _ _ => rfl
    dsimp only
    rw [Sql.write_append_unbound (hend _ _), Sql.write_append_of_unbound (hrows _ _ _),
      Sql.write_append_of_unbound (hnumbered _ _), Sql.write_append_of_unbound (hprojection _)]
    simp only [Sql.write_text, Sql.write_nil, String.append_empty, String.append_assoc]
  | oracle =>
    have hend : ∀ t : String, Sql.bindings [.text t] = [] := fun _ => rfl
    dsimp only
    rw [Sql.write_append_unbound (hend _), Sql.write_append_unbound (horder _),
      write_rows filter hp hs]
    simp only [Sql.write_text, Sql.write_nil, String.append_empty, String.append_assoc]

/-- A listing without a window as text. -/
theorem Builder.write_plainSelect :
    (plainSelect ⟨projection, source, filter, orderBy⟩).write style =
      wholeText (projection.write style) (source.write style)
        ((Sql.whereSuffix filter).write style)
        (orderText (if orderBy = [] then none else some (orderBy.write style))) := by
  unfold plainSelect wholeText
  cases orderBy with
  | nil =>
    simp only [List.isEmpty_nil, if_true, List.append_nil, orderText, String.append_empty]
    exact write_rows filter hp hs _
  | cons p rest =>
    have horder : Sql.bindings (.text " ORDER BY " :: p :: rest) = [] := ho
    simp only [List.isEmpty_cons, Bool.false_eq_true, if_false, reduceCtorEq]
    rw [Sql.write_append_unbound horder, write_rows filter hp hs, Sql.write_text]
    rfl

end Written

/-! ## Parameters -/

theorem Statement.parameters_eq {s : Statement} (h : s.sql.bindings = sql.bindings) :
    s.parameters = sql.parameters := by
  rw [parameters, Sql.parameters, h, Sql.parameters]

/-- Parameters behind others are numbered on from them. -/
theorem Statement.parameters_append {s : Statement}
    (h : s.sql.bindings = a.bindings ++ c.bindings) :
    s.parameters = a.parameters ++
      (c.bindings.zipIdx a.bindings.length).map fun p => ⟨p.1, parameterName p.2⟩ := by
  rw [parameters, Sql.parameters, h, List.zipIdx_append, List.map_append, Nat.zero_add]
  rfl

theorem Sql.length_parameters : sql.parameters.length = sql.bindings.length := by
  rw [parameters, List.length_map, List.length_zipIdx]

namespace Builder

variable {b : Builder} {e : Entity} {l : Listing} {s : Statement}

/-! ## The three statements -/

section Shared

variable {source : Sql} {filter : Option Sql} (hsource : fromClause e = .ok source)
  (hfilter : b.filterClause e l = .ok filter)
include hsource hfilter

/-- A count is written over the source and the filter, and binds what the filter binds. -/
theorem count_written (h : b.count e (some l) = .ok s) :
    b.Encloses s (wholeText "COUNT(*) AS Total" (source.write b.style)
        ((Sql.whereSuffix filter).write b.style) (orderText none)) ∧
      s.sql.bindings = (Sql.whereSuffix filter).bindings := by
  obtain ⟨_, sql, hbody, hfinish⟩ := build_eq_ok.1 h
  obtain ⟨source', hsource', filter', hfilter', rfl⟩ := countBody_eq_ok.1 hbody
  obtain rfl := Except.ok.inj (hsource.symm.trans hsource')
  obtain rfl := Except.ok.inj (hfilter.symm.trans hfilter')
  have hs := bindings_fromClause hsource
  have hcount : Sql.bindings [.text "COUNT(*) AS Total"] = [] := rfl
  have hnil : Sql.bindings [] = [] := rfl
  constructor
  · have henclosed := encloses_finish (r := .count e (some l)) (by simp) hbody hfinish
    rw [write_plainSelect filter hcount hs hnil, if_pos rfl, Sql.write_text, Sql.write_nil,
      String.append_empty] at henclosed
    exact henclosed
  · refine (filterMap_finish passes_binding? hfinish).trans ?_
    rw [filterMap_plainSelect passes_binding?]
    show Sql.bindings _ ++ Sql.bindings _ ++ _ ++ Sql.bindings _ = _
    rw [hcount, hs, hnil]
    exact List.append_nil _

/-- The text of a listing over a source and a filter: one page if it has a window, and else the
whole. -/
inductive ListingText (b : Builder) (l : Listing) (source filter : String) : String → Prop where
  | whole {projection : String} {terms : Option String} : l.isWindowed = false →
      ListingText b l source filter (wholeText projection source filter (orderText terms))
  | page {projection terms : String} {w : Window} : l.isWindowed = true →
      Window.of? l.start l.length = some w →
      ListingText b l source filter (b.dialect.pageText w projection source filter terms)

/-- A listing is written over the source and the filter, and binds what the filter binds. -/
theorem select_written (h : b.select e (some l) = .ok s) :
    (∃ text, b.Encloses s text ∧
        b.ListingText l (source.write b.style) ((Sql.whereSuffix filter).write b.style) text) ∧
      s.sql.bindings = (Sql.whereSuffix filter).bindings := by
  obtain ⟨_, sql, hbody, hfinish⟩ := build_eq_ok.1 h
  obtain ⟨items, hitems, source', hsource', filter', hfilter', terms, hterms, hpage⟩ :=
    selectBody_eq_ok.1 hbody
  obtain rfl := Except.ok.inj (hsource.symm.trans hsource')
  obtain rfl := Except.ok.inj (hfilter.symm.trans hfilter')
  have hp := bindings_projection hitems
  have hs := bindings_fromClause hsource
  have hunbound := bindings_sortTerms? hterms
  have henclosed := encloses_finish (r := .select e (some l)) (by simp) hbody hfinish
  have hbindings := filterMap_finish passes_binding? hfinish
  rcases pagedSelect_eq_ok.1 hpage with ⟨hwhole, rfl⟩ | ⟨l', hwindow, w, hw, orderBy, ho, rfl⟩
  · have hlist := Sql.bindings_list_eq_nil hunbound
    rw [write_plainSelect filter hp hs hlist] at henclosed
    refine ⟨⟨_, henclosed, .whole (by simpa using hwhole)⟩, hbindings.trans ?_⟩
    rw [filterMap_plainSelect passes_binding?]
    show Sql.bindings _ ++ Sql.bindings _ ++ _ ++ Sql.bindings _ = _
    rw [hp, hs, hlist]
    exact List.append_nil _
  · have horder := bindings_windowOrder hunbound ho
    obtain ⟨hl, hwindowed⟩ := Option.filter_eq_some_iff.1 hwindow
    obtain rfl := Option.some.inj hl
    rw [Dialect.write_paginate filter hp hs horder] at henclosed
    exact ⟨⟨_, henclosed, .page hwindowed hw⟩,
      hbindings.trans (Dialect.filterMap_paginate passes_binding? _ w hp hs horder)⟩

end Shared

/-- The conditions on functions as text, behind a number of parameters. -/
def havingText (b : Builder) (n : Nat) (conditions : List Sql) : String :=
  String.ofList (Sql.charsFrom b.style n (havingSuffix conditions))

/-- An aggregate is written over its source and the clause on it. It binds what the clause binds,
and then what its conditions on functions bind. -/
theorem aggregate_written {a : Aggregation} {source : AggregateSource}
    (h : b.aggregate e a source = .ok s) :
    ∃ groups, (groupNames a).mapM (b.groupTerm e) = .ok groups ∧
      ∃ rollup, b.rollupItems e a.rollup = .ok rollup ∧
        ∃ calls, a.columns.mapM (b.aggregateCall e) = .ok calls ∧
          ∃ clause, b.sourceClause e source = .ok clause ∧
            ∃ having, calls.mapM havingCondition = .ok having ∧
              ∃ rows, fromClause e = .ok rows ∧
                b.Encloses s (wholeText
                  ((Sql.items (groups.map Prod.snd ++ rollup ++ callItems a calls)).write b.style)
                  (rows.write b.style) ((Sql.whereSuffix clause).write b.style)
                  ((groupSuffix a.rollup.isSome (groups.map Prod.fst)).write b.style ++
                    b.havingText (Sql.whereSuffix clause).bindings.length
                      (having.filterMap id))) ∧
                s.sql.bindings = (Sql.whereSuffix clause).bindings ++
                  (havingSuffix (having.filterMap id)).bindings := by
  obtain ⟨_, sql, hbody, hfinish⟩ := build_eq_ok.1 h
  obtain ⟨_, groups, hgroups, rollup, hrollup, calls, hcalls, clause, hclause, having, hhaving,
    rows, hrows, rfl⟩ := aggregateBody_eq_ok.1 hbody
  refine ⟨groups, hgroups, rollup, hrollup, calls, hcalls, clause, hclause, having, hhaving, rows,
    hrows, ?_⟩
  have hs := bindings_fromClause hrows
  have hitems := bindings_aggregateItems hgroups hrollup hcalls
  have hgrouping : (groupSuffix a.rollup.isSome (groups.map Prod.fst)).bindings = [] := by
    refine bindings_groupSuffix (List.forall_mem_map.2 fun term hm => ?_)
    obtain ⟨name, _, hterm⟩ := exists_of_mem_mapM hgroups hm
    exact (bindings_groupTerm hterm).1
  generalize Sql.items (groups.map Prod.snd ++ rollup ++ callItems a calls) = items at *
  generalize groupSuffix a.rollup.isSome (groups.map Prod.fst) = grouping at *
  have hfront : Sql.bindings (.text "SELECT " :: items ++ .text " " :: rows ++
      Sql.whereSuffix clause ++ grouping) = (Sql.whereSuffix clause).bindings := by
    have hhead : Sql.bindings (.text "SELECT " :: items) = [] := hitems
    have hrows : Sql.bindings (.text " " :: rows) = [] := hs
    simp only [Sql.bindings_append, hhead, hrows, hgrouping, List.nil_append, List.append_nil]
  constructor
  · have henclosed := encloses_finish (r := .aggregate e a source) (by simp) hbody hfinish
    -- the conditions on functions are numbered on from those on rows
    rw [Sql.write, Sql.charsFrom_append, hfront, Nat.zero_add, String.ofList_append, ← Sql.write,
      Sql.write_append_unbound hgrouping, write_rows clause hitems hs] at henclosed
    rw [wholeText, havingText, ← String.append_assoc]
    exact henclosed
  · refine (filterMap_finish passes_binding? hfinish).trans ?_
    show Sql.bindings _ = _
    rw [Sql.bindings_append, hfront]

/-! ## The same rows -/

theorem exists_write_fromClause {source : Sql} (h : fromClause e = .ok source) (style : Style) :
    ∃ rest, source.write style = "FROM " ++ rest := by
  obtain ⟨joins, _, rfl⟩ := fromClause_eq_ok.1 h
  exact ⟨_, Sql.write_text _⟩

/-- A listing that is answered has its count: the count needs a key only where the listing does. -/
theorem exists_count (h : b.select e (some l) = .ok s) : ∃ c, b.count e (some l) = .ok c := by
  obtain ⟨hcheck, sql, hbody, hfinish⟩ := build_eq_ok.1 h
  obtain ⟨items, _, source, hsource, filter, hfilter, terms, _, hpage⟩ := selectBody_eq_ok.1 hbody
  have hcount := countBody_eq_ok.2 ⟨source, hsource, filter, hfilter, rfl⟩
  -- the parts of the count are parts of the listing
  have hparts : ∀ p ∈ source ++ Sql.whereSuffix filter, p ∈ sql := by
    rcases pagedSelect_eq_ok.1 hpage with ⟨_, rfl⟩ | ⟨_, _, w, _, orderBy, _, rfl⟩
    · intro p hp
      simp only [plainSelect, List.mem_append, List.mem_cons] at hp ⊢
      tauto
    · intro p hp
      unfold Dialect.paginate
      cases b.dialect <;> simp only [List.mem_append, List.mem_cons] at hp ⊢ <;> tauto
  have hkey : ¬ b.CanEncrypt →
      (plainSelect ⟨[.text "COUNT(*) AS Total"], source, filter, []⟩).filterMap Piece.keyText? =
        [] := by
    intro hcan
    have hnone := List.filterMap_eq_nil_iff.1 (keyText_of_finish hfinish hcan)
    have hrows : (source ++ Sql.whereSuffix filter).filterMap Piece.keyText? = [] :=
      List.filterMap_eq_nil_iff.2 fun p hp => hnone p (hparts p hp)
    rw [List.filterMap_append] at hrows
    rw [filterMap_plainSelect passes_keyText?, List.append_assoc (List.filterMap _ _), hrows]
    rfl
  obtain ⟨c, hc⟩ := exists_finish hkey
  exact ⟨c, build_eq_ok.2 ⟨hcheck, _, hcount, hc⟩⟩

/-- The statements about a listing take its rows from this source under this filter, with these
parameters. -/
structure TakesRows (b : Builder) (e : Entity) (l : Listing) (source filter : String)
    (shared : List Parameter) : Prop where
  /-- The source is the table with its joins. -/
  is_source : ∃ rest, source = "FROM " ++ rest
  /-- The filter is a clause or nothing. -/
  is_filter : filter = "" ∨ ∃ rest, filter = " WHERE " ++ rest
  /-- A listing has its count, and is the whole or one page over source and filter. -/
  select : ∀ s, b.select e (some l) = .ok s →
    (∃ c, b.count e (some l) = .ok c ∧ c.parameters = s.parameters) ∧
      (∃ text, b.Encloses s text ∧ b.ListingText l source filter text) ∧ s.parameters = shared
  /-- A count counts over source and filter. -/
  count : ∀ c, b.count e (some l) = .ok c →
    b.Encloses c ("SELECT COUNT(*) AS Total " ++ source ++ filter) ∧ c.parameters = shared
  /-- An aggregate is over source and filter, and only conditions on functions bind more. -/
  aggregate : ∀ a s, b.aggregate e a (.listing l) = .ok s → ∃ items grouping conditions extra,
    b.Encloses s (wholeText items source filter
        (grouping ++ b.havingText shared.length conditions)) ∧
      s.parameters = shared ++ extra ∧
      extra.map Parameter.toBinding = (havingSuffix conditions).bindings

theorem takesRows_of_ok {source : Sql} {filter : Option Sql} (hsource : fromClause e = .ok source)
    (hfilter : b.filterClause e l = .ok filter) :
    b.TakesRows e l (source.write b.style) ((Sql.whereSuffix filter).write b.style)
      (Sql.whereSuffix filter).parameters where
  is_source := exists_write_fromClause hsource b.style
  is_filter := by
    cases filter with
    | none => exact .inl rfl
    | some condition => exact .inr ⟨_, Sql.write_text _⟩
  select s h := by
    obtain ⟨htext, hbindings⟩ := select_written hsource hfilter h
    obtain ⟨c, hc⟩ := exists_count h
    obtain ⟨_, hcount⟩ := count_written hsource hfilter hc
    have hparameters := Statement.parameters_eq hbindings
    exact ⟨⟨c, hc, (Statement.parameters_eq hcount).trans hparameters.symm⟩, htext, hparameters⟩
  count c h := by
    obtain ⟨htext, hbindings⟩ := count_written hsource hfilter h
    refine ⟨?_, Statement.parameters_eq hbindings⟩
    rw [wholeText, orderText, String.append_empty] at htext
    exact htext
  aggregate a s h := by
    obtain ⟨_, _, _, _, _, _, clause, hclause, _, _, rows, hrows, htext, hbindings⟩ :=
      aggregate_written h
    obtain rfl := Except.ok.inj (hsource.symm.trans hrows)
    obtain rfl := Except.ok.inj (hfilter.symm.trans hclause)
    refine ⟨_, _, _, _, Sql.length_parameters ▸ htext, Statement.parameters_append hbindings, ?_⟩
    rw [List.map_map]
    exact List.zipIdx_map_fst _ _

/-- **Listing, counting and aggregating see the same rows**: there are a source and a filter over
which all of them are written, with the same parameters. What a count or an aggregate answers does
not depend on the window, the order and the two counts of the listing. -/
theorem same_rows (b : Builder) (e : Entity) (l : Listing) :
    (∃ source filter shared, b.TakesRows e l source filter shared) ∧
      ∀ start length sorts total filteredRecords,
        let l' : Listing := ⟨start, length, l.search, l.columns, sorts, total, filteredRecords⟩
        b.count e (some l') = b.count e (some l) ∧
          ∀ a, b.aggregate e a (.listing l') = b.aggregate e a (.listing l) := by
  refine ⟨?_, fun _ _ _ _ _ => ⟨rfl, fun _ => rfl⟩⟩
  by_cases h : (∃ source, fromClause e = .ok source) ∧ ∃ filter, b.filterClause e l = .ok filter
  · obtain ⟨⟨source, hsource⟩, filter, hfilter⟩ := h
    exact ⟨_, _, _, takesRows_of_ok hsource hfilter⟩
  · -- without a source or a filter none of the three is answered
    refine ⟨"FROM ", "", [], ⟨"", rfl⟩, .inl rfl, ?_, ?_, ?_⟩
    · intro s hs
      obtain ⟨_, sql, hbody, _⟩ := build_eq_ok.1 hs
      obtain ⟨_, _, source, hsource, filter, hfilter, _⟩ := selectBody_eq_ok.1 hbody
      exact absurd ⟨⟨source, hsource⟩, filter, hfilter⟩ h
    · intro c hc
      obtain ⟨_, sql, hbody, _⟩ := build_eq_ok.1 hc
      obtain ⟨source, hsource, filter, hfilter, _⟩ := countBody_eq_ok.1 hbody
      exact absurd ⟨⟨source, hsource⟩, filter, hfilter⟩ h
    · intro a s hs
      obtain ⟨_, sql, hbody, _⟩ := build_eq_ok.1 hs
      obtain ⟨_, _, _, _, _, _, _, filter, hfilter, _, _, source, hsource, _⟩ :=
        aggregateBody_eq_ok.1 hbody
      exact absurd ⟨⟨source, hsource⟩, filter, hfilter⟩ h

end Builder

end RecordSql
