import RecordSql.Proofs.SinkClauses
import RecordSql.Proofs.Unbound
import RecordSql.Writer.Select

/-!
# Selects along with a sink

The parts of a select that bind nothing are written alike wherever they stand, so it does not matter
that a page puts the order in front of the clause while the order is written last. What an order
decrypts stands in the text whether or not there is a window.
-/

namespace RecordSql

open Checked

attribute [local simp] Sql.bindings_append Sql.bindings_joined String.append_assoc Piece.isKeyed

variable {b : Builder} {e : Entity} {style : Style} {σ : Sink} {n : Nat}

/-! ## Parts that bind nothing -/

/-- A part that binds nothing and needs no key, and its text. -/
structure Sql.Plainly (style : Style) (sql : Sql) (text : String) : Prop where
  unbound : sql.bindings = []
  keyless : sql.needsKey = false
  text : sql.write style = text

/-- A check of such a part leaves the sink as it is. -/
theorem Renders.of_plainly {d : Dialect} {x : Checked Sql} {y : Checked String}
    (h : Agree (Sql.Plainly style) x y) : Renders d (.ofSql style) x (Writing.check y) :=
  .check (h.imp fun _ _ hsql =>
    ⟨fun n => (Sql.writeFrom_of_unbound hsql.unbound n).trans hsql.text, hsql.unbound,
      hsql.keyless⟩)

namespace Sql.Plainly

variable {a c : Sql} {s t : String}

theorem nil : Plainly style [] "" := ⟨rfl, rfl, rfl⟩

theorem wording (s : String) : Plainly style [.text s] s :=
  ⟨rfl, rfl, by simp [write_eq]⟩

theorem column (table : TableAlias) (name : String) :
    Plainly style [.column table name] (style.qualified table name) :=
  ⟨rfl, rfl, by simp [write_eq]⟩

theorem append (ha : Plainly style a s) (hc : Plainly style c t) :
    Plainly style (a ++ c) (s ++ t) where
  unbound := by rw [bindings_append, ha.unbound, hc.unbound, List.append_nil]
  keyless := by rw [needsKey_append, ha.keyless, hc.keyless, Bool.or_false]
  text := by rw [write_eq, writeFrom_append, ha.unbound, ← ha.text, ← hc.text]; rfl

theorem flatten {parts : List Sql} {texts : List String}
    (h : List.Forall₂ (Plainly style) parts texts) :
    Plainly style parts.flatten (String.join texts) := by
  induction h with
  | nil => exact nil
  | cons hpart _ ih =>
    rw [List.flatten_cons, String.join_cons]
    exact hpart.append ih

end Sql.Plainly

/-! ## Sources of rows -/

theorem Target.plainly_column (style : Style) (target : Target) :
    Sql.Plainly style target.column (style.reference target) := by
  cases target with
  | field f => exact .column _ _
  | joined index column => exact .column _ _

namespace Builder

theorem agree_joinText (t : JoinedTable) :
    Agree (Sql.Plainly b.style) (joinClause e t) (b.joinText e t) := by
  refine .bind_same fun target _ => .ok ?_
  have htarget := target.plainly_column b.style
  refine ⟨?_, ?_, ?_⟩
  · simp [htarget.unbound]
  · simp [htarget.keyless]
  · simp [Sql.write_eq, ← htarget.text, toString]

theorem renders_sourceText :
    Renders b.dialect (.ofSql b.style) (fromClause e) (Writing.check (b.sourceText e)) := by
  refine .of_plainly ?_
  refine (Agree.mapM_same fun t _ => agree_joinText t).ofEntity.bind
    fun joins texts hjoins => .ok ?_
  have hall := Sql.Plainly.flatten hjoins
  refine ⟨?_, ?_, ?_⟩
  · simp [hall.unbound]
  · simp [hall.keyless]
  · simp [Sql.write_eq, ← hall.text, toString]

end Builder

/-! ## Projections -/

/-- An item is written as its text. -/
def Rendering.ofItem (style : Style) : Rendering Item String :=
  ⟨Item.sql, fun n item => item.sql.writeFrom style n⟩

/-- So is a list of items. -/
def Rendering.ofItems (style : Style) : Rendering (List Item) String :=
  ⟨Sql.items, fun n items => (Sql.items items).writeFrom style n⟩

theorem writeFrom_labelled {value : Sql} (label : String) :
    (Item.labelled value label).sql.writeFrom style n =
      style.labelled (value.writeFrom style n) label := by
  simp [Item.sql, Sql.as, Style.labelled]

theorem Sql.Plainly.labelled {value : Sql} {text : String} (h : Plainly style value text)
    (label : String) :
    Plainly style (Item.labelled value label).sql (style.labelled text label) where
  unbound := by simp [Item.sql, Sql.as, h.unbound]
  keyless := by simp [Item.sql, Sql.as, h.keyless]
  text := by rw [write_eq, writeFrom_labelled, ← h.text, write_eq]

theorem Dialect.plainly_dateToString (d : Dialect) (table : TableAlias) (name : String) :
    Sql.Plainly style (d.dateToString [.column table name])
      (d.writeDate (style.qualified table name)) := by
  unfold dateToString writeDate
  cases d with
  | sqlServer => exact ⟨rfl, rfl, by simp [Sql.write_eq]⟩
  | oracle => exact ⟨rfl, rfl, by simp [Sql.write_eq]⟩

/-- An item that binds nothing and needs no key leaves the sink as it is. -/
theorem Rendered.item {item : Item} {text : String} (h : Sql.Plainly style item.sql text) :
    Agree (Rendered (.ofItem style) σ) (.ok item) ((Pure.pure text : Writing String).run σ) :=
  Rendered.pure ((Sql.writeFrom_of_unbound h.unbound _).trans h.text).symm
    (Sink.after_of_inert h.unbound h.keyless).symm

namespace Builder

theorem renders_writeFieldItem (f : Field) :
    Renders b.dialect (.ofItem b.style) (b.fieldItem f) (b.writeFieldItem f) := by
  intro σ hσ
  unfold fieldItem writeFieldItem
  cases f.dataType with
  | date => exact Rendered.item ((b.dialect.plainly_dateToString _ _).labelled _)
  | encrypted =>
    refine (renders_writeField f).bind_run hσ fun value _ _ => ?_
    refine Rendered.pure (writeFrom_labelled f.name).symm (Sink.after_congr ?_ ?_)
    · simp [Rendering.ofItem, Item.sql, Sql.as]
    · simp [Rendering.ofItem, Item.sql, Sql.as]
  | _ =>
    dsimp only
    split
    · exact Rendered.item (.column _ _)
    · exact Rendered.item (.labelled (.column _ _) _)

/-- The columns of a join as items and as texts. -/
theorem pulledColumns_eq (t : JoinedTable) (n : Nat) :
    style.pulledColumns t = t.items.map fun item => item.sql.writeFrom style n := by
  rw [JoinedTable.items, List.map_map]
  refine List.map_congr_left fun c _ => ?_
  unfold Function.comp JoinedTable.item Style.pulled
  cases c.label with
  | none => simp [Item.sql]
  | some label => simp [writeFrom_labelled]

theorem needsKey_items (t : JoinedTable) : ∀ item ∈ t.items, item.sql.needsKey = false := by
  refine List.forall_mem_map.2 fun c _ => ?_
  unfold JoinedTable.item
  cases c.label with
  | none => rfl
  | some label => rfl

/-- Items that bind nothing are written as a list of their texts. -/
theorem writeFrom_items {items : List Item} (h : ∀ item ∈ items, item.sql.bindings = []) :
    (Sql.items items).writeFrom style n =
      commas (items.map fun item => item.sql.writeFrom style n) := by
  rw [Sql.items, Sql.list, Sql.writeFrom_joined,
    Rendering.texts_of_unbound (List.forall_mem_map.2 h), List.map_map]
  rfl

theorem needsKey_sqlItems (items : List Item) :
    (Sql.items items).needsKey = items.any fun item => item.sql.needsKey := by
  simp [Sql.items, Sql.list, Function.comp_def]

theorem renders_writeProjection :
    Renders b.dialect (.ofItems b.style) (b.projection e) (b.writeProjection e) := by
  intro σ hσ
  refine (Renders.mapM fun f _ => renders_writeFieldItem f).bind_run hσ fun fields hfields _ => ?_
  have hfield : ∀ item ∈ fields, item.sql.bindings = [] := by
    intro item hm
    obtain ⟨f, _, hf⟩ := exists_of_mem_mapM hfields hm
    exact bindings_fieldItem hf
  have hbound : ∀ item ∈ fields ++ e.joinedTables.flatMap JoinedTable.items,
      item.sql.bindings = [] := by
    refine List.forall_mem_append.2 ⟨hfield, fun item hm => ?_⟩
    obtain ⟨t, _, ht⟩ := List.mem_flatMap.1 hm
    exact t.bindings_items item ht
  have htexts : (Rendering.ofItem b.style).list.text σ.count fields ++
      e.joinedTables.flatMap b.style.pulledColumns =
        (fields ++ e.joinedTables.flatMap JoinedTable.items).map fun item =>
          item.sql.writeFrom b.style σ.count := by
    rw [Rendering.list_text, Rendering.texts_of_unbound hfield, List.map_append, List.map_flatMap]
    exact congrArg _ (List.flatMap_congr fun t _ => pulledColumns_eq t σ.count)
  have hkeys : (e.joinedTables.flatMap JoinedTable.items).any (fun item => item.sql.needsKey) =
      false := by
    rw [List.any_flatMap, List.any_eq_false]
    intro t _
    rw [Bool.not_eq_true, List.any_eq_false]
    exact fun item hm => by rw [needsKey_items t item hm]; exact Bool.false_ne_true
  have hsink : σ.after ((Rendering.ofItem b.style).list.sql fields) =
      σ.after (Sql.items (fields ++ e.joinedTables.flatMap JoinedTable.items)) := by
    refine Sink.after_congr ?_ ?_
    · rw [Sql.items, Sql.bindings_list_eq_nil (List.forall_mem_map.2 hbound), Rendering.list_sql,
        Sql.bindings_flatMap, List.flatMap_eq_nil_iff]
      exact hfield
    · rw [needsKey_sqlItems, List.any_append, hkeys, Bool.or_false, Rendering.list_sql,
        Sql.needsKey_flatMap]
      rfl
  rw [htexts, hsink]
  generalize fields ++ e.joinedTables.flatMap JoinedTable.items = items at hbound
  cases items with
  | nil => exact .error _
  | cons item items => exact Rendered.pure (writeFrom_items hbound).symm rfl

/-! ## Order -/

end Builder

/-- An order is written as its terms with commas between them. -/
def Rendering.ofOrder (style : Style) : Rendering (List Sql) String :=
  ⟨Sql.list, fun n terms => (Sql.list terms).writeFrom style n⟩

namespace Builder

theorem renders_writeSortTerm (column : ListColumn) (direction : SortDirection) :
    Renders b.dialect (.ofSql b.style) (b.sortTerm e column direction)
      (b.writeSortTerm e column direction) := by
  intro σ hσ
  refine Writing.check_bind_run fun target _ => ?_
  refine (renders_writeOperand target).bind_run hσ fun operand ho _ => ?_
  exact Rendered.pure (by simp [bindings_operand ho, toString])
    (Sink.after_congr (by simp) (by simp))

theorem renders_writeOrder (l : Option Listing) :
    Renders b.dialect (.ofOrder b.style) (b.sortTerms? e l) (b.writeOrder e l) := by
  intro σ hσ
  cases l with
  | none => exact Rendered.pure rfl (Sink.after_of_inert rfl rfl).symm
  | some l =>
    have hterms : Renders b.dialect (Rendering.ofSql b.style).list (b.sortTerms e l)
        (b.writeSortTerms e l) := fun σ hσ =>
      Writing.check_bind_run fun targets _ =>
        Renders.mapM (fun p _ => renders_writeSortTerm p.1 p.2) σ hσ
    rw [sortTerms?, ← bind_pure (b.sortTerms e l)]
    refine hterms.bind_run hσ fun terms _ _ => ?_
    refine Rendered.pure ?_ (Sink.after_congr ?_ ?_)
    · exact (Sql.writeFrom_joined ", " terms).symm
    · simp [Rendering.ofOrder, Sql.list]
    · simp [Rendering.ofOrder, Sql.list]

/-- An order is empty as text only if it has no terms. -/
theorem write_order_eq (style : Style) {l : Option Listing} {terms : List Sql}
    (h : b.sortTerms? e l = .ok terms) :
    (Sql.list terms).write style = "" ↔ terms = [] := by
  cases terms with
  | nil => exact iff_of_true rfl rfl
  | cons term terms =>
    obtain ⟨column, direction, hterm⟩ := exists_of_mem_sortTerms? h List.mem_cons_self
    obtain ⟨target, _, operand, _, rfl⟩ := sortTerm_eq_ok.1 hterm
    -- the direction stands in the text
    obtain ⟨rest, hrest⟩ : ∃ rest, Sql.list ((operand ++ [.text s!" {direction.keyword}"]) ::
        terms) = operand ++ .text s!" {direction.keyword}" :: rest := by
      cases terms with
      | nil => exact ⟨[], rfl⟩
      | cons next terms => exact ⟨_, List.append_assoc _ _ _⟩
    have hdirection : (s!" {direction.keyword}").toList ≠ [] := by
      cases direction <;> decide
    rw [hrest]
    refine iff_of_false (fun hempty => hdirection ?_) (List.cons_ne_nil _ _)
    rw [Sql.write_eq, Sql.writeFrom_append, Sql.writeFrom_text, ← String.toList_inj,
      String.toList_append, String.toList_append] at hempty
    exact (List.append_eq_nil_iff.1 (List.append_eq_nil_iff.1 hempty).2).1

/-! ## Statements -/

theorem writeFrom_whereSuffix (filter : Option Sql) :
    (Sql.whereSuffix filter).writeFrom style n =
      whereText (filter.map (Sql.writeFrom style n)) := by
  cases filter with
  | none => rfl
  | some clause => exact Sql.writeFrom_text _ _

/-- The parts of a select that bind nothing. -/
structure Unbound (projection source order : Sql) : Prop where
  projection : projection.bindings = []
  source : source.bindings = []
  order : order.bindings = []

variable {projection source order : Sql} {filter : Option Sql}

/-- They are written alike wherever they stand. -/
theorem Unbound.writeFrom_eq (h : Unbound projection source order) (style : Style) :
    (∀ n, projection.writeFrom style n = projection.write style) ∧
      (∀ n, source.writeFrom style n = source.write style) ∧
        ∀ n, order.writeFrom style n = order.write style :=
  ⟨Sql.writeFrom_of_unbound h.projection, Sql.writeFrom_of_unbound h.source,
    Sql.writeFrom_of_unbound h.order⟩

/-- The texts of the parts of a select. -/
def textsOf (style : Style) (n : Nat) (select : PagedSelect) : WrittenSelect :=
  ⟨select.projection.write style, select.source.write style,
    select.filter.map (Sql.writeFrom style n), select.orderBy.write style⟩

theorem writeFrom_plainSelect (h : Unbound projection source order)
    (he : order.write style = "" → order = []) :
    (plainSelect ⟨projection, source, filter, order⟩).writeFrom style n =
      plainSelectText (textsOf style n ⟨projection, source, filter, order⟩) := by
  obtain ⟨hp, hs, ho⟩ := h.writeFrom_eq style
  cases order with
  | nil =>
    have hnil : Sql.write style [] = "" := rfl
    simp [plainSelect, plainSelectText, textsOf, hp, hs, h.projection, h.source,
      writeFrom_whereSuffix, hnil]
  | cons p order =>
    have hne : Sql.write style (p :: order) ≠ "" := fun hempty => absurd (he hempty) (by simp)
    simp [plainSelect, plainSelectText, textsOf, hp, hs, ho, h.projection, h.source,
      writeFrom_whereSuffix, hne]

theorem writeFrom_paginate (h : Unbound projection source order) (d : Dialect) (w : Window) :
    (d.paginate ⟨projection, source, filter, order⟩ w).writeFrom style n =
      d.writePage (textsOf style n ⟨projection, source, filter, order⟩) w := by
  obtain ⟨hp, hs, ho⟩ := h.writeFrom_eq style
  unfold Dialect.paginate Dialect.writePage
  cases d with
  | sqlServer =>
    simp [textsOf, hp, hs, ho, h.projection, h.source, h.order, writeFrom_whereSuffix]
  | oracle =>
    simp [textsOf, hp, hs, ho, h.projection, h.source, writeFrom_whereSuffix]

/-- What a select binds is bound in its clause; what it needs the key for stands in its parts. -/
theorem after_plainSelect (h : Unbound projection source order) :
    σ.after (plainSelect ⟨projection, source, filter, order⟩) =
      σ.after (projection ++ (source ++ (filter.elim [] id ++ order))) := by
  refine Sink.after_congr ?_ ?_
  · cases order <;> cases filter <;> simp [plainSelect, Sql.whereSuffix]
  · cases order <;> cases filter <;> simp [plainSelect, Sql.whereSuffix]

theorem after_paginate (h : Unbound projection source order) (d : Dialect) (w : Window) :
    σ.after (d.paginate ⟨projection, source, filter, order⟩ w) =
      σ.after (projection ++ (source ++ (filter.elim [] id ++ order))) := by
  refine Sink.after_congr ?_ ?_
  · cases d <;> cases filter <;> simp [Dialect.paginate, Sql.whereSuffix, h.order]
  · cases d <;> cases filter <;>
      simp [Dialect.paginate, Sql.whereSuffix, Bool.or_comm, Bool.or_left_comm]

/-- The order of a page is what is asked for, or else the key, which leaves the sink as it is. -/
theorem agree_windowOrderText {terms : List Sql}
    (he : (Sql.list terms).write b.style = "" ↔ terms = []) :
    Agree (fun order text => order.write b.style = text ∧
        order.bindings = (Sql.list terms).bindings ∧ order.needsKey = (Sql.list terms).needsKey)
      (windowOrder e terms) (b.windowOrderText e ((Sql.list terms).write b.style)) := by
  unfold windowOrder windowOrderText
  cases terms with
  | nil =>
    rw [if_pos (he.2 rfl)]
    dsimp only
    cases e.key? with
    | none => exact .error _
    | some key => exact .ok ⟨by simp [Sql.write_eq, toString], rfl, rfl⟩
  | cons term terms =>
    rw [if_neg fun hempty => absurd (he.1 hempty) (List.cons_ne_nil _ _)]
    exact .ok ⟨rfl, rfl, rfl⟩

theorem agree_pagedSelectText {terms : List Sql} {l : Option Listing}
    (ht : b.sortTerms? e l = .ok terms) (h : Unbound projection source (Sql.list terms)) :
    Agree (fun sql text => sql.writeFrom b.style n = text ∧
        ∀ σ : Sink, σ.after sql =
          σ.after (projection ++ (source ++ (filter.elim [] id ++ Sql.list terms))))
      (b.pagedSelect e projection source filter terms l)
      (b.pagedSelectText e
        (textsOf b.style n ⟨projection, source, filter, Sql.list terms⟩) l) := by
  have hempty := write_order_eq b.style ht
  unfold pagedSelect pagedSelectText
  cases l.filter Listing.isWindowed with
  | none =>
    refine .ok ⟨writeFrom_plainSelect h fun hw => ?_, fun σ => after_plainSelect h⟩
    rw [hempty.1 hw]
    rfl
  | some l =>
    dsimp only
    cases Window.of? l.start l.length with
    | none => exact .error _
    | some w =>
      refine (agree_windowOrderText hempty).bind ?_
      rintro order _ ⟨rfl, hb, hk⟩
      have horder : Unbound projection source order :=
        ⟨h.projection, h.source, hb.trans h.order⟩
      refine .ok ⟨writeFrom_paginate horder b.dialect w, fun σ => ?_⟩
      rw [after_paginate horder]
      exact Sink.after_congr (by simp [hb]) (by simp [hk])

theorem renders_writeSelect (l : Option Listing) :
    Renders b.dialect (.ofSql b.style) (b.selectBody e l) (b.writeSelect e l) := by
  intro σ hσ
  refine renders_writeProjection.bind_run hσ fun items hitems hσ => ?_
  refine renders_sourceText.bind_run hσ fun source hsource hσ => ?_
  refine (renders_writeFilter? l).bind_run hσ fun filter _ hσ => ?_
  refine (renders_writeOrder l).bind_run hσ fun terms hterms hσ => ?_
  have h : Unbound (Sql.items items) source (Sql.list terms) :=
    ⟨bindings_projection hitems, bindings_fromClause hsource,
      Sql.bindings_list_eq_nil (bindings_sortTerms? hterms)⟩
  simp only [Rendering.ofItems, Rendering.ofOrder, Rendering.ofSql_text, Rendering.ofSql_sql,
    Rendering.option_text, Rendering.option_sql, Sink.count_after, Sink.after_after, h.projection,
    h.source, List.length_nil, Nat.add_zero, Sql.bindings_append, List.append_nil,
    Sql.writeFrom_of_unbound h.projection, Sql.writeFrom_of_unbound h.source,
    Sql.writeFrom_of_unbound h.order]
  refine Rendered.check ?_
  refine (agree_pagedSelectText hterms h).ofFilter.imp ?_
  rintro sql text ⟨htext, hsink⟩
  refine ⟨htext, (hsink σ).trans (congrArg σ.after ?_)⟩
  simp [Rendering.ofSql]

/-- A select without an order is rendered by its parts. -/
theorem rendered_plainSelect {filter : Option Sql} {σ' : Sink} {text : String}
    (h : Unbound projection source []) (ht : projection.write b.style = text)
    (hσ : σ' = σ.after (projection ++ (source ++ filter.elim [] id))) :
    Agree (Rendered (.ofSql b.style) σ) (.ok (plainSelect ⟨projection, source, filter, []⟩))
      ((Pure.pure (plainSelectText
        ⟨text, source.write b.style, filter.map (Sql.writeFrom b.style σ.count), ""⟩) :
          Writing String).run σ') := by
  subst ht
  refine Rendered.pure (writeFrom_plainSelect h fun _ => rfl).symm (hσ.trans ?_)
  rw [Rendering.ofSql_sql, after_plainSelect h, List.append_nil]

theorem renders_writeSelectByKey :
    Renders b.dialect (.ofSql b.style) (b.selectByKeyBody e) (b.writeSelectByKey e) := by
  intro σ hσ
  refine renders_writeProjection.bind_run hσ fun items hitems hσ => ?_
  refine renders_sourceText.bind_run hσ fun source hsource hσ => ?_
  refine (renders_writeKeyCondition none).bind_run hσ fun condition _ hσ => ?_
  have h : Unbound (Sql.items items) source [] :=
    ⟨bindings_projection hitems, bindings_fromClause hsource, rfl⟩
  simp only [Rendering.ofItems, Rendering.ofSql_text, Rendering.ofSql_sql, Sink.count_after,
    Sink.after_after, h.projection, h.source, List.length_nil, Nat.add_zero, Sql.bindings_append,
    List.append_nil, Sql.writeFrom_of_unbound h.projection, Sql.writeFrom_of_unbound h.source]
  exact rendered_plainSelect h rfl (by simp)

theorem renders_writeSelectByExample (combinator : Combinator) :
    Renders b.dialect (.ofSql b.style) (b.selectByExampleBody e combinator)
      (b.writeSelectByExample e combinator) := by
  intro σ hσ
  refine renders_writeProjection.bind_run hσ fun items hitems hσ => ?_
  refine renders_sourceText.bind_run hσ fun source hsource hσ => ?_
  refine (renders_writeExample combinator).bind_run hσ fun filter _ hσ => ?_
  have h : Unbound (Sql.items items) source [] :=
    ⟨bindings_projection hitems, bindings_fromClause hsource, rfl⟩
  simp only [Rendering.ofItems, Rendering.ofSql_text, Rendering.ofSql_sql, Rendering.option_text,
    Rendering.option_sql, Sink.count_after, Sink.after_after, h.projection, h.source,
    List.length_nil, Nat.add_zero, Sql.bindings_append, List.append_nil,
    Sql.writeFrom_of_unbound h.projection, Sql.writeFrom_of_unbound h.source]
  exact rendered_plainSelect h rfl (by simp [Rendering.ofSql])

theorem renders_writeCount (l : Option Listing) :
    Renders b.dialect (.ofSql b.style) (b.countBody e l) (b.writeCount e l) := by
  intro σ hσ
  refine renders_sourceText.bind_run hσ fun source hsource hσ => ?_
  refine (renders_writeFilter? l).bind_run hσ fun filter _ hσ => ?_
  have h : Unbound [.text "COUNT(*) AS Total"] source [] := ⟨rfl, bindings_fromClause hsource, rfl⟩
  simp only [Rendering.ofSql_text, Rendering.ofSql_sql, Rendering.option_text,
    Rendering.option_sql, Sink.count_after, Sink.after_after, h.source, List.length_nil,
    Nat.add_zero, Sql.writeFrom_of_unbound h.source]
  exact rendered_plainSelect h (Sql.Plainly.wording _).text
    (Sink.after_congr (by simp [Rendering.ofSql]) (by simp [Rendering.ofSql]))

end Builder

end RecordSql
