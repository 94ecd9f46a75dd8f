import RecordSql.Proofs.Resolution
import RecordSql.Proofs.SameRows
import RecordSql.Proofs.SelectList

/-!
# The columns of a result

What a select shows, read off its text. The select list stands between `SELECT` and `FROM`, and its
columns are the exposed columns of the entity: the visible fields, then what the joins pull in, in
order and under their names. The check of the entity keeps those names apart.

A page of SQL Server is cut out of a derived table, whose select list has one column more: the
number of the row, which the database has to find under a name of its own. The check of the entity
does not know of it, so that name is its own just when no column of the result has it.

* An item of a projection is read back as its expression and its name, whatever the style.
* The expressions are those that the columns are shown through: a date as text, an encrypted field
  in clear, and everything else as it is.
* The terms of an order stand in the parentheses of the row number, where their commas separate
  nothing.
-/

namespace RecordSql

open Checked Text

/-! ## Texts of items -/

namespace Sql

variable {style : Style}

theorem write_column (table : TableAlias) (c : String) :
    write style [.column table c] = style.qualified table c := by
  rw [write, charsFrom_of_binding?_none rfl, charsFrom, List.append_nil, String.ofList_toList]
  rfl

/-- A column with wording around it. -/
theorem write_around {p : Piece} (h : p.binding? = none) (table : TableAlias) (c closing : String) :
    write style [p, .column table c, .text closing] =
      p.write style 0 ++ style.qualified table c ++ closing := by
  rw [write, charsFrom_of_binding?_none h, charsFrom_of_binding?_none rfl,
    charsFrom_of_binding?_none rfl, charsFrom, List.append_nil, String.ofList_append,
    String.ofList_append, String.ofList_toList, String.ofList_toList, String.ofList_toList,
    ← String.append_assoc]
  rfl

/-- An expression with the name behind it. -/
theorem write_as (value : Sql) (label : String) :
    (value ++ as label).write style = value.write style ++ " AS " ++ style.identifier label := by
  have hunbound : (as label).bindings = [] := rfl
  have hlabel : (as label).write style = " AS " ++ style.identifier label := by
    rw [as, write_text, write, charsFrom_of_binding?_none rfl, charsFrom, List.append_nil,
      String.ofList_toList]
    rfl
  rw [write_append_unbound hunbound, hlabel, String.append_assoc]

theorem write_wrapped (a : Sql) (opening closing : String) :
    write style (.text opening :: a ++ [.text closing]) =
      opening ++ a.write style ++ closing := by
  rw [write, charsFrom_wrapped, String.ofList_append, String.ofList_append, String.ofList_toList,
    String.ofList_toList, ← String.append_assoc]
  rfl

/-- A list of parts that bind nothing has their texts with commas between them. -/
theorem write_list {parts : List Sql} (h : ∀ part ∈ parts, part.bindings = []) :
    (list parts).write style = ", ".intercalate (parts.map (write style)) := by
  rw [← String.toList_inj, write, String.toList_ofList, list, charsFrom_joined,
    textsFrom_of_unbound h, String.toList_intercalate, List.map_map]
  rfl

end Sql

/-! ## Expressions -/

namespace Dialect

/-- What stands around a date that is shown as text. -/
def dateWording : Dialect → String × String
  | .sqlServer => ("CONVERT(VARCHAR(10), ", ", 120)")
  | .oracle => ("TO_CHAR(", ", 'YYYY-MM-DD')")

/-- A date as text of the form year, month and day. -/
def dateText (d : Dialect) (column : String) : String :=
  d.dateWording.1 ++ column ++ d.dateWording.2

/-- What stands around an encrypted column that is shown in clear. -/
def decryptWording : String × String := ("CONVERT(NVARCHAR(MAX), DECRYPTBYKEY(", "))")

/-- An encrypted column in clear. -/
def decryptText (column : String) : String := decryptWording.1 ++ column ++ decryptWording.2

/-- The wording around a date closes the parenthesis that it opens. -/
theorem isItem_dateText (d : Dialect) {column : String} (h : IsItem column.toList) :
    IsItem (d.dateText column).toList := by
  have ho : depthAfter? 0 d.dateWording.1.toList = some 1 := by
    cases d with
    | sqlServer => decide
    | oracle => decide
  have hc : depthAfter? 1 d.dateWording.2.toList = some 0 := by
    cases d with
    | sqlServer => decide
    | oracle => decide
  have hstart : d.dateWording.1.toList ≠ [] ∧ d.dateWording.1.toList.head? ≠ some ' ' := by
    cases d with
    | sqlServer => decide
    | oracle => decide
  rw [dateText, String.toList_append, String.toList_append]
  exact isItem_wrapped hstart ho (h.whole.inside 1) hc

theorem isItem_decryptText {column : String} (h : IsItem column.toList) :
    IsItem (decryptText column).toList := by
  have ho : depthAfter? 0 decryptWording.1.toList = some 2 := by decide
  have hc : depthAfter? 2 decryptWording.2.toList = some 0 := by decide
  rw [decryptText, String.toList_append, String.toList_append]
  exact isItem_wrapped (by decide) ho (h.whole.inside 2) hc

/-- A column of a type as it is shown: a date as text, what is encrypted in clear, and everything
else as it is. -/
def shownText (d : Dialect) (type : DataType) (column : String) : String :=
  match type with
  | .date => d.dateText column
  | .encrypted => decryptText column
  | _ => column

theorem isItem_shownText (d : Dialect) (type : DataType) {column : String}
    (h : IsItem column.toList) : IsItem (d.shownText type column).toList := by
  cases type with
  | date => exact d.isItem_dateText h
  | encrypted => exact isItem_decryptText h
  | _ => exact h

theorem shownText_of_ne {type : DataType} (hd : type ≠ .date) (he : type ≠ .encrypted)
    (d : Dialect) (column : String) : d.shownText type column = column := by
  cases type with
  | date => exact absurd rfl hd
  | encrypted => exact absurd rfl he
  | _ => rfl

theorem write_dateToString {style : Style} (d : Dialect) (table : TableAlias) (c : String) :
    (d.dateToString [.column table c]).write style = d.dateText (style.qualified table c) := by
  cases d with
  | sqlServer => exact Sql.write_around rfl table c _
  | oracle => exact Sql.write_around rfl table c _

end Dialect

namespace Builder

variable {b : Builder} {e : Entity} {name : String} {items : List Item}

/-- What a column of a result is shown through. Only fields are shown by their type. -/
def expression (b : Builder) : Target → String
  | .field f => b.dialect.shownText f.dataType (b.style.qualified .root f.columnName)
  | .joined index c => b.style.qualified (.join index) c.source

theorem isItem_expression {target : Target} (h : Identifier.check target.columnName = .ok ()) :
    IsItem (b.expression target).toList := by
  cases target with
  | joined index c => exact Style.isItem_qualified _ h
  | field f => exact b.dialect.isItem_shownText f.dataType (Style.isItem_qualified _ h)

/-- A column of a result as a reader finds it. -/
def shown (b : Builder) (column : String × Target) : ShownColumn :=
  ⟨b.expression column.2, some column.1⟩

/-! ## The projection -/

/-- An item that shows a column under a name: it stands in a list, and is read as that. -/
structure Shows (b : Builder) (item : Item) (column : String × Target) : Prop where
  unbound : item.sql.bindings = []
  isItem : IsItem (item.sql.write b.style).toList
  read : b.dialect.readItem (item.sql.write b.style).toList = b.shown column

/-- A value with a label shows what its text is the expression of. -/
theorem shows_labelled (target : Target) {value : Sql} (hn : Identifier.check name = .ok ())
    (ht : Identifier.check target.columnName = .ok ()) (hb : value.bindings = [])
    (hv : value.write b.style = b.expression target) :
    b.Shows (.labelled value name) (name, target) where
  unbound := by
    rw [Item.sql, Sql.bindings_append, hb]
    rfl
  isItem := by
    rw [Item.sql, Sql.write_as, hv]
    exact Style.isItem_labelled (isItem_expression ht) hn
  read := by
    rw [Item.sql, Sql.write_as, hv]
    exact Style.readItem_labelled hn _

/-- A column without a label shows itself under its own name. -/
theorem shows_bare (target : Target) {table : TableAlias}
    (ht : Identifier.check target.columnName = .ok ())
    (hv : b.style.qualified table target.columnName = b.expression target) :
    b.Shows (.bare table target.columnName) (target.columnName, target) where
  unbound := rfl
  isItem := by
    rw [Item.sql, Sql.write_column]
    exact Style.isItem_qualified table ht
  read := by
    rw [Item.sql, Sql.write_column, shown, ← hv]
    exact Style.readItem_qualified table ht

theorem fieldItem_shows {f : Field} {item : Item} (hn : Identifier.check f.name = .ok ())
    (hc : Identifier.check f.columnName = .ok ()) (h : b.fieldItem f = .ok item) :
    b.Shows item (f.name, .field f) := by
  rcases fieldItem_eq_ok.1 h with ⟨hd, rfl⟩ | ⟨hd, value, hv, rfl⟩ | ⟨hdate, hencrypted, rfl⟩
  · refine shows_labelled (.field f) hn hc ?_ ?_
    · cases b.dialect with
      | sqlServer => rfl
      | oracle => rfl
    · rw [expression, hd]
      exact Dialect.write_dateToString _ _ _
  · obtain ⟨hplain, _⟩ | ⟨_, _, _, rfl⟩ := readField_eq_ok.1 hv
    · exact absurd hd hplain
    · refine shows_labelled (.field f) hn hc rfl ?_
      rw [expression, hd]
      exact Sql.write_around rfl _ _ _
  · have hexpression : b.expression (.field f) = b.style.qualified .root f.columnName :=
      Dialect.shownText_of_ne hdate hencrypted _ _
    split
    · next hname =>
      rw [← hname]
      exact shows_bare (.field f) hc hexpression.symm
    · exact shows_labelled (.field f) hn hc rfl ((Sql.write_column _ _).trans hexpression.symm)

theorem item_shows {t : JoinedTable} {c : JoinColumn} (hs : Identifier.check c.source = .ok ())
    (hl : ∀ label, c.label = some label → Identifier.check label = .ok ()) :
    b.Shows (t.item c) (c.exposedName, .joined t.index c) := by
  rw [JoinedTable.item, JoinColumn.exposedName]
  cases hlabel : c.label with
  | none => exact shows_bare (.joined t.index c) hs rfl
  | some label =>
    exact shows_labelled (.joined t.index c) (hl label hlabel) hs rfl (Sql.write_column _ _)

/-- **The items of a projection show the exposed columns**, in order and under their names. -/
theorem projection_shows (he : e.check = .ok ()) (h : b.projection e = .ok items) :
    List.Forall₂ b.Shows items e.exposed := by
  obtain ⟨fields, hfields, _, rfl⟩ := projection_eq_ok.1 h
  refine List.rel_append ?_ (List.rel_flatMap (R := fun t t' => t ∈ e.joinedTables ∧ t = t')
    (List.forall₂_same.2 fun t ht => ⟨ht, rfl⟩) ?_)
  · have hchecked : ∀ f ∈ e.fields.filter Field.isProjected, f ∈ e.fields :=
      fun f hf => List.mem_of_mem_filter hf
    rw [List.forall₂_map_right_iff]
    refine ((List.forall₂_and_left _ _).2 ⟨hchecked, mapM_eq_ok.1 hfields⟩).flip.imp ?_
    rintro item f ⟨hf, hitem⟩
    exact fieldItem_shows (Entity.Declares.check he (.field hf))
      (Entity.Declares.check he (.column hf)) hitem
  · rintro t t' ⟨ht, rfl⟩
    rw [JoinedTable.items, List.forall₂_map_left_iff, List.forall₂_map_right_iff,
      List.forall₂_same]
    intro c hc
    exact item_shows (Entity.Declares.check he (.pulled ht hc))
      fun label hl => Entity.Declares.check he (.pulledAlias ht hc hl)

section Projected

variable (he : e.check = .ok ()) (h : b.projection e = .ok items)
include he h

/-- A projection is written as its items, which are read as the exposed columns. -/
theorem exists_itemTexts : ∃ texts : List (List Char), texts ≠ [] ∧ (∀ text ∈ texts, IsItem text) ∧
    ((Sql.items items).write b.style).toList = List.intercalate [',', ' '] texts ∧
    texts.map b.dialect.readItem = e.exposed.map b.shown := by
  have hshows := projection_shows he h
  have hitem : ∀ item ∈ items, ∃ column, b.Shows item column := by
    intro item hm
    obtain ⟨column, _, hcolumn⟩ := exists_right_of_forall₂ hshows hm
    exact ⟨column, hcolumn⟩
  refine ⟨items.map fun item => (item.sql.write b.style).toList, ?_, ?_, ?_, ?_⟩
  · obtain ⟨_, _, hne, rfl⟩ := projection_eq_ok.1 h
    exact mt List.map_eq_nil_iff.1 hne
  · refine List.forall_mem_map.2 fun item hm => ?_
    obtain ⟨column, hcolumn⟩ := hitem item hm
    exact hcolumn.isItem
  · rw [Sql.items, Sql.write_list, String.toList_intercalate, List.map_map, List.map_map]
    · rfl
    · refine List.forall_mem_map.2 fun item hm => ?_
      obtain ⟨column, hcolumn⟩ := hitem item hm
      exact hcolumn.unbound
  · rw [List.map_map, ← List.forall₂_eq_eq_eq, List.forall₂_map_left_iff,
      List.forall₂_map_right_iff]
    exact hshows.imp fun _ _ hcolumn => hcolumn.read

/-- **A projection is read as the exposed columns.** -/
theorem readList_projection :
    b.dialect.readList ((Sql.items items).write b.style) = e.exposed.map b.shown := by
  obtain ⟨texts, hne, hitems, htext, hread⟩ := exists_itemTexts he h
  rw [Dialect.readList, htext, listItems_intercalate hne hitems, hread]

/-- One more item behind a projection is one more column. -/
theorem readList_projection_append {item : String} (hitem : IsItem item.toList) :
    b.dialect.readList ((Sql.items items).write b.style ++ ", " ++ item) =
      e.exposed.map b.shown ++ [b.dialect.readItem item.toList] := by
  obtain ⟨texts, hne, hitems, htext, hread⟩ := exists_itemTexts he h
  have hlist : ((Sql.items items).write b.style ++ ", " ++ item).toList =
      List.intercalate [',', ' '] texts ++ ([',', ' '] ++ item.toList) := by
    rw [String.toList_append, String.toList_append, htext, List.append_assoc]
    rfl
  rw [Dialect.readList, hlist, listItems_intercalate_append hne hitems, hitem.listItems,
    List.map_append, hread]
  rfl

end Projected

/-! ## Orders -/

/-- An operand is a column or a decryption of one. -/
theorem isItem_operand {target : Target} {operand : Sql} (h : b.operand target = .ok operand)
    (hc : Identifier.check target.columnName = .ok ()) :
    IsItem (operand.write b.style).toList := by
  obtain ⟨table, hoperand⟩ := operand_eq_ok h
  have hcolumn : IsItem (b.style.qualified table target.columnName).toList :=
    Style.isItem_qualified table hc
  rcases hoperand with rfl | rfl
  · rw [Sql.write_column]
    exact hcolumn
  · rw [Sql.write_around rfl]
    exact Dialect.isItem_decryptText hcolumn

/-- A term of an order keeps its commas, if it has any, in parentheses. -/
theorem whole_term {operand : Sql} (h : IsItem (operand.write b.style).toList)
    (hb : operand.bindings = []) (direction : SortDirection) :
    Whole (Sql.write b.style (operand ++ [.text s!" {direction.keyword}"])).toList := by
  have hkeyword : Whole (s!" {direction.keyword}").toList := by
    cases direction with
    | asc => decide
    | desc => decide
  rw [Sql.write_append_of_unbound hb, Sql.write_text, Sql.write_nil, String.append_empty,
    String.toList_append]
  exact (h.append hkeyword).whole

theorem whole_sortTerm (he : e.check = .ok ()) {column : ListColumn} {direction : SortDirection}
    {sql : Sql} (h : b.sortTerm e column direction = .ok sql) :
    Whole (sql.write b.style).toList := by
  obtain ⟨target, ht, operand, ho, rfl⟩ := sortTerm_eq_ok.1 h
  have hdeclared := (Entity.reaches_of_resolve? ht).declares
  exact whole_term (isItem_operand ho (hdeclared.check he)) (bindings_operand ho) direction

/-- Inside parentheses the order of a page changes nothing. -/
theorem depthAfter?_windowOrder (he : e.check = .ok ()) {l : Option Listing} {terms : List Sql}
    {orderBy : Sql} (h : b.sortTerms? e l = .ok terms) (ho : windowOrder e terms = .ok orderBy) :
    depthAfter? 1 (orderBy.write b.style).toList = some 1 := by
  rcases windowOrder_eq_ok.1 ho with ⟨_, key, hkey, rfl⟩ | ⟨_, rfl⟩
  · have hcolumn : IsItem (Sql.write b.style [.column .root key.columnName]).toList := by
      rw [Sql.write_column]
      exact Style.isItem_qualified _
        (Entity.Declares.check he (.column (Entity.mem_fields_of_key? hkey)))
    exact (whole_term hcolumn rfl .asc).inside 1
  · rw [Sql.write_list (bindings_sortTerms? h), String.toList_intercalate, List.map_map]
    refine depthAfter?_intercalate (List.forall_mem_map.2 fun term hm => ?_)
    obtain ⟨column, direction, hterm⟩ := exists_of_mem_sortTerms? h hm
    exact whole_sortTerm he hterm

/-! ## Select lists -/

/-- The text of a select with its list. The order of a page closes what it opens. -/
inductive SelectText (d : Dialect) (l : Option Listing) (list : String) : String → Prop where
  | whole {source filter rest : String} : l.filter Listing.isWindowed = none →
      SelectText d l list (wholeText list ("FROM " ++ source) filter rest)
  | page {w : Window} {source filter orderBy : String} : (l.filter Listing.isWindowed).isSome →
      depthAfter? 1 orderBy.toList = some 1 →
      SelectText d l list (d.pageText w list ("FROM " ++ source) filter orderBy)

/-- The list of a select is the projection of its entity. -/
def Selects (b : Builder) (e : Entity) (l : Option Listing) (text : String) : Prop :=
  ∃ items, b.projection e = .ok items ∧
    SelectText b.dialect l ((Sql.items items).write b.style) text

theorem selects_plainSelect {source : Sql} {filter : Option Sql} {orderBy : Sql}
    (hitems : b.projection e = .ok items) (hsource : fromClause e = .ok source)
    (ho : orderBy.bindings = []) {l : Option Listing} (hl : l.filter Listing.isWindowed = none) :
    b.Selects e l ((plainSelect ⟨Sql.items items, source, filter, orderBy⟩).write b.style) := by
  obtain ⟨rest, hrest⟩ := exists_write_fromClause hsource b.style
  refine ⟨items, hitems, ?_⟩
  rw [write_plainSelect filter (bindings_projection hitems) (bindings_fromClause hsource) ho, hrest]
  exact .whole hl

theorem selects_select {l : Option Listing} {sql : Sql} (he : e.check = .ok ())
    (h : b.selectBody e l = .ok sql) : b.Selects e l (sql.write b.style) := by
  obtain ⟨items, hitems, source, hsource, filter, _, terms, hterms, hpage⟩ := selectBody_eq_ok.1 h
  have hunbound := bindings_sortTerms? hterms
  rcases pagedSelect_eq_ok.1 hpage with ⟨hwhole, rfl⟩ | ⟨l', hwindow, w, _, orderBy, ho, rfl⟩
  · exact selects_plainSelect hitems hsource (Sql.bindings_list_eq_nil hunbound) hwhole
  · obtain ⟨rest, hrest⟩ := exists_write_fromClause hsource b.style
    refine ⟨items, hitems, ?_⟩
    rw [Dialect.write_paginate filter (bindings_projection hitems) (bindings_fromClause hsource)
      (bindings_windowOrder hunbound ho), hrest]
    exact .page (Option.isSome_iff_exists.2 ⟨_, hwindow⟩) (depthAfter?_windowOrder he hterms ho)

end Builder

/-- The entity whose columns a request shows, with the listing if there is one. -/
def Request.projected? : Request → Option (Entity × Option Listing)
  | .select e l => some (e, l)
  | .selectByKey e => some (e, none)
  | .selectByExample e _ => some (e, none)
  | _ => none

namespace Builder

variable {b : Builder} {e : Entity} {l : Option Listing} {r : Request} {s : Statement}

theorem exists_selects (h : b.run r = .ok s) (hr : r.projected? = some (e, l)) :
    e.check = .ok () ∧ ∃ text, b.Encloses s text ∧ b.Selects e l text := by
  obtain ⟨hchecks, sql, hbody, hfinish⟩ := run_eq_ok h
  have henclosed : (∀ steps, r ≠ .batch steps) → b.Encloses s (sql.write b.style) :=
    fun hbatch => encloses_finish hbatch hbody hfinish
  cases r with
  | select e' l' =>
    obtain ⟨rfl, rfl⟩ := Prod.mk.inj (Option.some.inj hr)
    have he := hchecks _ List.mem_cons_self
    exact ⟨he, _, henclosed (by simp), selects_select he hbody⟩
  | selectByKey e' =>
    obtain ⟨rfl, rfl⟩ := Prod.mk.inj (Option.some.inj hr)
    have he := hchecks _ List.mem_cons_self
    obtain ⟨items, hitems, source, hsource, _, _, rfl⟩ := selectByKeyBody_eq_ok.1 hbody
    exact ⟨he, _, henclosed (by simp), selects_plainSelect hitems hsource rfl rfl⟩
  | selectByExample e' combinator =>
    obtain ⟨rfl, rfl⟩ := Prod.mk.inj (Option.some.inj hr)
    have he := hchecks _ List.mem_cons_self
    obtain ⟨items, hitems, source, hsource, _, _, rfl⟩ := selectByExampleBody_eq_ok.1 hbody
    exact ⟨he, _, henclosed (by simp), selects_plainSelect hitems hsource rfl rfl⟩
  | _ => exact absurd hr (by simp [Request.projected?])

theorem names_shown (b : Builder) (e : Entity) :
    (e.exposed.map b.shown).map ShownColumn.name = e.exposedNames.map some := by
  rw [List.map_map, ← e.map_fst_exposed, List.map_map]
  rfl

/-- **A select shows the exposed columns of its entity and no others.** The list of every select is
read as the visible fields and then what the joins pull in, in order, each through the expression
that its type asks for and under its own name. No name comes twice, letter case apart. -/
theorem shows_run (h : b.run r = .ok s) (hr : r.projected? = some (e, l)) :
    ∃ list text, b.Encloses s text ∧ SelectText b.dialect l list text ∧
      b.dialect.readList list = e.exposed.map b.shown ∧
      (b.dialect.readList list).map ShownColumn.name = e.exposedNames.map some ∧
      ShownColumn.Distinct (b.dialect.readList list) := by
  obtain ⟨he, text, henclosed, items, hitems, htext⟩ := exists_selects h hr
  have hread := readList_projection he hitems
  have hnames : (b.dialect.readList ((Sql.items items).write b.style)).map ShownColumn.name =
      e.exposedNames.map some := by
    rw [hread, names_shown]
  exact ⟨_, text, henclosed, htext, hread, hnames,
    (ShownColumn.distinct_iff hnames).2 (Entity.nodup_exposedNames he)⟩

/-- A builder with a key for visits. -/
def visitBuilder : Builder := .ofConfig ⟨.sqlServer, false, some ⟨"VisitKey", "Visits"⟩⟩

/-- Visits of patients: the day, what was found and who found it. Rooms are not shown. -/
def visits : Entity where
  table := "Visits"
  fields := [{ Field.new "Id" .integer with isKey := true },
    .new "Day" .date, .new "Finding" .encrypted,
    { Field.new "Room" .text with insertable := false, updatable := false },
    { Field.new "Doctor" .integer with
      dbName := some "doctor_id"
      join := some ⟨.left, "Doctors", "Id", none, ["Name AS DoctorName", "Phone"]⟩ }]
  properties := .empty

theorem shows_run_visits :
    ∃ s, visitBuilder.run (.select visits none) = .ok s ∧
      ∃ list text, visitBuilder.Encloses s text ∧ SelectText .sqlServer none list text ∧
        Dialect.sqlServer.readList list =
          [⟨"t0.Id", some "Id"⟩, ⟨"CONVERT(VARCHAR(10), t0.Day, 120)", some "Day"⟩,
            ⟨"CONVERT(NVARCHAR(MAX), DECRYPTBYKEY(t0.Finding))", some "Finding"⟩,
            ⟨"t0.doctor_id", some "Doctor"⟩, ⟨"j0.Name", some "DoctorName"⟩,
            ⟨"j0.Phone", some "Phone"⟩] ∧
        ShownColumn.Distinct (Dialect.sqlServer.readList list) := by
  obtain ⟨s, hs⟩ : ∃ s, visitBuilder.run (.select visits none) = .ok s := ⟨_, rfl⟩
  obtain ⟨list, text, henclosed, htext, hread, _, hdistinct⟩ := shows_run hs rfl
  exact ⟨s, hs, list, text, henclosed, htext, hread.trans rfl, hdistinct⟩

/-! ## Pages of SQL Server -/

/-- The text of a page that is cut out of a derived table. -/
def derivedText (w : Window) (inner rows : String) : String :=
  "SELECT * FROM (SELECT " ++ inner ++ " FROM " ++ rows ++
    s!") paged WHERE paged.RowNum BETWEEN {w.firstRow} AND {w.lastRow}" ++
    " ORDER BY paged.RowNum"

/-- The number of a row in an order. -/
def rowNumber (orderBy : String) : String := "ROW_NUMBER() OVER (ORDER BY " ++ orderBy ++ ")"

/-- The number of a row as an item, under the name that the page is cut by. -/
def rowNumberItem (orderBy : String) : String := rowNumber orderBy ++ " AS " ++ "RowNum"

theorem isItem_rowNumberItem {orderBy : String} (h : depthAfter? 1 orderBy.toList = some 1) :
    IsItem (rowNumberItem orderBy).toList := by
  have hstart : "ROW_NUMBER() OVER (ORDER BY ".toList ≠ [] ∧
      "ROW_NUMBER() OVER (ORDER BY ".toList.head? ≠ some ' ' := by decide
  have ho : depthAfter? 0 "ROW_NUMBER() OVER (ORDER BY ".toList = some 1 := by decide
  have hc : depthAfter? 1 ")".toList = some 0 := by decide
  have hword : Whole " AS ".toList := by decide
  have hname : Whole "RowNum".toList := by decide
  unfold rowNumberItem rowNumber
  rw [String.toList_append, String.toList_append, String.toList_append, String.toList_append]
  exact ((isItem_wrapped hstart ho h hc).append hword).append hname

theorem readItem_rowNumberItem (orderBy : String) :
    Dialect.sqlServer.readItem (rowNumberItem orderBy).toList =
      ⟨rowNumber orderBy, some "RowNum"⟩ := by
  have hname : Identifier.check "RowNum" = .ok () := rfl
  exact @Style.readItem_labelled ⟨.sqlServer, false⟩ _ hname _

/-- A page of SQL Server has the number of the row behind its list. -/
theorem pageText_sqlServer (w : Window) (list source filter orderBy : String) :
    Dialect.sqlServer.pageText w list ("FROM " ++ source) filter orderBy =
      derivedText w (list ++ ", " ++ rowNumberItem orderBy) (source ++ filter) := by
  have hnumber : ", ROW_NUMBER() OVER (ORDER BY " = ", " ++ "ROW_NUMBER() OVER (ORDER BY " := rfl
  have hlabel : ") AS RowNum " = ")" ++ (" AS " ++ ("RowNum" ++ " ")) := rfl
  have hfrom : " FROM " = " " ++ "FROM " := rfl
  unfold Dialect.pageText derivedText rowNumberItem rowNumber
  dsimp only
  rw [hlabel, hnumber, hfrom]
  simp only [String.append_assoc]

/-- **The derived table of a page has one column more than the result**: the number of the row. Its
columns have different names just when no column of the result is called like that. -/
theorem paged_columns {l : Listing} (hd : b.dialect = .sqlServer) (hl : l.isWindowed = true)
    (h : b.run (.select e (some l)) = .ok s) :
    ∃ w inner rows orderBy, b.Encloses s (derivedText w inner rows) ∧
      b.dialect.readList inner = e.exposed.map b.shown ++ [⟨rowNumber orderBy, some "RowNum"⟩] ∧
      (ShownColumn.Distinct (b.dialect.readList inner) ↔
        ∀ name ∈ e.exposedNames, Text.lowerCase name ≠ "rownum") := by
  obtain ⟨he, text, henclosed, items, hitems, htext⟩ := exists_selects h rfl
  cases htext with
  | whole hwhole => exact absurd hwhole (by simp [hl])
  | @page w source filter orderBy _ horder =>
    rw [hd, pageText_sqlServer] at henclosed
    have hread := readList_projection_append he hitems (isItem_rowNumberItem horder)
    rw [hd, readItem_rowNumberItem, ← hd] at hread
    have hnames : (b.dialect.readList ((Sql.items items).write b.style ++ ", " ++
        rowNumberItem orderBy)).map ShownColumn.name = (e.exposedNames ++ ["RowNum"]).map some := by
      rw [hread, List.map_append, names_shown, List.map_append]
      rfl
    have hfolded : Text.lowerCase "RowNum" = "rownum" := rfl
    refine ⟨w, _, _, orderBy, henclosed, hread, ?_⟩
    rw [ShownColumn.distinct_iff hnames, List.map_append, List.map_singleton, hfolded,
      List.nodup_append]
    constructor
    · rintro ⟨_, _, hapart⟩ name hname
      exact hapart _ (List.mem_map_of_mem hname) _ (List.mem_singleton.2 rfl)
    · intro hother
      refine ⟨Entity.nodup_exposedNames he, List.nodup_singleton _, ?_⟩
      intro folded hmem other hrow
      obtain ⟨name, hname, rfl⟩ := List.mem_map.1 hmem
      obtain rfl := List.mem_singleton.1 hrow
      exact hother name hname

/-- The first page of a listing. -/
def firstPage : Listing := { Listing.empty with length := 10 }

theorem paged_columns_visits :
    ∃ s, visitBuilder.run (.select visits (some firstPage)) = .ok s ∧
      ∃ w inner rows, visitBuilder.Encloses s (derivedText w inner rows) ∧
        ShownColumn.Distinct (Dialect.sqlServer.readList inner) := by
  obtain ⟨s, hs⟩ : ∃ s, visitBuilder.run (.select visits (some firstPage)) = .ok s := ⟨_, rfl⟩
  obtain ⟨w, inner, rows, _, henclosed, _, hdistinct⟩ := paged_columns rfl rfl hs
  exact ⟨s, hs, w, inner, rows, henclosed, hdistinct.2 (by decide)⟩

/-- Orders that keep the number of their row. -/
def numberedOrders : Entity :=
  ⟨"Orders", [{ Field.new "Id" .integer with isKey := true }, .new "RowNum" .integer], .empty⟩

/-- **A column of a result can have the name of the number of the row**: the check passes it, and
the derived table has two columns of one name. -/
theorem page_repeats_rowNumber :
    numberedOrders.check = .ok () ∧
      ∃ s, default.run (.select numberedOrders (some firstPage)) = .ok s ∧
        ∃ inner, s.text = "SELECT * FROM (SELECT " ++ inner ++ " FROM Orders t0) paged " ++
            "WHERE paged.RowNum BETWEEN 1 AND 10 ORDER BY paged.RowNum" ∧
          Dialect.sqlServer.readList inner = [⟨"t0.Id", some "Id"⟩, ⟨"t0.RowNum", some "RowNum"⟩,
            ⟨"ROW_NUMBER() OVER (ORDER BY t0.Id ASC)", some "RowNum"⟩] ∧
          ¬ ShownColumn.Distinct (Dialect.sqlServer.readList inner) := by
  have hread : Dialect.sqlServer.readList
      "t0.Id, t0.RowNum, ROW_NUMBER() OVER (ORDER BY t0.Id ASC) AS RowNum" =
        [⟨"t0.Id", some "Id"⟩, ⟨"t0.RowNum", some "RowNum"⟩,
          ⟨"ROW_NUMBER() OVER (ORDER BY t0.Id ASC)", some "RowNum"⟩] := by decide +kernel
  refine ⟨rfl, _, rfl, _, ?_, hread, ?_⟩
  · decide +kernel
  · rw [hread]
    decide

end Builder

end RecordSql
