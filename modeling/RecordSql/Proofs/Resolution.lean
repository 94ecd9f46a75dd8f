import Mathlib.Data.List.Nodup
import RecordSql.Proofs.Names

/-!
# What the columns of a result go by

A select gives its result columns names: those of the visible fields, and those under which joins
pull columns in. A filter, an order or an aggregation asks for a column by name, and the name is
looked up among the pulled columns first and then among all fields. The check of an entity keeps
the names of a result apart, so:

* the name of a pulled column stands for that column;
* the name of a visible field stands for that field, unless a field that is not visible has the
  same name and comes first, as the check does not look at those.

A clause on a name that stands for the column of that name in the result reads the very column that
the projection shows.
-/

namespace RecordSql

open Checked

/-! ## The columns that SQL reads -/

/-- A column, with the table that it is read from. -/
abbrev Place : Type := TableAlias × String

/-- The column that a piece reads. -/
def Piece.place? : Piece → Option Place
  | .column t c => some (t, c)
  | _ => none

namespace Sql

/-- The columns that a part of a statement reads, in the order of the text. -/
def reads (sql : Sql) : List Place := sql.filterMap Piece.place?

/-- Reading one column, once or more often, and no other. -/
def ReadsOnly (place : Place) (sql : Sql) : Prop := sql.reads ≠ [] ∧ ∀ p ∈ sql.reads, p = place

@[simp] theorem reads_nil : reads [] = [] := rfl

@[simp] theorem reads_append (sql sql' : Sql) : (sql ++ sql').reads = sql.reads ++ sql'.reads :=
  List.filterMap_append

@[simp] theorem reads_text (s : String) (sql : Sql) : reads (.text s :: sql) = sql.reads :=
  List.filterMap_cons_none rfl

@[simp] theorem reads_keyed (s : String) (sql : Sql) : reads (.keyed s :: sql) = sql.reads :=
  List.filterMap_cons_none rfl

@[simp] theorem reads_name (s : String) (sql : Sql) : reads (.name s :: sql) = sql.reads :=
  List.filterMap_cons_none rfl

@[simp] theorem reads_bind (b : Binding) (sql : Sql) : reads (.bind b :: sql) = sql.reads :=
  List.filterMap_cons_none rfl

@[simp] theorem reads_column (t : TableAlias) (c : String) (sql : Sql) :
    reads (.column t c :: sql) = (t, c) :: sql.reads :=
  List.filterMap_cons_some rfl

theorem reads_joined (separator : String) (parts : List Sql) :
    (joined separator parts).reads = parts.flatMap reads := by
  fun_induction joined separator parts with
  | case1 => rfl
  | case2 part => simp
  | case3 part rest _ ih => rw [reads_append, reads_text, ih, List.flatMap_cons]

variable {place : Place} {sql sql' : Sql}

theorem readsOnly_of_reads (h : sql.reads = [place]) : sql.ReadsOnly place := by
  rw [ReadsOnly, h]
  exact ⟨List.cons_ne_nil _ _, fun _ => List.mem_singleton.1⟩

/-- Whatever reads no column can stand around. -/
theorem ReadsOnly.congr (h : sql.ReadsOnly place) (hr : sql'.reads = sql.reads) :
    sql'.ReadsOnly place := by
  rw [ReadsOnly, hr]
  exact h

theorem ReadsOnly.append (h : sql.ReadsOnly place) (h' : sql'.ReadsOnly place) :
    (sql ++ sql').ReadsOnly place := by
  rw [ReadsOnly, reads_append]
  refine ⟨List.append_ne_nil_of_left_ne_nil h.1 _, ?_⟩
  intro p hp
  rcases List.mem_append.1 hp with hp | hp
  · exact h.2 p hp
  · exact h'.2 p hp

end Sql

/-- The column that a target stands for, with its table. -/
def Target.place : Target → Place
  | .field f => (.root, f.columnName)
  | .joined index column => (.join index, column.source)

/-! ## Clauses on a column -/

section Clauses

variable {b : Builder} {e : Entity} {operand sql : Sql} {place : Place}

/-- A field is read through its own column, decrypted or not. -/
theorem Builder.reads_readField {f : Field} (h : b.readField f = .ok sql) :
    sql.reads = [(.root, f.columnName)] := by
  rcases readField_eq_ok.1 h with ⟨_, rfl⟩ | ⟨_, _, _, rfl⟩
  · rfl
  · rfl

theorem Builder.reads_operand {target : Target} (h : b.operand target = .ok sql) :
    sql.reads = [target.place] := by
  cases target with
  | field f => exact reads_readField h
  | joined index column =>
    obtain rfl := Except.ok.inj h
    rfl

/-- A condition made from a predicate reads its operand, and nothing else: a range without bounds,
whose condition would read nothing, is none. -/
theorem Condition.readsOnly {search : Predicate} {type : DataType} {c : Condition}
    (h : search.coerce type = .ok c) (ho : operand.reads = [place]) (type' : DataType) :
    (c.sql operand type').ReadsOnly place := by
  have hone : ∀ {sql : Sql}, sql.reads = operand.reads → sql.ReadsOnly place :=
    fun hr => Sql.readsOnly_of_reads (hr.trans ho)
  replace h := Predicate.types_of_coerce h
  induction h with
  | isNull | isNotNull | like => exact hone (by simp [Condition.sql])
  | not _ ih => exact ih.congr (by simp [Condition.sql])
  | atLeast _ | atMost _ | equals _ => exact hone (by simp [Condition.sql, bound])
  | between _ _ =>
    have htwice : (operand ++ operand).ReadsOnly place := (hone rfl).append (hone rfl)
    exact htwice.congr (by simp [Condition.sql, bound])
  | @list items values _ =>
    have hvalues : (Sql.list (values.map (bound type'))).reads = [] := by
      rw [Sql.list, Sql.reads_joined]
      exact List.flatMap_eq_nil_iff.2 fun part hp => by
        obtain ⟨value, _, rfl⟩ := List.mem_map.1 hp
        rfl
    exact hone (by simp [Condition.sql, hvalues])

end Clauses

/-! ## The names of a result -/

namespace Entity

variable {e : Entity} {name : String} {target : Target}

/-- The names of the columns of a result, each with the column that stands there. -/
def exposed (e : Entity) : List (String × Target) :=
  (e.fields.filter Field.isProjected).map (fun f => (f.name, .field f)) ++
    e.joinedTables.flatMap fun t => t.join.columns.map fun c => (c.exposedName, .joined t.index c)

theorem mem_exposed :
    (name, target) ∈ e.exposed ↔
      (∃ f ∈ e.fields, f.isProjected = true ∧ f.name = name ∧ .field f = target) ∨
      ∃ t ∈ e.joinedTables, ∃ c ∈ t.join.columns,
        c.exposedName = name ∧ .joined t.index c = target := by
  simp [exposed, and_assoc]

theorem joinedTables_map_join (e : Entity) :
    e.joinedTables.map JoinedTable.join = e.fields.filterMap Field.join := by
  have hfst : e.joinedFields.zipIdx.map Prod.fst = e.joinedFields := List.zipIdx_map_fst 0 _
  have hjoin : e.joinedTables.map JoinedTable.join =
      (e.joinedFields.zipIdx.map Prod.fst).map Prod.snd := by
    rw [joinedTables, List.map_map, List.map_map]
    rfl
  rw [hjoin, hfst, joinedFields, List.map_filterMap]
  refine List.filterMap_congr fun f _ => ?_
  cases f.join with
  | none => rfl
  | some join => rfl

theorem map_fst_exposed (e : Entity) : e.exposed.map Prod.fst = e.exposedNames := by
  rw [exposed, exposedNames, List.map_append, List.map_map, List.map_flatMap,
    ← joinedTables_map_join, List.flatMap_map, List.map_flatMap]
  simp only [List.map_map, Function.comp_def]

/-- No name comes twice, nor one that was seen before. -/
theorem repeatedName?_eq_none {seen names : List String} :
    repeatedName? seen names = none ↔
      (names.map Text.lowerCase).Nodup ∧ ∀ n ∈ names, Text.lowerCase n ∉ seen := by
  induction names generalizing seen with
  | nil => simp [repeatedName?]
  | cons n names ih =>
    rw [repeatedName?]
    by_cases hn : Text.lowerCase n ∈ seen
    · simp [hn]
    · rw [if_neg hn, ih, List.map_cons, List.nodup_cons, List.forall_mem_cons]
      constructor
      · rintro ⟨hnodup, hnames⟩
        refine ⟨⟨?_, hnodup⟩, hn, fun m hm hseen => hnames m hm (List.mem_cons_of_mem _ hseen)⟩
        intro hmem
        obtain ⟨m, hm, hmn⟩ := List.mem_map.1 hmem
        exact hnames m hm (hmn ▸ List.mem_cons_self)
      · rintro ⟨⟨hnew, hnodup⟩, _, hnames⟩
        refine ⟨hnodup, fun m hm hmem => ?_⟩
        rcases List.mem_cons.1 hmem with hmn | hseen
        · exact hnew (hmn ▸ List.mem_map_of_mem hm)
        · exact hnames m hm hseen

/-- A checked entity gives different columns of a result names that differ, letter case apart. -/
theorem nodup_exposedNames (he : e.check = .ok ()) : (e.exposedNames.map Text.lowerCase).Nodup :=
  (repeatedName?_eq_none.1 (check_eq_ok.1 he).2.2.2.2).1

theorem nodup_exposed (he : e.check = .ok ()) : (e.exposed.map Prod.fst).Nodup := by
  rw [map_fst_exposed]
  exact List.Nodup.of_map _ (nodup_exposedNames he)

theorem exposed_unique (he : e.check = .ok ()) {target' : Target} (h : (name, target) ∈ e.exposed)
    (h' : (name, target') ∈ e.exposed) : target = target' :=
  congrArg Prod.snd (List.inj_on_of_nodup_map (nodup_exposed he) h h' rfl)

/-! ## What the names of a result stand for -/

/-- A pulled column that is found under a name stands under that name in the result. -/
theorem mem_exposed_of_findJoined? {accept : JoinColumn → Bool}
    (h : findJoined? e.joinedTables accept = some target)
    (ha : ∀ c, accept c = true → c.exposedName = name) :
    (name, target) ∈ e.exposed ∧ ∃ k c, target = .joined k c := by
  obtain ⟨t, ht, c, hc, hac, rfl⟩ := findJoined?_reaches (fun _ hm => hm) h
  exact ⟨mem_exposed.2 (.inr ⟨t, ht, c, hc, ha c hac, rfl⟩), t.index, c, rfl⟩

theorem findJoined?_eq_none {tables : List JoinedTable} {accept : JoinColumn → Bool} :
    findJoined? tables accept = none ↔
      ∀ t ∈ tables, ∀ c ∈ t.join.columns, ¬ accept c = true := by
  simp [findJoined?]

/-- A name of the result stands for its column, when that is pulled in; when it is a field, the
name stands for the first field of that name. -/
theorem resolve?_exposed (he : e.check = .ok ()) (h : (name, target) ∈ e.exposed) :
    e.resolve? name =
      match target with
      | .field _ => (e.field? name).map .field
      | .joined .. => some target := by
  have hplain : ∀ c : JoinColumn, (c.label.isNone && c.source = name) = true →
      c.exposedName = name := by
    intro c hc
    rw [Bool.and_eq_true, Option.isNone_iff_eq_none] at hc
    rw [JoinColumn.exposedName, hc.1]
    exact of_decide_eq_true hc.2
  have hlabel : ∀ c : JoinColumn, (decide (c.label = some name)) = true →
      c.exposedName = name := by
    intro c hc
    rw [JoinColumn.exposedName, of_decide_eq_true hc]
    rfl
  unfold resolve? resolveWithin?
  -- whatever is found among the pulled columns is the one that has the name in the result
  cases hp : findJoined? e.joinedTables fun c => c.label.isNone && c.source = name with
  | some found =>
    obtain ⟨hmem, k, c, rfl⟩ := mem_exposed_of_findJoined? hp hplain
    obtain rfl := exposed_unique he h hmem
    rfl
  | none =>
    cases hl : findJoined? e.joinedTables fun c => c.label = some name with
    | some found =>
      obtain ⟨hmem, k, c, rfl⟩ := mem_exposed_of_findJoined? hl hlabel
      obtain rfl := exposed_unique he h hmem
      rfl
    | none =>
      rcases mem_exposed.1 h with ⟨f, _, _, _, rfl⟩ | ⟨t, ht, c, hc, hn, rfl⟩
      · rfl
      · have hnot := findJoined?_eq_none.1 hp t ht c hc
        have hnot' := findJoined?_eq_none.1 hl t ht c hc
        -- the column goes by its own name or by its alias
        cases hcl : c.label with
        | none =>
          rw [JoinColumn.exposedName, hcl] at hn
          exact absurd hn (by simpa [hcl] using hnot)
        | some label =>
          rw [JoinColumn.exposedName, hcl] at hn
          exact absurd hn (by simpa [hcl] using hnot')

theorem joinedTables_getElem? {k : Nat} {f : Field} {join : Join}
    (h : e.joinedFields[k]? = some (f, join)) : ⟨k, f, join⟩ ∈ e.joinedTables := by
  rw [joinedTables]
  refine List.mem_map.2 ⟨((f, join), k), List.mem_zipIdx_iff_getElem?.2 h, rfl⟩

/-- The name of a column that the `k`-th join pulls in stands for that column. -/
theorem resolve?_exposedName (he : e.check = .ok ()) {k : Nat} {f : Field} {join : Join}
    (h : e.joinedFields[k]? = some (f, join)) {c : JoinColumn} (hc : c ∈ join.columns) :
    e.resolve? c.exposedName = some (.joined k c) :=
  resolve?_exposed he (mem_exposed.2 (.inr ⟨_, joinedTables_getElem? h, c, hc, rfl, rfl⟩))

/-- The name of a visible field stands for that field, unless there is one of that name before it.
That one cannot be visible, or the name would stand twice in the result. -/
theorem resolve?_fieldName (he : e.check = .ok ()) {before after : List Field} {f : Field}
    (h : e.fields = before ++ f :: after) (hf : f.isProjected = true) :
    e.resolve? f.name = some (.field f) ↔ ∀ g ∈ before, g.name ≠ f.name := by
  have hmem : f ∈ e.fields := h ▸ List.mem_append_right _ List.mem_cons_self
  have hfind : e.field? f.name = (before.find? fun g => g.name = f.name).or (some f) := by
    rw [field?, h, List.find?_append, List.find?_cons_of_pos (by simp)]
  have hnot : f ∉ before := by
    intro hb
    have hnodup := nodup_exposed he
    rw [exposed, h, List.map_append, List.filter_append, List.filter_cons_of_pos hf,
      List.map_append, List.map_append] at hnodup
    have hleft : f.name ∈ ((before.filter Field.isProjected).map
        fun f => (f.name, Target.field f)).map Prod.fst := by
      rw [List.map_map]
      exact List.mem_map.2 ⟨f, List.mem_filter.2 ⟨hb, hf⟩, rfl⟩
    exact (List.nodup_append.1 (List.nodup_append.1 hnodup).1).2.2 _ hleft _
      List.mem_cons_self rfl
  rw [resolve?_exposed he (mem_exposed.2 (.inl ⟨f, hmem, hf, rfl, rfl⟩)), hfind]
  cases hb : before.find? fun g => g.name = f.name with
  | none =>
    refine iff_of_true rfl fun g hg => ?_
    simpa using List.find?_eq_none.1 hb g hg
  | some g =>
    have hg := List.mem_of_find?_eq_some hb
    have hname : g.name = f.name := by simpa using List.find?_some hb
    refine iff_of_false ?_ fun hall => hall g hg hname
    intro heq
    obtain rfl : g = f := by simpa using heq
    exact hnot hg

end Entity

/-! ## Clauses on a name -/

namespace Builder

variable {b : Builder} {e : Entity} {sql : Sql} {name : String} {target : Target}

/-- A part of a statement that asks for a column by a name: a condition of a listing, on that
column or among those of its search; a term of an order or of a grouping; the mark of a rollup; the
call of a function, and the condition on one. -/
inductive ClauseOn (b : Builder) (e : Entity) : String → Sql → Prop where
  | column {name : String} {search : Predicate} {sql : Sql} :
      b.columnCondition e name search = .ok sql → ClauseOn b e name sql
  | search {name : String} {search : Predicate} {sql : Sql} :
      b.searchCondition e search name = .ok (some sql) → ClauseOn b e name sql
  | order {column : ListColumn} {direction : SortDirection} {sql : Sql} :
      b.sortTerm e column direction = .ok sql → ClauseOn b e column.data sql
  | group {name : String} {sql : Sql} {item : Item} :
      b.groupTerm e name = .ok (sql, item) → ClauseOn b e name sql
  | rollup {name : String} {item : Item} :
      b.rollupItems e (some name) = .ok [item] → ClauseOn b e name item.sql
  | call {name : String} {c : AggregateColumn} {call : AggregateCall} :
      c.field = some name → b.aggregateCall e c = .ok call → ClauseOn b e name call.sql
  | having {name : String} {c : AggregateColumn} {call : AggregateCall} {sql : Sql} :
      c.field = some name → b.aggregateCall e c = .ok call →
        havingCondition call = .ok (some sql) → ClauseOn b e name sql

theorem readsOnly_call {c : AggregateColumn} {call : AggregateCall} (hn : c.field = some name)
    (hr : e.resolve? name = some target) (h : b.aggregateCall e c = .ok call) :
    call.sql.ReadsOnly target.place := by
  rcases aggregateCall_eq_ok.1 h with ⟨hnone, _⟩ | ⟨name', hn', target', hr', operand, ho, rfl⟩
  · exact absurd (hn.symm.trans hnone) (by simp)
  · obtain rfl : name = name' := Option.some.inj (hn.symm.trans hn')
    obtain rfl : target = target' := Option.some.inj (hr.symm.trans hr')
    exact Sql.readsOnly_of_reads (by simp [reads_operand ho])

/-- A clause on a name reads the column that the name stands for. -/
theorem ClauseOn.readsOnly (hr : e.resolve? name = some target) (h : b.ClauseOn e name sql) :
    sql.ReadsOnly target.place := by
  have htarget : ∀ {target'}, e.resolve? name = some target' → target = target' :=
    fun hr' => Option.some.inj (hr.symm.trans hr')
  cases h with
  | column h =>
    obtain ⟨target', c, operand, hr', hc, ho, rfl⟩ := columnCondition_eq_ok.1 h
    obtain rfl := htarget hr'
    exact Condition.readsOnly hc (reads_operand ho) _
  | search h =>
    obtain ⟨target', hr', ⟨_, _, hnone⟩ | ⟨c, hc, operand, ho, h⟩⟩ := searchCondition_eq_ok.1 h
    · exact absurd hnone (by simp)
    · obtain rfl := htarget hr'
      obtain rfl := Option.some.inj h
      exact Condition.readsOnly hc (reads_operand ho) _
  | order h =>
    obtain ⟨target', hr', operand, ho, rfl⟩ := sortTerm_eq_ok.1 h
    obtain rfl := htarget hr'
    exact Sql.readsOnly_of_reads (by simp [reads_operand ho])
  | group h =>
    obtain ⟨target', hr', operand, ho, heq⟩ := groupTerm_eq_ok.1 h
    obtain rfl := htarget hr'
    obtain ⟨rfl, _⟩ := Prod.mk.inj heq
    exact Sql.readsOnly_of_reads (reads_operand ho)
  | rollup h =>
    rcases rollupItems_eq_ok.1 h with ⟨hnone, _⟩ | ⟨name', hn, target', hr', operand, ho, heq⟩
    · exact absurd hnone (by simp)
    · obtain rfl := Option.some.inj hn
      obtain rfl := htarget hr'
      obtain rfl := List.singleton_inj.1 heq
      exact Sql.readsOnly_of_reads (by simp [Item.sql, Sql.as, reads_operand ho])
  | call hn h => exact readsOnly_call hn hr h
  | having hn h hh =>
    rcases havingCondition_eq_ok.1 hh with ⟨_, hnone⟩ | ⟨_, _, _, _, _, value, _, heq⟩
    · exact absurd hnone (by simp)
    · obtain rfl := Option.some.inj heq
      exact (readsOnly_call hn hr h).congr (by simp)

/-! ## The projection -/

theorem fieldItem_exposes {f : Field} {item : Item} (h : b.fieldItem f = .ok item) :
    item.resultName = f.name ∧ item.sql.reads = [(.root, f.columnName)] := by
  rcases fieldItem_eq_ok.1 h with ⟨_, rfl⟩ | ⟨_, value, hv, rfl⟩ | ⟨_, _, rfl⟩
  · refine ⟨rfl, ?_⟩
    cases b.dialect with
    | sqlServer => rfl
    | oracle => rfl
  · exact ⟨rfl, by simp [Item.sql, Sql.as, reads_readField hv]⟩
  · split
    · next hn => exact ⟨hn, rfl⟩
    · exact ⟨rfl, rfl⟩

theorem item_exposes (t : JoinedTable) (c : JoinColumn) :
    (t.item c).resultName = c.exposedName ∧ (t.item c).sql.reads = [(t.tableAlias, c.source)] := by
  rw [JoinedTable.item, JoinColumn.exposedName]
  cases c.label with
  | none => exact ⟨rfl, rfl⟩
  | some label => exact ⟨rfl, rfl⟩

/-- The items of a projection are the exposed columns, in order and under their names. -/
theorem projection_exposes {items : List Item} (h : b.projection e = .ok items) :
    List.Forall₂ (fun item (column : String × Target) =>
      item.resultName = column.1 ∧ item.sql.reads = [column.2.place]) items e.exposed := by
  obtain ⟨fields, hfields, _, rfl⟩ := projection_eq_ok.1 h
  refine List.rel_append ?_ (List.rel_flatMap (List.forall₂_eq_eq_eq ▸ rfl) ?_)
  · rw [List.forall₂_map_right_iff]
    exact (mapM_eq_ok.1 hfields).flip.imp fun item f hf => fieldItem_exposes hf
  · rintro t _ rfl
    rw [JoinedTable.items, List.forall₂_map_left_iff, List.forall₂_map_right_iff,
      List.forall₂_same]
    exact fun c _ => item_exposes t c

/-- **A name of a result means the same column in a clause as in the projection.** A name of a
checked entity's result stands for the column that has it: always when a join pulls it in, and for a
visible field unless another field of that name stands before it. The projection reads the columns
of the result under their names, and clauses on a name that stands for one of them read that one. -/
theorem resolve_exposed (b : Builder) {e : Entity} (he : e.check = .ok ()) :
    (∀ k f join, e.joinedFields[k]? = some (f, join) → ∀ c ∈ join.columns,
      e.resolve? c.exposedName = some (.joined k c)) ∧
    (∀ before f after, e.fields = before ++ f :: after → f.isProjected = true →
      (e.resolve? f.name = some (.field f) ↔ ∀ g ∈ before, g.name ≠ f.name)) ∧
    (∀ items, b.projection e = .ok items →
      List.Forall₂ (fun item (column : String × Target) =>
        item.resultName = column.1 ∧ item.sql.reads = [column.2.place]) items e.exposed) ∧
    ∀ name target, e.resolve? name = some target →
      ∀ sql, b.ClauseOn e name sql → sql.ReadsOnly target.place := by
  refine ⟨?_, ?_, ?_, ?_⟩
  · intro k f join h c hc
    exact e.resolve?_exposedName he h hc
  · intro before f after h hf
    exact e.resolve?_fieldName he h hf
  · intro items h
    exact projection_exposes h
  · intro name target hr sql h
    exact h.readsOnly hr

/-- The join that brings in the names of customers. -/
def customerJoin : Join := ⟨.left, "Customers", "Id", none, ["Name AS CustomerName"]⟩

/-- Orders with their totals, under another name than that of the column, and their customers. -/
def customerOrders : Entity where
  table := "Orders"
  fields := [{ Field.new "Total" .decimal with dbName := some "order_total" },
    { Field.new "CustomerId" .integer with join := some customerJoin }]
  properties := .empty

/-- The listing sorts by what it shows: by the total of the order, by the name from the join. -/
theorem resolve_exposed_customerOrders :
    customerOrders.check = .ok () ∧
    (customerOrders.resolve? "Total").map Target.place = some (.root, "order_total") ∧
    (customerOrders.resolve? "CustomerName").map Target.place = some (.join 0, "Name") ∧
    (∃ items, default.projection customerOrders = .ok items ∧
      items.map (fun item => (item.resultName, item.sql.reads)) =
        [("Total", [(.root, "order_total")]), ("CustomerId", [(.root, "CustomerId")]),
          ("CustomerName", [(.join 0, "Name")])]) ∧
    ∀ direction sql,
      default.sortTerm customerOrders ⟨"CustomerName", true, none⟩ direction = .ok sql →
        sql.ReadsOnly (.join 0, "Name") := by
  have he : customerOrders.check = .ok () := rfl
  obtain ⟨hjoined, hfield, hitems, hclause⟩ := resolve_exposed default he
  have htotal := (hfield [] _ _ rfl rfl).2 (by simp)
  have hcustomer := hjoined 0 _ customerJoin rfl ⟨"Name", some "CustomerName"⟩
    (by decide)
  refine ⟨he, congrArg (Option.map Target.place) htotal,
    congrArg (Option.map Target.place) hcustomer, ?_, ?_⟩
  · exact ⟨_, rfl, rfl⟩
  · intro direction sql h
    exact hclause _ _ hcustomer sql (.order h)

/-- The code that parts once had, no longer shown. -/
def legacyCode : Field :=
  { Field.new "Code" .integer with
    dbName := some "LegacyCode"
    insertable := false
    updatable := false }

/-- The code that parts have. -/
def partCode : Field := { Field.new "Code" .text with dbName := some "PartCode" }

/-- Parts with both codes, the old one first. -/
def parts : Entity := ⟨"Parts", [legacyCode, partCode], .empty⟩

/-- A search for a code. -/
def withCode (code : String) : Listing :=
  { Listing.empty with columns := [⟨"Code", true, some (.equals code)⟩] }

/-- **A field that is not shown can take the name of one that is**: the listing shows one column as
`Code`, and filters by another. -/
theorem resolve_parts_legacyCode :
    parts.check = .ok () ∧ partCode ∈ parts.fields ∧ partCode.isProjected = true ∧
      parts.resolve? partCode.name = some (.field legacyCode) ∧ legacyCode ≠ partCode ∧
      ∃ s, default.select parts (some (withCode "7")) = .ok s ∧
        s.text = "SELECT t0.PartCode AS Code FROM Parts t0 WHERE t0.LegacyCode = @p0" := by
  refine ⟨rfl, List.mem_cons_of_mem _ List.mem_cons_self, rfl, rfl, ?_, _, rfl, rfl⟩
  intro h
  exact absurd (congrArg Field.dataType h) (by decide)

end Builder

end RecordSql
