import RecordSql.Proofs.Resolution
import RecordSql.Proofs.SameRows

/-!
# Tables are declared before their columns are used

A statement that reads rows has one source, the `FROM` clause. It declares the table of the entity
as `t0`, and then the joins as `j0`, `j1` and so on, in the order of the fields that carry them. The
number of a join is its place in that order, so no alias is given twice.

* A join is compared with a column that a table before it has: the search for its local side sees
  only the joins with smaller numbers. So the clauses of the joins form a chain, each with one more
  alias in scope than the one before.
* All other columns of the statement are those that names stand for, and each of them belongs to
  the entity or to one of its joins. A name without an alias is only ever the label of a result,
  and no wording has a dot that could qualify anything.
* When the local side of a join stands for nothing, there is no source, and whatever did not refuse
  the request before it does so with the fault of the join.

The rows of a page are counted in a table of its own, which the end of the page declares and refers
to. It is kept apart here.
-/

namespace RecordSql

open Checked

variable {b : Builder} {e : Entity} {sql : Sql}

/-! ## Aliases -/

/-- Different tables have different aliases. -/
theorem TableAlias.text_injective : Function.Injective TableAlias.text := by
  have htext : ∀ i, (TableAlias.join i).text.toList = 'j' :: Nat.toDigits 10 i := by
    intro i
    show ("j" ++ toString i).toList = _
    rw [String.toList_append, Nat.toString_eq_repr, Nat.toList_repr]
    rfl
  have hroot : ∀ i, TableAlias.root.text ≠ (TableAlias.join i).text := by
    intro i h
    have hfirst : some 't' = some 'j' := by
      have hlist := congrArg (fun s => s.toList.head?) h
      rw [htext] at hlist
      exact hlist
    exact absurd hfirst (by decide)
  intro s t h
  cases s with
  | root =>
    cases t with
    | root => rfl
    | join j => exact absurd h (hroot j)
  | join i =>
    cases t with
    | root => exact absurd h.symm (hroot i)
    | join j =>
      have hlist := congrArg String.toList h
      rw [htext, htext] at hlist
      -- reading the digits gives the number back
      have hread := congrArg (fun digits => Nat.ofDigitChars 10 digits 0) (List.cons.inj hlist).2
      rw [Nat.ofDigitChars_ten_toDigits, Nat.ofDigitChars_ten_toDigits] at hread
      exact congrArg _ hread

namespace Entity

/-- The aliases of a statement that reads rows, in the order of their declarations. -/
def tableAliases (e : Entity) : List TableAlias :=
  .root :: e.joinedTables.map JoinedTable.tableAlias

/-- The joins are numbered from zero on. -/
theorem tableAliases_eq (e : Entity) :
    e.tableAliases = .root :: (List.range e.joinedTables.length).map .join := by
  have hsnd : e.joinedFields.zipIdx.map Prod.snd = List.range e.joinedFields.length := by
    rw [List.zipIdx_map_snd, List.range_eq_range']
  have htables : e.joinedTables.map JoinedTable.tableAlias =
      (e.joinedFields.zipIdx.map Prod.snd).map .join := by
    rw [joinedTables, List.map_map, List.map_map]
    rfl
  have hlength : e.joinedTables.length = e.joinedFields.length := by
    rw [joinedTables, List.length_map, List.length_zipIdx]
  rw [tableAliases, htables, hsnd, hlength]

/-- The fields of the joins are those that carry one, in order. -/
theorem joinedTables_map_field (e : Entity) :
    e.joinedTables.map JoinedTable.field = e.fields.filter fun f => f.join.isSome := by
  have hfst : e.joinedFields.zipIdx.map Prod.fst = e.joinedFields := List.zipIdx_map_fst 0 _
  have hfield : e.joinedTables.map JoinedTable.field =
      (e.joinedFields.zipIdx.map Prod.fst).map Prod.fst := by
    rw [joinedTables, List.map_map, List.map_map]
    rfl
  rw [hfield, hfst, joinedFields, List.map_filterMap, ← List.filterMap_eq_filter]
  refine List.filterMap_congr fun f _ => ?_
  cases hj : f.join <;> simp [Option.guard, hj]

theorem nodup_tableAliases (e : Entity) : (e.tableAliases.map TableAlias.text).Nodup := by
  refine List.Nodup.map TableAlias.text_injective ?_
  rw [tableAliases_eq, List.nodup_cons]
  refine ⟨by simp, List.nodup_range.map ?_⟩
  intro i j h
  exact TableAlias.join.inj h

/-- The number of a join is the number of joins before it. -/
theorem index_of_joinedTables {before after : List JoinedTable} {t : JoinedTable}
    (h : e.joinedTables = before ++ t :: after) : t.index = before.length := by
  have hget : e.joinedTables[before.length]? = some t := by
    rw [h, List.getElem?_append_right (Nat.le_refl _), Nat.sub_self]
    rfl
  rw [joinedTables, List.getElem?_map, Option.map_eq_some_iff] at hget
  obtain ⟨⟨⟨f, join⟩, i⟩, hi, rfl⟩ := hget
  obtain ⟨_, hi⟩ := List.getElem?_eq_some_iff.1 hi
  rw [List.getElem_zipIdx, Nat.zero_add] at hi
  exact (Prod.mk.inj hi).2.symm

/-- What a name can stand for belongs to a declared table. -/
theorem Reaches.mem_tableAliases {target : Target} (h : e.Reaches target) :
    target.place.1 ∈ e.tableAliases := by
  cases h with
  | field _ => exact List.mem_cons_self
  | joined ht _ => exact List.mem_cons_of_mem _ (List.mem_map_of_mem ht)

end Entity

theorem Target.column_eq (target : Target) :
    target.column = [.column target.place.1 target.place.2] := by
  cases target <;> rfl

/-! ## The chain of joins -/

/-- Clauses of joins in order. Each declares its alias, and equates a column of its table with one
of a table that is declared before it. -/
inductive JoinChain (e : Entity) : (scope : List TableAlias) → List JoinedTable → Sql → Prop where
  | nil {scope : List TableAlias} : JoinChain e scope [] []
  | cons {scope : List TableAlias} {t : JoinedTable} {tables : List JoinedTable} {target : Target}
      {rest : Sql} : e.Reaches target → target.place.1 ∈ scope →
      JoinChain e (scope ++ [t.tableAlias]) tables rest →
      JoinChain e scope (t :: tables)
        (.text s!" {t.join.direction.keywords} " :: Sql.table t.join.table ++
          [.text s!" {t.tableAlias.text} ON ", .column t.tableAlias t.join.onColumn, .text " = ",
            .column target.place.1 target.place.2] ++ rest)

/-- A source of rows: the table of the entity as `t0`, and the chain of its joins. -/
def Entity.DeclaresTables (e : Entity) (source : Sql) : Prop :=
  ∃ joins, source = .text "FROM " :: Sql.table e.table ++ .text " t0" :: joins ∧
    JoinChain e [.root] e.joinedTables joins

/-- The local side of a join belongs to the entity or to a join before. -/
theorem mem_scope_of_joinSource {before after : List JoinedTable} {t : JoinedTable}
    {target : Target} (h : e.joinedTables = before ++ t :: after)
    (hs : e.joinSource t = .ok target) :
    target.place.1 ∈ .root :: before.map JoinedTable.tableAlias := by
  have htake : e.joinedTables.take t.index = before := by
    rw [Entity.index_of_joinedTables h, h, List.take_left]
  rcases Entity.joinSource_eq_ok.1 hs with ⟨_, rfl⟩ | ⟨name, _, hr⟩
  · exact List.mem_cons_self
  · rw [htake] at hr
    have hseen : ∀ accept, Entity.findJoined? before accept = some target →
        target.place.1 ∈ .root :: before.map JoinedTable.tableAlias := by
      intro accept hfound
      obtain ⟨t', ht', hm⟩ := List.exists_of_findSome?_eq_some hfound
      obtain ⟨c, _, rfl⟩ := Option.map_eq_some_iff.1 hm
      exact List.mem_cons_of_mem _ (List.mem_map_of_mem ht')
    unfold Entity.resolveWithin? at hr
    rcases Option.or_eq_some_iff.1 hr with hr | ⟨_, hr⟩
    · exact hseen _ hr
    rcases Option.or_eq_some_iff.1 hr with hr | ⟨_, hr⟩
    · exact hseen _ hr
    · obtain ⟨f, _, rfl⟩ := Option.map_eq_some_iff.1 hr
      exact List.mem_cons_self

/-- Behind the joins that are there already, the remaining ones go on with the chain. -/
theorem joinChain_of_mapM (before : List JoinedTable) {after : List JoinedTable} {joins : List Sql}
    (h : e.joinedTables = before ++ after) (hj : after.mapM (joinClause e) = .ok joins) :
    JoinChain e (.root :: before.map JoinedTable.tableAlias) after joins.flatten := by
  induction after generalizing before joins with
  | nil =>
    cases mapM_eq_ok.1 hj
    exact .nil
  | cons t after ih =>
    cases mapM_eq_ok.1 hj with
    | @cons _ clause _ rest hclause hrest =>
      obtain ⟨target, hs, rfl⟩ := joinClause_eq_ok.1 hclause
      have ht : t ∈ e.joinedTables := h ▸ List.mem_append_right _ List.mem_cons_self
      have hchain := ih (before ++ [t]) (by rw [h, List.append_assoc]; rfl) (mapM_eq_ok.2 hrest)
      rw [List.map_append, ← List.cons_append] at hchain
      have hall := JoinChain.cons (Entity.reaches_of_joinSource ht hs)
        (mem_scope_of_joinSource h hs) hchain
      rw [List.flatten_cons, Target.column_eq]
      simp only [List.append_assoc, List.cons_append, List.nil_append] at hall ⊢
      exact hall

/-- **A source of rows declares its tables in order, each before it is used.** -/
theorem declaresTables_fromClause (h : fromClause e = .ok sql) : e.DeclaresTables sql := by
  obtain ⟨joins, hj, rfl⟩ := fromClause_eq_ok.1 h
  exact ⟨joins.flatten, rfl, joinChain_of_mapM [] rfl hj⟩

/-! ## Columns in scope -/

namespace Sql

/-- SQL that refers to no columns but those of tables in scope. A name of its own is only the label
of a result, and no wording has a dot. -/
inductive Scoped (scope : List TableAlias) : Sql → Prop where
  | nil : Scoped scope []
  | text {s : String} {rest : Sql} : '.' ∉ s.toList → Scoped scope rest →
      Scoped scope (.text s :: rest)
  | keyed {s : String} {rest : Sql} : '.' ∉ s.toList → Scoped scope rest →
      Scoped scope (.keyed s :: rest)
  | column {t : TableAlias} {c : String} {rest : Sql} : t ∈ scope → Scoped scope rest →
      Scoped scope (.column t c :: rest)
  | bind {x : Binding} {rest : Sql} : Scoped scope rest → Scoped scope (.bind x :: rest)
  | label {n : String} {rest : Sql} : Scoped scope rest → Scoped scope (Sql.as n ++ rest)

namespace Scoped

variable {scope : List TableAlias} {a c : Sql}

theorem append (ha : Scoped scope a) (hc : Scoped scope c) : Scoped scope (a ++ c) := by
  induction ha with
  | nil => exact hc
  | text hs _ ih => exact .text hs ih
  | keyed hs _ ih => exact .keyed hs ih
  | column ht _ ih => exact .column ht ih
  | bind _ ih => exact .bind ih
  | label _ ih => exact .label ih

/-- Wording behind. -/
theorem closed (ha : Scoped scope a) (s : String) (hs : '.' ∉ s.toList) :
    Scoped scope (a ++ [.text s]) :=
  ha.append (.text hs .nil)

/-- Wording in between. -/
theorem join (ha : Scoped scope a) (s : String) (hs : '.' ∉ s.toList) (hc : Scoped scope c) :
    Scoped scope (a ++ .text s :: c) :=
  ha.append (.text hs hc)

theorem labelled (ha : Scoped scope a) (n : String) : Scoped scope (a ++ Sql.as n) :=
  ha.append (.label .nil)

theorem joined {separator : String} {parts : List Sql} (hs : '.' ∉ separator.toList)
    (h : ∀ part ∈ parts, Scoped scope part) : Scoped scope (Sql.joined separator parts) :=
  joined_induction .nil (fun _ _ ha hc => ha.join separator hs hc) h

theorem list {parts : List Sql} (h : ∀ part ∈ parts, Scoped scope part) :
    Scoped scope (Sql.list parts) :=
  joined (by decide) h

theorem combined {combinator : Combinator} {conditions : List Sql}
    (h : ∀ part ∈ conditions, Scoped scope part) : Scoped scope (combinator.join conditions) := by
  cases combinator with
  | and => exact joined (by decide) h
  | or => exact joined (by decide) h

theorem items {items : List Item} (h : ∀ item ∈ items, Scoped scope item.sql) :
    Scoped scope (Sql.items items) :=
  list (List.forall_mem_map.2 h)

theorem whereSuffix {filter : Option Sql} (h : ∀ c ∈ filter, Scoped scope c) :
    Scoped scope (Sql.whereSuffix filter) := by
  cases filter with
  | none => exact .nil
  | some c => exact .text (by decide) (h c rfl)

theorem condition (ho : Scoped scope a) (type : DataType) (c : Condition) :
    Scoped scope (c.sql a type) := by
  have hbound : ∀ value, Scoped scope (Condition.bound type value) := fun _ => .bind .nil
  induction c with
  | isNull => exact ho.closed " IS NULL" (by decide)
  | isNotNull => exact ho.closed " IS NOT NULL" (by decide)
  | not inner ih => exact (Scoped.text (by decide) ih).closed ")" (by decide)
  | range lower upper =>
    cases lower with
    | none =>
      cases upper with
      | none => exact .text (by decide) .nil
      | some upper => exact ho.join " <= " (by decide) (hbound upper)
    | some lower =>
      cases upper with
      | none => exact ho.join " >= " (by decide) (hbound lower)
      | some upper =>
        have hopen : Scoped scope (.text "(" :: a) := .text (by decide) ho
        have hlower := hopen.join " >= " (by decide) (hbound lower)
        have hboth := (hlower.join " AND " (by decide) ho).join " <= " (by decide) (hbound upper)
        have hall := hboth.closed ")" (by decide)
        rw [Condition.sql]
        simp only [List.append_assoc, List.cons_append] at hall ⊢
        exact hall
  | oneOf items =>
    have hitems := list (List.forall_mem_map.2 fun value (_ : value ∈ items) => hbound value)
    exact (ho.join " IN (" (by decide) hitems).closed ")" (by decide)
  | like text => exact ho.append (.text (by decide) (.bind .nil))
  | equals value => exact ho.join " = " (by decide) (hbound value)

end Scoped

end Sql

open Sql (Scoped)

namespace Builder

/-! ## Conditions -/

theorem scoped_readField {f : Field} (h : b.readField f = .ok sql) :
    Scoped e.tableAliases sql := by
  rcases readField_eq_ok.1 h with ⟨_, rfl⟩ | ⟨_, _, _, rfl⟩
  · exact .column List.mem_cons_self .nil
  · exact .keyed (by decide) (.column List.mem_cons_self (.text (by decide) .nil))

theorem scoped_operand {target : Target} (ht : e.Reaches target) (h : b.operand target = .ok sql) :
    Scoped e.tableAliases sql := by
  have hscope := ht.mem_tableAliases
  cases target with
  | field f => exact scoped_readField h
  | joined index column =>
    obtain rfl := Except.ok.inj h
    exact .column hscope .nil

theorem scoped_resolved {name : String} {target : Target} (ht : e.resolve? name = some target)
    (h : b.operand target = .ok sql) : Scoped e.tableAliases sql :=
  scoped_operand (Entity.reaches_of_resolve? ht) h

theorem scoped_filterClause {l : Listing} {clause : Option Sql}
    (h : b.filterClause e l = .ok clause) : ∀ c ∈ clause, Scoped e.tableAliases c := by
  obtain ⟨columns, searches, hcolumns, hsearches, rfl⟩ := filterClause_eq_ok.1 h
  have hc : ∀ c ∈ columns, Scoped e.tableAliases c := by
    intro c hm
    obtain ⟨⟨name, search⟩, _, hone⟩ := exists_of_mem_mapM hcolumns hm
    obtain ⟨target, condition, operand, ht, _, ho, rfl⟩ := columnCondition_eq_ok.1 hone
    exact (scoped_resolved ht ho).condition _ condition
  have hs : ∀ c ∈ searches, Scoped e.tableAliases c := by
    intro c hm
    obtain ⟨search, _, name, _, target, ht, condition, _, operand, ho, rfl⟩ :=
      exists_of_mem_searchConditions hsearches hm
    exact (scoped_resolved ht ho).condition _ condition
  have hcolumns : Scoped e.tableAliases (Combinator.and.join columns) := .combined hc
  have hsearches : Scoped e.tableAliases (Combinator.or.join searches) := .combined hs
  intro clause hm
  unfold combine at hm
  split at hm
  · exact absurd hm (by simp)
  · rw [← Option.some.inj hm]; exact hcolumns
  · rw [← Option.some.inj hm]; exact hsearches
  · rw [← Option.some.inj hm]
    have hboth := (Scoped.text (s := "(") (by decide) hcolumns).join ") AND (" (by decide) hsearches
    exact hboth.closed ")" (by decide)

theorem scoped_filterClause? {l : Option Listing} {clause : Option Sql}
    (h : b.filterClause? e l = .ok clause) : ∀ c ∈ clause, Scoped e.tableAliases c := by
  cases l with
  | none =>
    obtain rfl := Except.ok.inj h
    simp
  | some l => exact scoped_filterClause h

theorem scoped_exampleClause {combinator : Combinator} {clause : Option Sql}
    (h : b.exampleClause e combinator = .ok clause) : ∀ c ∈ clause, Scoped e.tableAliases c := by
  obtain ⟨conditions, hall, rfl⟩ := exampleClause_eq_ok.1 h
  intro clause hm
  split at hm
  · exact absurd hm (by simp)
  rw [← Option.some.inj hm]
  refine .combined fun c hc => ?_
  obtain ⟨f, _, hone⟩ := exists_of_mem_filterMap_id hall hc
  rcases exampleCondition_eq_ok.1 hone with ⟨_, hn⟩ | ⟨_, condition, operand, _, _, ho, he⟩
  · exact absurd hn (by simp)
  · rw [← Option.some.inj he]
    exact (scoped_readField ho).condition _ condition

/-- The key of a statement that stands by itself is compared with its value. -/
theorem scoped_keyCondition (h : keyCondition e none = .ok sql) : Scoped e.tableAliases sql := by
  obtain ⟨key, _, ⟨name, hn, _⟩ | ⟨_, _, _, value, _, rfl⟩⟩ := keyCondition_eq_ok.1 h
  · exact absurd hn (by simp)
  · exact .column List.mem_cons_self (.text (by decide) (.bind .nil))

/-! ## Results and orders -/

theorem scoped_fieldItem {f : Field} {item : Item} (h : b.fieldItem f = .ok item) :
    Scoped e.tableAliases item.sql := by
  have hcolumn : Scoped e.tableAliases [.column .root f.columnName] :=
    .column List.mem_cons_self .nil
  rcases fieldItem_eq_ok.1 h with ⟨_, rfl⟩ | ⟨_, value, hv, rfl⟩ | ⟨_, _, rfl⟩
  · refine Scoped.labelled ?_ f.name
    cases b.dialect with
    | sqlServer => exact (Scoped.text (by decide) hcolumn).closed ", 120)" (by decide)
    | oracle => exact (Scoped.text (by decide) hcolumn).closed ", 'YYYY-MM-DD')" (by decide)
  · exact (scoped_readField hv).labelled f.name
  · split
    · exact hcolumn
    · exact hcolumn.labelled f.name

theorem scoped_pulledItem {t : JoinedTable} (ht : t ∈ e.joinedTables) (c : JoinColumn) :
    Scoped e.tableAliases (t.item c).sql := by
  have hcolumn : Scoped e.tableAliases [.column t.tableAlias c.source] :=
    .column (List.mem_cons_of_mem _ (List.mem_map_of_mem ht)) .nil
  unfold JoinedTable.item
  cases c.label with
  | none => exact hcolumn
  | some label => exact hcolumn.labelled label

theorem scoped_projection {items : List Item} (h : b.projection e = .ok items) :
    Scoped e.tableAliases (Sql.items items) := by
  obtain ⟨fields, hfields, _, rfl⟩ := projection_eq_ok.1 h
  refine .items fun item hi => ?_
  rcases List.mem_append.1 hi with hi | hi
  · obtain ⟨f, _, hitem⟩ := exists_of_mem_mapM hfields hi
    exact scoped_fieldItem hitem
  · obtain ⟨t, ht, hitem⟩ := List.mem_flatMap.1 hi
    obtain ⟨c, _, rfl⟩ := List.mem_map.1 hitem
    exact scoped_pulledItem ht c

theorem scoped_sortTerms? {l : Option Listing} {terms : List Sql}
    (h : b.sortTerms? e l = .ok terms) : ∀ term ∈ terms, Scoped e.tableAliases term := by
  intro term hm
  obtain ⟨column, direction, hterm⟩ := exists_of_mem_sortTerms? h hm
  obtain ⟨target, ht, operand, ho, rfl⟩ := sortTerm_eq_ok.1 hterm
  refine (scoped_resolved ht ho).closed _ ?_
  cases direction <;> decide

theorem scoped_windowOrder {terms : List Sql} (ht : ∀ term ∈ terms, Scoped e.tableAliases term)
    (h : windowOrder e terms = .ok sql) : Scoped e.tableAliases sql := by
  rcases windowOrder_eq_ok.1 h with ⟨_, key, _, rfl⟩ | ⟨_, rfl⟩
  · exact .column List.mem_cons_self (.text (by decide) .nil)
  · exact .list ht

/-! ## Groups and functions -/

theorem scoped_groupTerm {name : String} {term : Sql × Item} (h : b.groupTerm e name = .ok term) :
    Scoped e.tableAliases term.1 ∧ Scoped e.tableAliases term.2.sql := by
  obtain ⟨target, ht, operand, ho, rfl⟩ := groupTerm_eq_ok.1 h
  exact ⟨scoped_resolved ht ho, (scoped_resolved ht ho).labelled _⟩

theorem scoped_rollupItems {rollup : Option String} {items : List Item}
    (h : b.rollupItems e rollup = .ok items) :
    ∀ item ∈ items, Scoped e.tableAliases item.sql := by
  intro item hm
  rcases rollupItems_eq_ok.1 h with ⟨_, rfl⟩ | ⟨name, _, target, ht, operand, ho, rfl⟩
  · exact absurd hm (by simp)
  · rw [List.mem_singleton.1 hm]
    have hcall := (Scoped.text (s := "GROUPING(") (by decide) (scoped_resolved ht ho)).closed ")"
      (by decide)
    exact hcall.labelled _

theorem scoped_aggregateCall {c : AggregateColumn} {call : AggregateCall}
    (h : b.aggregateCall e c = .ok call) : Scoped e.tableAliases call.sql := by
  rcases aggregateCall_eq_ok.1 h with ⟨_, _, rfl⟩ | ⟨name, _, target, ht, operand, ho, rfl⟩
  · exact .text (by decide) .nil
  · have hopening : '.' ∉ (callOpening c.function).toList := by
      cases c.function <;> decide
    exact (Scoped.text hopening (scoped_resolved ht ho)).closed ")" (by decide)

theorem scoped_callItems {a : Aggregation} {calls : List AggregateCall}
    (hc : ∀ call ∈ calls, Scoped e.tableAliases call.sql) :
    ∀ item ∈ callItems a calls, Scoped e.tableAliases item.sql := by
  intro item hm
  obtain ⟨⟨call, label⟩, hp, rfl⟩ := List.mem_map.1 hm
  exact (hc call (List.of_mem_zip hp).1).labelled label

theorem scoped_havingCondition {call : AggregateCall} (hc : Scoped e.tableAliases call.sql)
    (h : havingCondition call = .ok (some sql)) : Scoped e.tableAliases sql := by
  rcases havingCondition_eq_ok.1 h with ⟨_, hn⟩ | ⟨_, _, _, comparison, _, value, _, he⟩
  · exact absurd hn (by simp)
  · rw [← Option.some.inj he]
    refine hc.append (.text ?_ (.bind .nil))
    cases comparison <;> decide

theorem scoped_sourceClause {source : AggregateSource} {clause : Option Sql}
    (h : b.sourceClause e source = .ok clause) : ∀ c ∈ clause, Scoped e.tableAliases c := by
  cases source with
  | «example» combinator => exact scoped_exampleClause h
  | listing l => exact scoped_filterClause h

theorem scoped_groupSuffix {rollup : Bool} {terms : List Sql}
    (h : ∀ term ∈ terms, Scoped e.tableAliases term) :
    Scoped e.tableAliases (groupSuffix rollup terms) := by
  have hterms : Scoped e.tableAliases (Sql.list terms) := .list h
  unfold groupSuffix
  split
  · exact .nil
  split
  · exact (Scoped.text (by decide) hterms).closed ")" (by decide)
  · exact .text (by decide) hterms

theorem scoped_havingSuffix {conditions : List Sql}
    (h : ∀ c ∈ conditions, Scoped e.tableAliases c) :
    Scoped e.tableAliases (havingSuffix conditions) := by
  unfold havingSuffix
  split
  · exact .nil
  · exact .text (by decide) (.combined h)

end Builder

/-! ## Statements that read rows -/

/-- The entity whose rows a request reads. -/
def Request.source? : Request → Option Entity
  | .select e _ | .count e _ | .selectByKey e | .selectByExample e _ | .aggregate e _ _ => some e
  | _ => none

/-- What ends a page. On SQL Server it names the table that the rows are counted in, and refers to
its columns. -/
def Dialect.pageEnd (d : Dialect) (w : Window) : Sql :=
  match d with
  | .sqlServer =>
    [.text s!") paged WHERE paged.RowNum BETWEEN {w.firstRow} AND {w.lastRow}",
      .text " ORDER BY paged.RowNum"]
  | .oracle => [.text s!" OFFSET {w.start} ROWS FETCH NEXT {w.length} ROWS ONLY"]

/-- SQL with one source of rows, outside of which all columns are those of the entity's tables, the
end of a page apart. -/
def Builder.ReadsFrom (b : Builder) (e : Entity) (source sql : Sql) : Prop :=
  ∃ front rest page, sql = front ++ source ++ rest ++ page ∧
    Scoped e.tableAliases front ∧ Scoped e.tableAliases rest ∧
    (page = [] ∨ ∃ w, page = b.dialect.pageEnd w)

namespace Builder

variable {s : Statement} {r : Request}

theorem readsFrom_plainSelect {projection source orderBy : Sql} {filter : Option Sql}
    (hp : Scoped e.tableAliases projection) (hf : ∀ c ∈ filter, Scoped e.tableAliases c)
    (ho : Scoped e.tableAliases orderBy) :
    b.ReadsFrom e source (plainSelect ⟨projection, source, filter, orderBy⟩) := by
  have hfront := (Scoped.text (s := "SELECT ") (by decide) hp).closed " " (by decide)
  have horder : Scoped e.tableAliases
      (if orderBy.isEmpty then [] else .text " ORDER BY " :: orderBy) := by
    split
    · exact .nil
    · exact .text (by decide) ho
  refine ⟨_, _, [], ?_, hfront, (Scoped.whereSuffix hf).append horder, .inl rfl⟩
  simp [plainSelect]

theorem readsFrom_paginate {projection source orderBy : Sql} {filter : Option Sql} {w : Window}
    (hp : Scoped e.tableAliases projection) (hf : ∀ c ∈ filter, Scoped e.tableAliases c)
    (ho : Scoped e.tableAliases orderBy) :
    b.ReadsFrom e source (b.dialect.paginate ⟨projection, source, filter, orderBy⟩ w) := by
  unfold ReadsFrom
  cases b.dialect with
  | sqlServer =>
    have hhead := (Scoped.text (s := "SELECT * FROM (SELECT ") (by decide) hp).join
      ", ROW_NUMBER() OVER (ORDER BY " (by decide) ho
    refine ⟨_, _, _, ?_, hhead.closed ") AS RowNum " (by decide), Scoped.whereSuffix hf,
      .inr ⟨w, rfl⟩⟩
    simp [Dialect.paginate, Dialect.pageEnd]
  | oracle =>
    have hfront := (Scoped.text (s := "SELECT ") (by decide) hp).closed " " (by decide)
    refine ⟨_, _, _, ?_, hfront, (Scoped.whereSuffix hf).join " ORDER BY " (by decide) ho,
      .inr ⟨w, rfl⟩⟩
    simp [Dialect.paginate, Dialect.pageEnd]

theorem readsFrom_selectBody {l : Option Listing} (h : b.selectBody e l = .ok sql) :
    ∃ source, fromClause e = .ok source ∧ b.ReadsFrom e source sql := by
  obtain ⟨items, hi, source, hs, filter, hf, terms, ht, h⟩ := selectBody_eq_ok.1 h
  refine ⟨source, hs, ?_⟩
  rcases pagedSelect_eq_ok.1 h with ⟨_, rfl⟩ | ⟨_, _, w, _, orderBy, ho, rfl⟩
  · exact readsFrom_plainSelect (scoped_projection hi) (scoped_filterClause? hf)
      (.list (scoped_sortTerms? ht))
  · exact readsFrom_paginate (scoped_projection hi) (scoped_filterClause? hf)
      (scoped_windowOrder (scoped_sortTerms? ht) ho)

theorem readsFrom_aggregateBody {a : Aggregation} {source : AggregateSource}
    (h : b.aggregateBody e a source = .ok sql) :
    ∃ rows, fromClause e = .ok rows ∧ b.ReadsFrom e rows sql := by
  obtain ⟨_, groups, hg, rollup, hr, calls, hc, filter, hf, having, hh, rows, hrows, rfl⟩ :=
    aggregateBody_eq_ok.1 h
  have hgroups : ∀ term ∈ groups,
      Scoped e.tableAliases term.1 ∧ Scoped e.tableAliases term.2.sql := by
    intro term hm
    obtain ⟨name, _, hterm⟩ := exists_of_mem_mapM hg hm
    exact scoped_groupTerm hterm
  have hcalls : ∀ call ∈ calls, Scoped e.tableAliases call.sql := by
    intro call hm
    obtain ⟨c, _, hcall⟩ := exists_of_mem_mapM hc hm
    exact scoped_aggregateCall hcall
  have hitems : Scoped e.tableAliases
      (Sql.items (groups.map Prod.snd ++ rollup ++ callItems a calls)) := by
    refine .items fun item hi => ?_
    rcases List.mem_append.1 hi with hi | hi
    · rcases List.mem_append.1 hi with hi | hi
      · obtain ⟨term, hm, rfl⟩ := List.mem_map.1 hi
        exact (hgroups term hm).2
      · exact scoped_rollupItems hr item hi
    · exact scoped_callItems hcalls item hi
  have hgrouping : Scoped e.tableAliases (groupSuffix a.rollup.isSome (groups.map Prod.fst)) :=
    scoped_groupSuffix (List.forall_mem_map.2 fun term hm => (hgroups term hm).1)
  have hhaving : Scoped e.tableAliases (havingSuffix (having.filterMap id)) := by
    refine scoped_havingSuffix fun condition hm => ?_
    obtain ⟨call, hcall, hcondition⟩ := exists_of_mem_filterMap_id hh hm
    exact scoped_havingCondition (hcalls call hcall) hcondition
  have hrest := ((Scoped.whereSuffix (scoped_sourceClause hf)).append hgrouping).append hhaving
  refine ⟨rows, hrows, _, _, [], ?_,
    (Scoped.text (s := "SELECT ") (by decide) hitems).closed " " (by decide), hrest, .inl rfl⟩
  simp

/-- **A body that reads rows refers to no columns but those of its source.** -/
theorem readsFrom_body (hr : r.source? = some e) (h : b.body r = .ok sql) :
    ∃ source, fromClause e = .ok source ∧ b.ReadsFrom e source sql := by
  cases r with
  | select e' l =>
    obtain rfl := Option.some.inj hr
    exact readsFrom_selectBody h
  | count e' l =>
    obtain rfl := Option.some.inj hr
    obtain ⟨source, hs, filter, hf, rfl⟩ := countBody_eq_ok.1 h
    exact ⟨source, hs,
      readsFrom_plainSelect (.text (by decide) .nil) (scoped_filterClause? hf) .nil⟩
  | selectByKey e' =>
    obtain rfl := Option.some.inj hr
    obtain ⟨items, hi, source, hs, condition, hc, rfl⟩ := selectByKeyBody_eq_ok.1 h
    refine ⟨source, hs, readsFrom_plainSelect (scoped_projection hi) (fun c hm => ?_) .nil⟩
    obtain rfl := Option.some.inj hm
    exact scoped_keyCondition hc
  | selectByExample e' combinator =>
    obtain rfl := Option.some.inj hr
    obtain ⟨items, hi, source, hs, filter, hf, rfl⟩ := selectByExampleBody_eq_ok.1 h
    exact ⟨source, hs,
      readsFrom_plainSelect (scoped_projection hi) (scoped_exampleClause hf) .nil⟩
  | aggregate e' a source =>
    obtain rfl := Option.some.inj hr
    exact readsFrom_aggregateBody h
  | _ => exact absurd hr (by simp [Request.source?])

end Builder

/-! ## Joins on nothing -/

/-- A join sees nothing of a name: no field has it, and no join before pulls it in. -/
def Entity.Unseen (e : Entity) (t : JoinedTable) (name : String) : Prop :=
  (∀ f ∈ e.fields, f.name ≠ name) ∧
    ∀ earlier ∈ e.joinedTables, earlier.index < t.index →
      ∀ c ∈ earlier.join.columns, c.exposedName ≠ name

theorem Entity.joinSource_eq_error {t : JoinedTable} {name : String}
    (hl : t.join.localColumn = some name) (ht : t ∈ e.joinedTables) (h : e.Unseen t name) :
    e.joinSource t = .error (.unresolvedJoin t.join.table name e.table) := by
  obtain ⟨before, after, hsplit⟩ := List.append_of_mem ht
  have hindex := index_of_joinedTables hsplit
  have htake : e.joinedTables.take t.index = before := by
    rw [hindex, hsplit, List.take_left]
  -- a join before has a smaller number, as its number is its place
  have hbefore : ∀ earlier ∈ before, ∀ c ∈ earlier.join.columns, c.exposedName ≠ name := by
    intro earlier hm
    obtain ⟨front, back, rfl⟩ := List.append_of_mem hm
    have hearlier : e.joinedTables = front ++ earlier :: (back ++ t :: after) := by
      rw [hsplit, List.append_assoc, List.cons_append]
    refine h.2 earlier (by rw [hsplit]; simp) ?_
    rw [index_of_joinedTables hearlier, hindex]
    simp
  have hnone : e.resolveWithin? before name = none := by
    have hfield : e.field? name = none :=
      List.find?_eq_none.2 fun f hf => by simpa using h.1 f hf
    unfold resolveWithin?
    rw [Option.or_eq_none_iff, Option.or_eq_none_iff, findJoined?_eq_none, findJoined?_eq_none,
      hfield]
    refine ⟨fun earlier hm c hc hplain => ?_, fun earlier hm c hc hlabel => ?_, rfl⟩
    · rw [Bool.and_eq_true, Option.isNone_iff_eq_none] at hplain
      refine hbefore earlier hm c hc ?_
      rw [JoinColumn.exposedName, hplain.1]
      exact of_decide_eq_true hplain.2
    · refine hbefore earlier hm c hc ?_
      rw [JoinColumn.exposedName, of_decide_eq_true hlabel]
      rfl
  unfold joinSource
  rw [hl]
  dsimp only
  rw [htake, hnone]

/-- With a join on nothing there is no source of rows. -/
theorem fromClause_eq_error {t : JoinedTable} {name : String} (ht : t ∈ e.joinedTables)
    (hl : t.join.localColumn = some name) (h : e.Unseen t name) :
    ∃ fault, fromClause e = .error (.invalidEntity fault) := by
  have hsource := Entity.joinSource_eq_error hl ht h
  cases hj : e.joinedTables.mapM (joinClause e) with
  | error fault =>
    refine ⟨fault, ?_⟩
    unfold fromClause
    rw [hj]
    rfl
  | ok joins =>
    obtain ⟨join, _, hjoin⟩ := exists_of_mapM_mem hj ht
    obtain ⟨target, hs, _⟩ := joinClause_eq_ok.1 hjoin
    exact absurd (hs.symm.trans hsource) (by simp)

namespace Builder

variable {s : Statement} {r : Request}

/-- A refusal that comes before the source of rows is looked at: of what is selected, and for an
aggregate of all its other clauses. -/
inductive RefusedBefore (b : Builder) : Request → QueryError → Prop where
  | select {e : Entity} {l : Option Listing} {err : QueryError} :
      b.projection e = .error err → RefusedBefore b (.select e l) err
  | selectByKey {e : Entity} {err : QueryError} :
      b.projection e = .error err → RefusedBefore b (.selectByKey e) err
  | selectByExample {e : Entity} {combinator : Combinator} {err : QueryError} :
      b.projection e = .error err → RefusedBefore b (.selectByExample e combinator) err
  | empty {e : Entity} {a : Aggregation} {source : AggregateSource} :
      a.groupBy = [] → a.rollup = none → a.columns = [] →
      RefusedBefore b (.aggregate e a source) (.invalidFilter (.emptyAggregation e.table))
  | groups {e : Entity} {a : Aggregation} {source : AggregateSource} {err : QueryError} :
      (groupNames a).mapM (b.groupTerm e) = .error err → RefusedBefore b (.aggregate e a source) err
  | rollup {e : Entity} {a : Aggregation} {source : AggregateSource} {err : QueryError} :
      b.rollupItems e a.rollup = .error err → RefusedBefore b (.aggregate e a source) err
  | calls {e : Entity} {a : Aggregation} {source : AggregateSource} {err : QueryError} :
      a.columns.mapM (b.aggregateCall e) = .error err → RefusedBefore b (.aggregate e a source) err
  | filter {e : Entity} {a : Aggregation} {source : AggregateSource} {err : QueryError} :
      b.sourceClause e source = .error err → RefusedBefore b (.aggregate e a source) err
  | having {e : Entity} {a : Aggregation} {source : AggregateSource} {calls : List AggregateCall}
      {fault : FilterFault} : a.columns.mapM (b.aggregateCall e) = .ok calls →
      calls.mapM havingCondition = .error fault →
      RefusedBefore b (.aggregate e a source) (.invalidFilter fault)

/-- What a request is refused for when its joins are at fault. -/
def JoinRefusal (b : Builder) (r : Request) (err : QueryError) : Prop :=
  (∃ fault, err = .invalidEntity fault) ∨ b.RefusedBefore r err

theorem refuses_aggregateBody {a : Aggregation} {source : AggregateSource} {fault : EntityFault}
    (hfrom : fromClause e = .error (.invalidEntity fault)) :
    Refuses (b.JoinRefusal (.aggregate e a source)) (b.aggregateBody e a source) := by
  unfold aggregateBody
  split
  · next hempty =>
    simp only [Bool.and_eq_true, List.isEmpty_iff, Option.isNone_iff_eq_none] at hempty
    exact .bind (.error (.inr (.empty hempty.1.1 hempty.1.2 hempty.2))) fun _ hgiven =>
      absurd hgiven (by simp)
  · refine .bind (fun _ h => .inr (.groups h)) fun _ _ => ?_
    refine .bind (fun _ h => .inr (.rollup h)) fun _ _ => ?_
    refine .bind (fun _ h => .inr (.calls h)) fun calls hcalls => ?_
    refine .bind (fun _ h => .inr (.filter h)) fun _ _ => ?_
    refine .bind (fun err h => .inr ?_) fun _ _ => ?_
    · cases hh : calls.mapM havingCondition with
      | ok having =>
        rw [hh] at h
        exact absurd h (by simp [ofFilter])
      | error fault =>
        rw [hh] at h
        obtain rfl := Except.error.inj h
        exact .having hcalls hh
    · rw [hfrom]
      exact .error (.inl ⟨fault, rfl⟩)

/-- Without a source of rows a request is refused for its entity, or earlier. -/
theorem refuses_sourceless_body {fault : EntityFault} (hr : r.source? = some e)
    (hfrom : fromClause e = .error (.invalidEntity fault)) :
    Refuses (b.JoinRefusal r) (b.body r) := by
  have hfault : ∀ {r : Request}, Refuses (b.JoinRefusal r) (fromClause e) := by
    intro r
    rw [hfrom]
    exact .error (.inl ⟨fault, rfl⟩)
  have hnot : ∀ source, fromClause e ≠ .ok source := by
    intro source h
    exact absurd (hfrom.symm.trans h) (by simp)
  cases r with
  | select e' l =>
    obtain rfl := Option.some.inj hr
    exact .bind (fun _ h => .inr (.select h)) fun _ _ => .bind hfault fun _ h => absurd h (hnot _)
  | count e' l =>
    obtain rfl := Option.some.inj hr
    exact .bind hfault fun _ h => absurd h (hnot _)
  | selectByKey e' =>
    obtain rfl := Option.some.inj hr
    exact .bind (fun _ h => .inr (.selectByKey h)) fun _ _ =>
      .bind hfault fun _ h => absurd h (hnot _)
  | selectByExample e' combinator =>
    obtain rfl := Option.some.inj hr
    exact .bind (fun _ h => .inr (.selectByExample h)) fun _ _ =>
      .bind hfault fun _ h => absurd h (hnot _)
  | aggregate e' a source =>
    obtain rfl := Option.some.inj hr
    exact refuses_aggregateBody hfrom
  | _ => exact absurd hr (by simp [Request.source?])

theorem run_eq_build_of_source? (hr : r.source? = some e) : b.run r = b.build e (b.body r) := by
  cases r with
  | select e' _ | count e' _ | selectByKey e' | selectByExample e' _ | aggregate e' _ _ =>
    obtain rfl := Option.some.inj hr
    rfl
  | _ => exact absurd hr (by simp [Request.source?])

/-- **With a join on nothing, a request is refused for its entity, or earlier.** -/
theorem run_sourceless {t : JoinedTable} {name : String} (hr : r.source? = some e)
    (ht : t ∈ e.joinedTables) (hl : t.join.localColumn = some name) (h : e.Unseen t name) :
    ∃ err, b.run r = .error err ∧ b.JoinRefusal r err := by
  obtain ⟨fault, hfrom⟩ := fromClause_eq_error ht hl h
  have hnot : ∀ sql, b.body r ≠ .ok sql := by
    intro sql hbody
    obtain ⟨source, hs, _⟩ := readsFrom_body hr hbody
    exact absurd (hfrom.symm.trans hs) (by simp)
  have hrefuses : Refuses (b.JoinRefusal r) (b.run r) := by
    rw [run_eq_build_of_source? hr]
    exact .bind (.of_entity fun fault => .inl ⟨fault, rfl⟩) fun _ _ =>
      .bind (refuses_sourceless_body hr hfrom) fun sql hbody => absurd hbody (hnot sql)
  cases hrun : b.run r with
  | error err => exact ⟨err, rfl, hrefuses err hrun⟩
  | ok s =>
    obtain ⟨_, sql, hbody, _⟩ := run_eq_ok hrun
    exact absurd hbody (hnot sql)

/-- A statement that reads rows declares its tables before it uses them. -/
structure DeclaresBeforeUse (b : Builder) (e : Entity) (s : Statement) : Prop where
  /-- There is a join for each field that carries one, in the order of the fields. -/
  joins : e.joinedTables.map JoinedTable.field = (e.fields.filter fun f => f.join.isSome) ∧
    ∀ t ∈ e.joinedTables, t.field.join = some t.join
  /-- The aliases are those of the entity's table and of its joins, numbered from zero on. -/
  aliases : e.tableAliases = .root :: (List.range e.joinedTables.length).map .join
  /-- No two tables have the same one. -/
  distinct : (e.tableAliases.map TableAlias.text).Nodup
  /-- The source declares them in that order, and nothing else is referred to. -/
  declared : ∃ sql source, b.finish sql = .ok s ∧ b.Encloses s (sql.write b.style) ∧
    b.ReadsFrom e source sql ∧ e.DeclaresTables source

/-- **A statement that reads rows declares every table before it uses it.** Its source declares the
table of the entity and then its joins, one for each field that carries a join, under different
aliases. Each join is compared with a column of a table before it, and all other columns are those
of declared tables. When a join is on a name that neither a field nor a join before it has, the
request is refused for its entity, or for something that is looked at earlier. -/
theorem declaresBeforeUse_run (b : Builder) {r : Request} {e : Entity} (hr : r.source? = some e) :
    (∀ s, b.run r = .ok s → b.DeclaresBeforeUse e s) ∧
      ∀ t ∈ e.joinedTables, ∀ name, t.join.localColumn = some name → e.Unseen t name →
        ∃ err, b.run r = .error err ∧
          ((∃ fault, err = .invalidEntity fault) ∨ b.RefusedBefore r err) := by
  refine ⟨fun s h => ?_, fun t ht name hl hn => run_sourceless hr ht hl hn⟩
  obtain ⟨_, sql, hbody, hfinish⟩ := run_eq_ok h
  have hone : ∀ steps, r ≠ .batch steps := by
    rintro steps rfl
    exact absurd hr (by simp [Request.source?])
  obtain ⟨source, hs, hreads⟩ := readsFrom_body hr hbody
  exact
    { joins := ⟨e.joinedTables_map_field, fun t ht => (Entity.mem_fields_of_mem_joinedTables ht).2⟩
      aliases := e.tableAliases_eq
      distinct := e.nodup_tableAliases
      declared := ⟨sql, source, hfinish, encloses_finish hone hbody hfinish, hreads,
        declaresTables_fromClause hs⟩ }

/-- Shipments with their orders and, by a column of those, the customers that ordered. -/
def shipment : Entity where
  table := "Shipments"
  fields := [
    { Field.new "OrderId" .integer with
      join := some ⟨.inner, "Orders", "Id", none, ["CustomerId"]⟩ },
    { Field.new "Carrier" .text with
      join := some ⟨.left, "Customers", "Id", some "CustomerId", ["Name AS CustomerName"]⟩ }]
  properties := .empty

/-- The join of shipments with the customers, on a column that nothing has pulled in. -/
def strayJoin : Join := ⟨.left, "Customers", "Id", some "CustomerId", []⟩

/-- Shipments with customers, but without the orders that lead to them. -/
def strayShipment : Entity :=
  ⟨"Shipments", [{ Field.new "Carrier" .text with join := some strayJoin }], .empty⟩

theorem declaresBeforeUse_run_shipment :
    (∃ s, default.run (.select shipment none) = .ok s ∧ default.DeclaresBeforeUse shipment s ∧
      s.text = "SELECT t0.OrderId, t0.Carrier, j0.CustomerId, j1.Name AS CustomerName " ++
        "FROM Shipments t0 INNER JOIN Orders j0 ON j0.Id = t0.OrderId " ++
        "LEFT OUTER JOIN Customers j1 ON j1.Id = j0.CustomerId") ∧
    ∃ err, default.run (.count strayShipment none) = .error err ∧
      ((∃ fault, err = .invalidEntity fault) ∨
        default.RefusedBefore (.count strayShipment none) err) := by
  constructor
  · refine ⟨_, rfl, (declaresBeforeUse_run default (r := .select shipment none) rfl).1 _ rfl, ?_⟩
    decide +kernel
  · refine (declaresBeforeUse_run default rfl).2 ⟨0, _, strayJoin⟩ List.mem_cons_self "CustomerId"
      rfl ⟨?_, ?_⟩
    · exact List.forall_mem_singleton.2 (by decide)
    · exact fun earlier _ hlt => absurd hlt (Nat.not_lt_zero _)

end Builder

end RecordSql
