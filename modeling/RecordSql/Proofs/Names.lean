import RecordSql.Proofs.Success

/-!
# The names an entity declares

A name reaches a statement from one of few places: the parts of a table name, the fields, the
joins with the columns that they compare and pull in. `Entity.Declares` lists them, and the check
of an entity passes every one of them as an identifier.

A name of a listing or an aggregation is never written itself. It is looked up, and what is written
is the column that it stands for, which the entity declares.
-/

namespace RecordSql

open Checked

variable {e : Entity}

/-! ## Identifiers -/

namespace Identifier

/-- What an identifier is: short enough, of allowed characters, and no number in front. -/
theorem check_eq_ok {name : String} :
    check name = .ok () ↔
      name ≠ "" ∧ name.utf8ByteSize ≤ maxLength ∧ (∀ c ∈ name.toList, isAllowed c = true) ∧
        ∀ c rest, name.toList = c :: rest → c.isDigit = false := by
  unfold check
  by_cases he : name = ""
  · subst he; simp
  have hemp : name.isEmpty = false := by simpa using he
  rw [hemp]
  by_cases hl : maxLength < name.utf8ByteSize
  · simp only [Bool.false_eq_true, if_false, hl, if_true, reduceCtorEq, false_iff]
    exact fun h => absurd h.2.1 (Nat.not_le.2 hl)
  simp only [Bool.false_eq_true, if_false, hl, he, ne_eq, not_false_eq_true, true_and,
    Nat.le_of_not_lt hl]
  -- the fault is the first character that is not allowed
  cases hf : name.toList.find? fun c => !isAllowed c with
  | some c =>
    have hc := List.find?_some hf
    have hm := List.mem_of_find?_eq_some hf
    simp only [Bool.not_eq_true'] at hc
    simp only [reduceCtorEq, false_iff, not_and]
    intro h
    rw [h c hm] at hc
    exact absurd hc (by simp)
  | none =>
    have hall : ∀ c ∈ name.toList, isAllowed c = true := by
      intro c hc
      simpa using List.find?_eq_none.1 hf c hc
    rw [and_iff_right hall]
    cases ht : name.toList with
    | nil => simp
    | cons c rest =>
      cases hd : c.isDigit with
      | true => simp [hd]
      | false => simp [hd]

theorem require_eq_ok {name : String} : require name = .ok () ↔ check name = .ok () :=
  mapError_eq_ok

theorem requireTable_eq_ok {name : String} :
    requireTable name = .ok () ↔
      (tableParts name).length ≤ maxTableParts ∧ ∀ part ∈ tableParts name, check part = .ok () := by
  unfold requireTable
  by_cases hl : maxTableParts < (tableParts name).length
  · simp only [hl, if_true, reduceCtorEq, false_iff]
    exact fun h => absurd h.1 (Nat.not_le.2 hl)
  · simp only [hl, if_false, forM_eq_ok, require_eq_ok, Nat.le_of_not_lt hl, true_and]

end Identifier

/-! ## Names of settings -/

/-- Settings pass without encryption, or with the names of a key and of its certificate. -/
theorem Config.check_eq_ok {c : Config} :
    c.check = .ok () ↔
      ∀ keys, c.encryption = some keys →
        c.dialect ≠ .oracle ∧ Identifier.check keys.keyName = .ok () ∧
          Identifier.check keys.certificateName = .ok () := by
  unfold check
  cases c.encryption with
  | none => simp
  | some keys =>
    by_cases hd : c.dialect = .oracle
    · simp [hd]
    · simp [hd, seq_eq_ok, checkName, mapError_eq_ok]

/-! ## Joins of an entity -/

namespace Entity

/-- A joined table is the join of one of the fields. -/
theorem mem_fields_of_mem_joinedTables {t : JoinedTable} (h : t ∈ e.joinedTables) :
    t.field ∈ e.fields ∧ t.field.join = some t.join := by
  obtain ⟨⟨⟨f, j⟩, i⟩, hp, rfl⟩ := List.mem_map.1 h
  -- joined tables are the fields with a join, numbered
  have hm : (f, j) ∈ e.joinedFields := (List.mem_zipIdx hp).2.2 ▸ List.getElem_mem _
  obtain ⟨g, hg, hj⟩ := List.mem_filterMap.1 hm
  obtain ⟨j', hj', he⟩ := Option.map_eq_some_iff.1 hj
  simp only [Prod.mk.injEq] at he
  obtain ⟨rfl, rfl⟩ := he
  exact ⟨hg, hj'⟩

/-- A name that an entity declares, and where. -/
inductive Declares (e : Entity) : String → Prop where
  | tablePart {part : String} : part ∈ Identifier.tableParts e.table → Declares e part
  | field {f : Field} : f ∈ e.fields → Declares e f.name
  | column {f : Field} : f ∈ e.fields → Declares e f.columnName
  | joinedPart {t : JoinedTable} {part : String} :
      t ∈ e.joinedTables → part ∈ Identifier.tableParts t.join.table → Declares e part
  | onColumn {t : JoinedTable} : t ∈ e.joinedTables → Declares e t.join.onColumn
  | pulled {t : JoinedTable} {c : JoinColumn} :
      t ∈ e.joinedTables → c ∈ t.join.columns → Declares e c.source
  | pulledAlias {t : JoinedTable} {c : JoinColumn} {label : String} :
      t ∈ e.joinedTables → c ∈ t.join.columns → c.label = some label → Declares e label

/-- A column that a name of a listing or an aggregation can stand for. -/
inductive Reaches (e : Entity) : Target → Prop where
  | field {f : Field} : f ∈ e.fields → Reaches e (.field f)
  | joined {t : JoinedTable} {c : JoinColumn} :
      t ∈ e.joinedTables → c ∈ t.join.columns → Reaches e (.joined t.index c)

theorem Reaches.declares {target : Target} (h : e.Reaches target) :
    e.Declares target.columnName := by
  cases h with
  | field hf => exact .column hf
  | joined ht hc => exact .pulled ht hc

/-! ## The check passes every declared name -/

theorem checkColumn_eq_ok {c : JoinColumn} :
    checkColumn c = .ok () ↔
      Identifier.check c.source = .ok () ∧
        ∀ label, c.label = some label → Identifier.check label = .ok () := by
  unfold checkColumn
  rw [seq_eq_ok, Identifier.require_eq_ok]
  cases hl : c.label with
  | none => simp [Option.forM, pure, Except.pure]
  | some label => simp [Option.forM, Identifier.require_eq_ok]

theorem checkJoin_eq_ok {join : Join} :
    checkJoin join = .ok () ↔
      Identifier.requireTable join.table = .ok () ∧ Identifier.check join.onColumn = .ok () ∧
        (∀ name, join.localColumn = some name → Identifier.check name = .ok ()) ∧
        ∀ c ∈ join.columns, checkColumn c = .ok () := by
  unfold checkJoin
  simp only [seq_eq_ok, Identifier.require_eq_ok, forM_eq_ok]
  cases hl : join.localColumn with
  | none => simp [Option.forM, pure, Except.pure]
  | some name => simp [Option.forM, Identifier.require_eq_ok]

theorem checkField_eq_ok {f : Field} :
    checkField f = .ok () ↔
      Identifier.check f.name = .ok () ∧ Identifier.check f.columnName = .ok () ∧
        ∀ join, f.join = some join → checkJoin join = .ok () := by
  unfold checkField
  simp only [seq_eq_ok, Identifier.require_eq_ok]
  cases hj : f.join with
  | none => simp [Option.forM, pure, Except.pure]
  | some join => simp [Option.forM]

/-- An entity passes with a table name, at most one key, checked fields and distinct results. -/
theorem check_eq_ok :
    e.check = .ok () ↔
      Text.trim e.table.toList ≠ [] ∧ Identifier.requireTable e.table = .ok () ∧
        e.fields.countP Field.isKey ≤ 1 ∧ (∀ f ∈ e.fields, checkField f = .ok ()) ∧
        repeatedName? [] e.exposedNames = none := by
  unfold check
  by_cases ht : Text.trim e.table.toList = []
  · simp [ht, bind_eq_ok]
  by_cases hk : 1 < e.fields.countP Field.isKey
  · simp [ht, hk, Nat.not_le.2 hk, bind_eq_ok]
  simp only [ht, hk, if_false, seq_eq_ok, forM_eq_ok]
  cases hr : repeatedName? [] e.exposedNames with
  | none => simp [ht, Nat.le_of_not_lt hk]
  | some name => simp

theorem check_join_of_check {t : JoinedTable} (hc : e.check = .ok ()) (ht : t ∈ e.joinedTables) :
    checkJoin t.join = .ok () := by
  obtain ⟨hf, hj⟩ := mem_fields_of_mem_joinedTables ht
  exact (checkField_eq_ok.1 ((check_eq_ok.1 hc).2.2.2.1 _ hf)).2.2 _ hj

/-- **Every declared name of a checked entity is an identifier.** -/
theorem Declares.check {name : String} (hc : e.check = .ok ()) (h : e.Declares name) :
    Identifier.check name = .ok () := by
  have hfields := (check_eq_ok.1 hc).2.2.2.1
  cases h with
  | tablePart hp => exact (Identifier.requireTable_eq_ok.1 (check_eq_ok.1 hc).2.1).2 _ hp
  | field hf => exact (checkField_eq_ok.1 (hfields _ hf)).1
  | column hf => exact (checkField_eq_ok.1 (hfields _ hf)).2.1
  | joinedPart ht hp =>
    have hj := checkJoin_eq_ok.1 (check_join_of_check hc ht)
    exact (Identifier.requireTable_eq_ok.1 hj.1).2 _ hp
  | onColumn ht => exact (checkJoin_eq_ok.1 (check_join_of_check hc ht)).2.1
  | pulled ht hcol =>
    have hj := checkJoin_eq_ok.1 (check_join_of_check hc ht)
    exact (checkColumn_eq_ok.1 (hj.2.2.2 _ hcol)).1
  | pulledAlias ht hcol hl =>
    have hj := checkJoin_eq_ok.1 (check_join_of_check hc ht)
    exact (checkColumn_eq_ok.1 (hj.2.2.2 _ hcol)).2 _ hl

/-! ## Names are looked up among the declared ones -/

theorem findJoined?_reaches {tables : List JoinedTable} {accept : JoinColumn → Bool}
    {target : Target} (hs : ∀ t ∈ tables, t ∈ e.joinedTables)
    (h : findJoined? tables accept = some target) :
    ∃ t ∈ e.joinedTables, ∃ c ∈ t.join.columns, accept c = true ∧ target = .joined t.index c := by
  obtain ⟨t, ht, hm⟩ := List.exists_of_findSome?_eq_some h
  obtain ⟨c, hc, rfl⟩ := Option.map_eq_some_iff.1 hm
  exact ⟨t, hs t ht, c, List.mem_of_find?_eq_some hc, List.find?_some hc, rfl⟩

/-- What a name stands for is a pulled column of that name or alias, or the field of that name. -/
theorem resolveWithin?_cases {tables : List JoinedTable} {name : String} {target : Target}
    (hs : ∀ t ∈ tables, t ∈ e.joinedTables) (h : e.resolveWithin? tables name = some target) :
    (∃ t ∈ e.joinedTables, ∃ c ∈ t.join.columns,
      (c.source = name ∨ c.label = some name) ∧ target = .joined t.index c) ∨
    ∃ f ∈ e.fields, f.name = name ∧ target = .field f := by
  -- a pulled column goes by its own name, then one by its alias, and a field comes last
  unfold resolveWithin? at h
  rcases Option.or_eq_some_iff.1 h with h | ⟨_, h⟩
  · obtain ⟨t, ht, c, hc, ha, rfl⟩ := findJoined?_reaches hs h
    simp only [Bool.and_eq_true, decide_eq_true_eq] at ha
    exact .inl ⟨t, ht, c, hc, .inl ha.2, rfl⟩
  rcases Option.or_eq_some_iff.1 h with h | ⟨_, h⟩
  · obtain ⟨t, ht, c, hc, ha, rfl⟩ := findJoined?_reaches hs h
    exact .inl ⟨t, ht, c, hc, .inr (by simpa using ha), rfl⟩
  · obtain ⟨f, hf, rfl⟩ := Option.map_eq_some_iff.1 h
    exact .inr ⟨f, List.mem_of_find?_eq_some hf, by simpa using List.find?_some hf, rfl⟩

theorem reaches_of_resolveWithin? {tables : List JoinedTable} {name : String} {target : Target}
    (hs : ∀ t ∈ tables, t ∈ e.joinedTables) (h : e.resolveWithin? tables name = some target) :
    e.Reaches target := by
  rcases resolveWithin?_cases hs h with ⟨t, ht, c, hc, _, rfl⟩ | ⟨f, hf, _, rfl⟩
  · exact .joined ht hc
  · exact .field hf

theorem reaches_of_resolve? {name : String} {target : Target} (h : e.resolve? name = some target) :
    e.Reaches target :=
  reaches_of_resolveWithin? (fun _ ht => ht) h

/-- A name that stands for something is itself declared. -/
theorem declares_of_resolve? {name : String} {target : Target}
    (h : e.resolve? name = some target) : e.Declares name := by
  rcases resolveWithin?_cases (fun _ ht => ht) h with ⟨t, ht, c, hc, hn, _⟩ | ⟨f, hf, rfl, _⟩
  · rcases hn with rfl | hl
    · exact .pulled ht hc
    · exact .pulledAlias ht hc hl
  · exact .field hf

theorem reaches_of_joinSource {t : JoinedTable} {target : Target} (ht : t ∈ e.joinedTables)
    (h : e.joinSource t = .ok target) : e.Reaches target := by
  rcases joinSource_eq_ok.1 h with ⟨_, rfl⟩ | ⟨name, _, hr⟩
  · exact .field (mem_fields_of_mem_joinedTables ht).1
  · exact reaches_of_resolveWithin? (fun _ hm => List.mem_of_mem_take hm) hr

theorem mem_fields_of_key? {key : Field} (h : e.key? = some key) : key ∈ e.fields :=
  List.mem_of_find?_eq_some h

end Entity

/-! ## Names an aggregation makes up -/

namespace Aggregation

/-- The names of result columns that no entity declares: the mark of a rollup and the aliases of
the functions. -/
def madeUp (a : Aggregation) : List String :=
  (a.rollup.map Builder.groupingName).toList ++ a.resolvedAliases

/-- Every alias is the label that was asked for, or that label with a number. -/
theorem giveAll_forall₂ (state : AliasState) (labels : List String) :
    List.Forall₂ (fun label name => name = label ∨ ∃ k, name = numbered label k) labels
      (giveAll state labels) := by
  induction labels generalizing state with
  | nil => exact .nil
  | cons label rest ih =>
    have hgive : (state.give label).1 = label ∨ ∃ k, (state.give label).1 = numbered label k := by
      -- the number depends on what was given before, and the rest does not
      unfold AliasState.give
      split
      · exact .inr ⟨_, rfl⟩
      · exact .inl rfl
    exact .cons hgive (ih _)

theorem resolvedAliases_forall₂ (a : Aggregation) :
    List.Forall₂ (fun c name => name = AggregateColumn.aliasOrDefault c ∨
      ∃ k, name = numbered c.aliasOrDefault k) a.columns a.resolvedAliases :=
  List.forall₂_map_left_iff.1 (giveAll_forall₂ _ _)

/-- The rollup of an aggregate names a column of its entity. -/
theorem declares_rollup {b : Builder} {a : Aggregation} {source : AggregateSource} {sql : Sql}
    {name : String} (h : b.aggregateBody e a source = .ok sql) (hr : a.rollup = some name) :
    e.Declares name := by
  obtain ⟨_, _, _, _, hroll, _⟩ := Builder.aggregateBody_eq_ok.1 h
  rw [hr] at hroll
  rcases Builder.rollupItems_eq_ok.1 hroll with ⟨hn, _⟩ | ⟨name', hn, target, ht, _⟩
  · exact absurd hn (by simp)
  · rw [Option.some.inj hn]
    exact Entity.declares_of_resolve? ht

end Aggregation

/-- The aliases that a request gives its functions. -/
def Request.functionAliases : Request → List String
  | .aggregate _ a _ => a.columns.filterMap AggregateColumn.label
  | _ => []

/-- The names that a request makes up for its result. -/
def Request.madeUp : Request → List String
  | .aggregate _ a _ => a.madeUp
  | _ => []

end RecordSql
