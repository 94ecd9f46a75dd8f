import RecordSql.Proofs.Grouping
import RecordSql.Proofs.Suffixes

/-!
# The names of aggregate columns

The columns of an aggregate get their names in three ways that do not look at one another. A group
is called like the column that it reads; the mark of a rollup like the rollup, with a word behind
it; and a function by its alias.

Aliases are kept apart from each other, letter by letter. A database makes no difference between
letters of different case, so what remains is a list of ways in which two columns get one name:

* two groups read columns of one name, such as a group that is listed twice;
* a group reads a column that is called like the mark;
* an alias is the name of a group or of the mark;
* two aliases differ, but only in letter case.

There is no other way, so without a clash the columns can be told apart.
-/

namespace RecordSql

open Checked Text

variable {a : Aggregation} {targets : List Target}

namespace Aggregation

/-- The names of the columns: the groups, the mark of the rollup, and the functions. -/
def columnNames (a : Aggregation) (targets : List Target) : List String :=
  targets.map Target.columnName ++ (a.rollup.map Builder.groupingName).toList ++ a.resolvedAliases

/-- A way in which two columns get one name, letter case apart. -/
inductive Clash (a : Aggregation) (targets : List Target) : Prop where
  | groups {i j : Nat} {target target' : Target} : i < j → targets[i]? = some target →
      targets[j]? = some target' →
      lowerCase target.columnName = lowerCase target'.columnName → Clash a targets
  | mark {name : String} {target : Target} : a.rollup = some name → target ∈ targets →
      lowerCase target.columnName = lowerCase (Builder.groupingName name) → Clash a targets
  | groupAlias {label : String} {target : Target} : target ∈ targets → label ∈ a.resolvedAliases →
      lowerCase target.columnName = lowerCase label → Clash a targets
  | markAlias {name label : String} : a.rollup = some name → label ∈ a.resolvedAliases →
      lowerCase (Builder.groupingName name) = lowerCase label → Clash a targets
  | aliases {label label' : String} : label ∈ a.resolvedAliases → label' ∈ a.resolvedAliases →
      label ≠ label' → lowerCase label = lowerCase label' → Clash a targets

/-- The names in lower case, one by one. -/
theorem mem_foldedGroups {x : String} :
    x ∈ (targets.map Target.columnName).map lowerCase ↔
      ∃ target ∈ targets, lowerCase target.columnName = x := by
  rw [List.map_map, List.mem_map]
  rfl

theorem mem_foldedMark {x : String} :
    x ∈ (a.rollup.map Builder.groupingName).toList.map lowerCase ↔
      ∃ name, a.rollup = some name ∧ lowerCase (Builder.groupingName name) = x := by
  cases a.rollup with
  | none => simp
  | some name => simp [eq_comm]

theorem nodup_foldedGroups : ((targets.map Target.columnName).map lowerCase).Nodup ↔
    ∀ (i j : Nat) (target target' : Target), i < j → targets[i]? = some target →
      targets[j]? = some target' → lowerCase target.columnName ≠ lowerCase target'.columnName := by
  rw [List.nodup_iff_getElem?_ne_getElem?, List.map_map]
  constructor
  · intro h i j target target' hij hi hj he
    refine h i j hij ?_ ?_
    · rw [List.length_map]
      exact (List.getElem?_eq_some_iff.1 hj).1
    · rw [List.getElem?_map, List.getElem?_map, hi, hj]
      exact congrArg some he
  · intro h i j hij hj he
    rw [List.length_map] at hj
    have hi : i < targets.length := by omega
    rw [List.getElem?_map, List.getElem?_map, List.getElem?_eq_getElem hi,
      List.getElem?_eq_getElem hj] at he
    exact h i j _ _ hij (List.getElem?_eq_getElem hi) (List.getElem?_eq_getElem hj)
      (Option.some.inj he)

/-- **Two columns get one name in no other way.** -/
theorem nodup_columnNames_iff :
    ((a.columnNames targets).map lowerCase).Nodup ↔ ¬ a.Clash targets := by
  have hnodup : a.resolvedAliases.Nodup := (searches_giveAll ⟨[], []⟩ _).numbering.nodup
  have hmark : ((a.rollup.map Builder.groupingName).toList.map lowerCase).Nodup := by
    cases a.rollup with
    | none => exact List.nodup_nil
    | some name => exact List.nodup_singleton _
  unfold columnNames
  rw [List.map_append, List.map_append, List.nodup_append, List.nodup_append,
    List.nodup_map_iff_inj_on hnodup, nodup_foldedGroups]
  constructor
  · intro ⟨⟨hgroups, _, hmarks⟩, haliases, hapart⟩ hclash
    cases hclash with
    | groups hij hi hj he => exact hgroups _ _ _ _ hij hi hj he
    | mark hname ht he =>
      exact hmarks _ (mem_foldedGroups.2 ⟨_, ht, he⟩) _ (mem_foldedMark.2 ⟨_, hname, rfl⟩) rfl
    | groupAlias ht hlabel he =>
      exact hapart _ (List.mem_append_left _ (mem_foldedGroups.2 ⟨_, ht, he⟩)) _
        (List.mem_map_of_mem hlabel) rfl
    | markAlias hname hlabel he =>
      exact hapart _ (List.mem_append_right _ (mem_foldedMark.2 ⟨_, hname, he⟩)) _
        (List.mem_map_of_mem hlabel) rfl
    | aliases hlabel hlabel' hne he => exact hne (haliases _ hlabel _ hlabel' he)
  · intro hclash
    refine ⟨⟨?_, hmark, ?_⟩, ?_, ?_⟩
    · intro i j target target' hij hi hj he
      exact hclash (.groups hij hi hj he)
    · intro x hx y hy he
      obtain ⟨target, ht, rfl⟩ := mem_foldedGroups.1 hx
      obtain ⟨name, hname, rfl⟩ := mem_foldedMark.1 hy
      exact hclash (.mark hname ht he)
    · intro label hlabel label' hlabel' he
      by_contra hne
      exact hclash (.aliases hlabel hlabel' hne he)
    · intro x hx y hy he
      obtain ⟨label, hlabel, rfl⟩ := List.mem_map.1 hy
      rcases List.mem_append.1 hx with hx | hx
      · obtain ⟨target, ht, rfl⟩ := mem_foldedGroups.1 hx
        exact hclash (.groupAlias ht hlabel he)
      · obtain ⟨name, hname, rfl⟩ := mem_foldedMark.1 hx
        exact hclash (.markAlias hname hlabel he)

end Aggregation

namespace Builder

variable {b : Builder} {e : Entity} {source : AggregateSource} {s : Statement}
  {reads : List (Option Target)} {q : GroupedSelect}

theorem Groups.names (h : b.Groups e a targets reads q) :
    q.columns.map Prod.snd = a.columnNames targets := by
  obtain ⟨marks, hmarks, hcolumns⟩ := h.columns
  have hmark : marks.map Prod.snd = (a.rollup.map groupingName).toList := by
    generalize a.rollup = rollup at hmarks
    cases hmarks with
    | none => rfl
    | some _ _ => rfl
  have hlength : a.resolvedAliases.length ≤ (b.callTexts a reads).length := by
    rw [callTexts, List.length_map, List.length_zip, ← h.read.length_eq, Nat.min_self,
      a.resolvedAliases_forall₂.length_eq]
  rw [hcolumns, groupedColumns, List.map_append, List.map_append, List.map_map, hmark,
    List.map_snd_zip hlength]
  rfl

theorem columns_ne_nil (h : b.aggregate e a source = .ok s)
    (hgroups : b.Groups e a targets reads q) : q.columns ≠ [] := by
  obtain ⟨_, _, hbody, _⟩ := build_eq_ok.1 h
  have hsome := (aggregateBody_eq_ok.1 hbody).1
  intro hnil
  have hnames := hgroups.names
  rw [hnil, List.map_nil, eq_comm, Aggregation.columnNames, List.append_eq_nil_iff,
    List.append_eq_nil_iff, List.map_eq_nil_iff] at hnames
  obtain ⟨⟨htargets, hmark⟩, haliases⟩ := hnames
  have hresolved := hgroups.resolved
  rw [htargets, List.forall₂_nil_right_iff, List.append_eq_nil_iff] at hresolved
  have hrollup : a.rollup = none := by
    cases hr : a.rollup with
    | none => rfl
    | some name => exact absurd hmark (by simp [hr])
  have hcolumns : a.columns = [] := by
    rw [← List.length_eq_zero_iff, a.resolvedAliases_forall₂.length_eq, haliases, List.length_nil]
  exact absurd hsome (by simp [hresolved.1, hrollup, hcolumns])

/-! ## Reading the columns -/

theorem isItem_operandText {target : Target} (h : Identifier.check target.columnName = .ok ()) :
    IsItem (b.operandText target).toList := by
  cases target with
  | joined index c => exact Style.isItem_qualified _ h
  | field f =>
    have hcolumn : IsItem (b.style.qualified .root f.columnName).toList :=
      Style.isItem_qualified _ h
    rw [operandText]
    split
    · exact Dialect.isItem_decryptText hcolumn
    · exact hcolumn

/-- An expression in the parentheses of a function. -/
theorem isItem_called {opening expression : String}
    (hs : opening.toList ≠ [] ∧ opening.toList.head? ≠ some ' ')
    (ho : depthAfter? 0 opening.toList = some 1) (h : Whole expression.toList) :
    IsItem (opening ++ expression ++ ")").toList := by
  rw [String.toList_append, String.toList_append]
  exact isItem_wrapped hs ho (h.inside 1) (by decide)

theorem isItem_callText (f : AggregateFunction) {read : Option Target}
    (h : ∀ target, read = some target → Identifier.check target.columnName = .ok ()) :
    IsItem (b.callText f read).toList := by
  cases read with
  | none =>
    have hrows : IsItem ("COUNT(" ++ "*" ++ ")").toList :=
      isItem_called (by decide) (by decide) (by decide)
    exact hrows
  | some target =>
    have htarget : IsItem (b.operandText target).toList := isItem_operandText (h target rfl)
    cases f with
    | _ => exact isItem_called (by decide) (by decide) htarget.whole

/-- What a column shows is one item of the list. -/
theorem Groups.isItem (he : e.check = .ok ()) (h : b.Groups e a targets reads q)
    {column : String × String} (hm : column ∈ q.columns) : IsItem column.1.toList := by
  have hterm : ∀ term ∈ q.terms, IsItem term.toList := by
    rw [h.terms]
    refine List.forall_mem_map.2 fun target ht => ?_
    obtain ⟨name, _, hr⟩ := exists_left_of_forall₂ h.resolved ht
    exact isItem_operandText ((Entity.reaches_of_resolve? hr).declares.check he)
  have hexpression := h.shown hm
  generalize column.1 = expression at hexpression
  cases hexpression with
  | term ht => exact hterm _ ht
  | mark ht => exact isItem_called (by decide) (by decide) (hterm _ ht).whole
  | call hc =>
    obtain ⟨⟨c, read⟩, hp, rfl⟩ := List.mem_map.1 hc
    have hread := (List.forall₂_iff_zip.1 h.read).2 hp
    refine isItem_callText c.function fun target htarget => ?_
    cases hread with
    | rows _ _ => exact absurd htarget (by simp)
    | field _ hr =>
      obtain rfl := Option.some.inj htarget
      exact (Entity.reaches_of_resolve? hr).declares.check he

/-- A column as a reader of the list finds it. -/
def readColumn (column : String × String) : ShownColumn := ⟨column.1, some column.2⟩

/-- The list is read as its columns, if their names can be read. -/
theorem Groups.readList (he : e.check = .ok ()) (h : b.Groups e a targets reads q)
    (hne : q.columns ≠ []) (hn : ∀ name ∈ a.columnNames targets, Identifier.check name = .ok ()) :
    b.dialect.readList (columnsText b.style q.columns) = q.columns.map readColumn := by
  have hname : ∀ column ∈ q.columns, Identifier.check column.2 = .ok () := fun column hm =>
    hn _ (h.names ▸ List.mem_map_of_mem hm)
  have hitems : ∀ item ∈ (q.columns.map (columnText b.style)).map String.toList, IsItem item :=
    List.forall_mem_map.2 (List.forall_mem_map.2 fun column hm =>
      Style.isItem_labelled (h.isItem he hm) (hname column hm))
  have hlist : listItems (columnsText b.style q.columns).toList =
      (q.columns.map (columnText b.style)).map String.toList := by
    rw [columnsText, String.toList_intercalate]
    refine listItems_intercalate ?_ hitems
    rwa [ne_eq, List.map_eq_nil_iff, List.map_eq_nil_iff]
  rw [Dialect.readList, hlist, List.map_map, List.map_map]
  exact List.map_congr_left fun column hm => Style.readItem_labelled (hname column hm) _

/-- **The columns of an aggregate have different names, but for a clash.** They are called like the
columns of the groups, the mark of the rollup and the resolved aliases, and where these are names
they are read back from the list. Two of them are the same, letter case apart, in no other way than
by a clash. -/
theorem aggregate_columns (h : b.aggregate e a source = .ok s) :
    ∃ targets reads q, b.Groups e a targets reads q ∧ b.Aggregates e source s q ∧
      q.columns.map Prod.snd = a.columnNames targets ∧
      (((a.columnNames targets).map lowerCase).Nodup ↔ ¬ a.Clash targets) ∧
      ((∀ name ∈ a.columnNames targets, Identifier.check name = .ok ()) →
        b.dialect.readList (columnsText b.style q.columns) = q.columns.map readColumn ∧
          (ShownColumn.Distinct (q.columns.map readColumn) ↔ ¬ a.Clash targets)) := by
  obtain ⟨he, _⟩ := build_eq_ok.1 h
  obtain ⟨targets, reads, q, hgroups, haggregates⟩ := exists_groups h
  have hdistinct : ShownColumn.Distinct (q.columns.map readColumn) ↔ ¬ a.Clash targets := by
    rw [← Aggregation.nodup_columnNames_iff, ← hgroups.names]
    refine ShownColumn.distinct_iff ?_
    rw [List.map_map, List.map_map]
    rfl
  exact ⟨targets, reads, q, hgroups, haggregates, hgroups.names, Aggregation.nodup_columnNames_iff,
    fun hn => ⟨hgroups.readList he (columns_ne_nil h hgroups) hn, hdistinct⟩⟩

/-- The names of what visits are grouped by, and of what is counted. -/
theorem aggregate_columns_visits :
    ∃ s, visitBuilder.aggregate visits visitCounts (.example .and) = .ok s ∧
      ∃ targets reads q, visitBuilder.Groups visits visitCounts targets reads q ∧
        visitBuilder.Aggregates visits (.example .and) s q ∧
        q.columns.map Prod.snd = ["doctor_id", "Name", "DoctorNameGrouping", "Aggregate", "Last"] ∧
        ¬ visitCounts.Clash targets := by
  obtain ⟨s, hs⟩ : ∃ s, visitBuilder.aggregate visits visitCounts (.example .and) = .ok s :=
    ⟨_, rfl⟩
  obtain ⟨targets, reads, q, hgroups, haggregates, hnames, hdistinct, _⟩ := aggregate_columns hs
  have hall : visitCounts.columnNames targets =
      ["doctor_id", "Name", "DoctorNameGrouping", "Aggregate", "Last"] := by
    rw [Aggregation.columnNames, ← hgroups.filterMap_groupNames]
    decide +kernel
  refine ⟨s, hs, targets, reads, q, hgroups, haggregates, hnames.trans hall, hdistinct.1 ?_⟩
  rw [hall]
  decide

/-- Sales by region. -/
def regions : Entity :=
  ⟨"Sales", [{ Field.new "Id" .integer with isKey := true }, .new "Region" .text], .empty⟩

/-- The sales of each region, their number called like the group. -/
def regionCounts : Aggregation := ⟨["Region"], none, [⟨.count, none, some "Region", none, none⟩]⟩

/-- **An alias can repeat the name of a group**, and gets no number for it. -/
theorem aggregate_repeats_group :
    ∃ s, default.aggregate regions regionCounts (.example .and) = .ok s ∧
      ∃ list, s.text = "SELECT " ++ list ++ " FROM Sales t0 GROUP BY t0.Region" ∧
        Dialect.sqlServer.readList list =
          [⟨"t0.Region", some "Region"⟩, ⟨"COUNT(*)", some "Region"⟩] ∧
        ¬ ShownColumn.Distinct (Dialect.sqlServer.readList list) := by
  have hread : Dialect.sqlServer.readList "t0.Region AS Region, COUNT(*) AS Region" =
      [⟨"t0.Region", some "Region"⟩, ⟨"COUNT(*)", some "Region"⟩] := by decide +kernel
  refine ⟨_, rfl, _, ?_, hread, ?_⟩
  · decide +kernel
  · rw [hread]
    decide

end Builder

end RecordSql
