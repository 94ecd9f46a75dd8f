import RecordSql.Proofs.ResultColumns

/-!
# Aggregates and their groups

A database takes an aggregate only if every column of its result is one of the expressions that the
rows are grouped by, the mark of one of them, or the result of a function. It compares expressions
by their text, and the builder writes each of them several times: a group in the result and again
in the grouping, the rollup once more for its mark, and a call in the result and again in its
condition.

All of these agree, because the text of an expression depends on what its name stands for and on
nothing else.

* The rows are grouped by what the names stand for, in order. The rollup comes behind them unless it
  is one of them, so what it stands for is always among the groups.
* A call reads what its field stands for. Only a count does without a field.
* A condition on a function starts with its call. The value behind it is a parameter, numbered on
  from those of the conditions on rows, in the type that the function has.
-/

namespace RecordSql

open Checked

/-! ## What names stand for -/

/-- What a function reads: rows, which only a count does, or what its field stands for. -/
inductive AggregateColumn.Reads (e : Entity) (c : AggregateColumn) : Option Target → Prop where
  | rows : c.field = none → c.function = .count → Reads e c none
  | field {name : String} {target : Target} : c.field = some name →
      e.resolve? name = some target → Reads e c (some target)

/-- Whether a condition on the result of a function is asked for. -/
def AggregateColumn.hasCondition (c : AggregateColumn) : Bool :=
  c.havingOperator.isSome && c.havingValue.any fun json => !json.isNull

/-- The call of a function on an expression, as databases have it. -/
def AggregateFunction.called (f : AggregateFunction) (expression : String) : String :=
  match f with
  | .count => "COUNT(" ++ expression ++ ")"
  | .countDistinct => "COUNT(DISTINCT " ++ expression ++ ")"
  | .sum => "SUM(" ++ expression ++ ")"
  | .avg => "AVG(" ++ expression ++ ")"
  | .min => "MIN(" ++ expression ++ ")"
  | .max => "MAX(" ++ expression ++ ")"

/-- How an operator is printed: as it is asked for, and the two that ask for unequal values as one
of them. -/
inductive Comparison.Prints : (asked printed : String) → Prop where
  | equal : Prints "=" "="
  | notEqual : Prints "!=" "<>"
  | unequal : Prints "<>" "<>"
  | greater : Prints ">" ">"
  | greaterOrEqual : Prints ">=" ">="
  | less : Prints "<" "<"
  | lessOrEqual : Prints "<=" "<="

/-- The type that the result of a function is compared in. -/
inductive AggregateFunction.ComparedAs : AggregateFunction → Option Target → DataType → Prop where
  | count {read : Option Target} : ComparedAs .count read .integer
  | countDistinct {read : Option Target} : ComparedAs .countDistinct read .integer
  | sum {target : Target} : ComparedAs .sum (some target) target.dataType
  | avg {read : Option Target} : ComparedAs .avg read .decimal
  | min {target : Target} : ComparedAs .min (some target) target.dataType
  | max {target : Target} : ComparedAs .max (some target) target.dataType

namespace Builder

/-- A column as groups and functions read it: in clear if it is encrypted, and else as it is. -/
def operandText (b : Builder) : Target → String
  | .field f =>
    if f.dataType = .encrypted then
      Dialect.decryptText (b.style.qualified .root f.columnName)
    else b.style.qualified .root f.columnName
  | .joined index c => b.style.qualified (.join index) c.source

/-- The call of a function on what it reads. -/
def callText (b : Builder) (f : AggregateFunction) : Option Target → String
  | none => "COUNT(*)"
  | some target => f.called (b.operandText target)

/-- The calls of an aggregation, in the order of its functions. -/
def callTexts (b : Builder) (a : Aggregation) (reads : List (Option Target)) : List String :=
  (a.columns.zip reads).map fun (c, read) => b.callText c.function read

end Builder

/-! ## The parts of an aggregate -/

/-- A condition on the result of a function: the call, the operator, and what it is compared
with. -/
structure CallCondition where
  call : String
  operator : String
  value : Value
  dataType : DataType

namespace CallCondition

/-- The condition as text, its value being the parameter of a number. -/
def text (style : Style) (n : Nat) (c : CallCondition) : String :=
  c.call ++ " " ++ c.operator ++ " " ++ style.dialect.placeholder (parameterName n)

/-- What the condition binds. -/
def binding (c : CallCondition) : Binding := .input c.value c.dataType

end CallCondition

/-- A column of a result as an item: what it shows, and how it is called. -/
def columnText (style : Style) (column : String × String) : String :=
  column.1 ++ " AS " ++ style.identifier column.2

/-- A select list of columns. -/
def columnsText (style : Style) (columns : List (String × String)) : String :=
  ", ".intercalate (columns.map (columnText style))

/-- A grouping, which is missing when there is nothing to group by. -/
def groupingText (rollup : Bool) (terms : List String) : String :=
  if terms = [] then ""
  else if rollup then " GROUP BY ROLLUP(" ++ ", ".intercalate terms ++ ")"
  else " GROUP BY " ++ ", ".intercalate terms

/-- Conditions on functions behind a number of parameters, which are missing when there is none. -/
def conditionsText (style : Style) (n : Nat) (conditions : List CallCondition) : String :=
  if conditions = [] then ""
  else " HAVING " ++ " AND ".intercalate ((conditions.zipIdx n).map fun (c, i) => c.text style i)

/-- An aggregate in parts. -/
structure GroupedSelect where
  /-- What the columns of the result show, and how they are called. -/
  columns : List (String × String)
  /-- The table with its joins. -/
  rows : String
  /-- The clause on rows, or nothing. -/
  clause : String
  /-- The number of parameters in the clause. -/
  bound : Nat
  /-- The expressions that the rows are grouped by. -/
  terms : List String
  /-- Whether there are rows for parts of the groups as well. -/
  rollup : Bool
  /-- The conditions on functions. -/
  conditions : List CallCondition

namespace GroupedSelect

/-- The aggregate as text. -/
def text (q : GroupedSelect) (style : Style) : String :=
  wholeText (columnsText style q.columns) q.rows q.clause
    (groupingText q.rollup q.terms ++ conditionsText style q.bound q.conditions)

/-- The parameters of the conditions on functions. -/
def parameters (q : GroupedSelect) : List Parameter :=
  (q.conditions.zipIdx q.bound).map fun (c, n) => ⟨c.binding, parameterName n⟩

end GroupedSelect

namespace Builder

variable {b : Builder} {e : Entity} {a : Aggregation} {source : AggregateSource} {s : Statement}
  {targets : List Target}

/-- The columns that mark the rows of a rollup: one, if there is a rollup, and it is one of the
groups. -/
inductive Marks (b : Builder) (e : Entity) (targets : List Target) :
    Option String → List (String × String) → Prop where
  | none : Marks b e targets none []
  | some {name : String} {target : Target} : e.resolve? name = some target → target ∈ targets →
      Marks b e targets (some name)
        [("GROUPING(" ++ b.operandText target ++ ")", groupingName name)]

/-- The columns of an aggregate: one for each group, the mark of the rollup, and one for each
call under its alias. -/
def groupedColumns (b : Builder) (a : Aggregation) (targets : List Target)
    (marks : List (String × String)) (reads : List (Option Target)) : List (String × String) :=
  targets.map (fun target => (b.operandText target, target.columnName)) ++ marks ++
    (b.callTexts a reads).zip a.resolvedAliases

/-- What a function demands of its result. -/
structure Demands (b : Builder) (c : AggregateColumn) (read : Option Target)
    (condition : CallCondition) : Prop where
  call : condition.call = b.callText c.function read
  dataType : c.function.ComparedAs read condition.dataType
  asked : ∃ operator json, c.havingOperator = some operator ∧ c.havingValue = some json ∧
    json.isNull = false ∧ Comparison.Prints (Text.strip operator) condition.operator ∧
      Value.coerce json condition.dataType = .ok condition.value

/-- The parts of an aggregate of an entity. -/
structure Groups (b : Builder) (e : Entity) (a : Aggregation) (targets : List Target)
    (reads : List (Option Target)) (q : GroupedSelect) : Prop where
  /-- The groups are what the names stand for, with the rollup behind them unless it is listed. -/
  resolved : List.Forall₂ (fun name target => e.resolve? name = some target)
    (a.groupBy ++ a.rollup.toList.filter (· ∉ a.groupBy)) targets
  terms : q.terms = targets.map b.operandText
  rollup : q.rollup = a.rollup.isSome
  read : List.Forall₂ (AggregateColumn.Reads e) a.columns reads
  columns : ∃ marks, b.Marks e targets a.rollup marks ∧
    q.columns = b.groupedColumns a targets marks reads
  /-- Each function with an operator and a value has its condition, in order. -/
  conditions : List.Forall₂ (fun p condition => b.Demands p.1 p.2 condition)
    ((a.columns.zip reads).filter fun p => p.1.hasCondition) q.conditions

/-- A statement is this aggregate over a source, inside its key. -/
structure Aggregates (b : Builder) (e : Entity) (source : AggregateSource) (s : Statement)
    (q : GroupedSelect) : Prop where
  text : b.Encloses s (q.text b.style)
  rows : ∃ rows, fromClause e = .ok rows ∧ q.rows = rows.write b.style
  clause : ∃ clause, b.sourceClause e source = .ok clause ∧
    q.clause = (Sql.whereSuffix clause).write b.style ∧
      q.bound = (Sql.whereSuffix clause).parameters.length ∧
        s.parameters = (Sql.whereSuffix clause).parameters ++ q.parameters

/-! ## Columns -/

theorem write_operand {target : Target} {operand : Sql} (h : b.operand target = .ok operand) :
    operand.write b.style = b.operandText target := by
  cases target with
  | joined index c =>
    obtain rfl := Except.ok.inj h
    exact Sql.write_column _ _
  | field f =>
    rw [operandText]
    rcases readField_eq_ok.1 h with ⟨hplain, rfl⟩ | ⟨hencrypted, _, _, rfl⟩
    · rw [if_neg hplain]
      exact Sql.write_column _ _
    · rw [if_pos hencrypted]
      exact Sql.write_around rfl _ _ _

/-- An item is this column of the result. -/
structure ItemOf (b : Builder) (item : Item) (column : String × String) : Prop where
  unbound : item.sql.bindings = []
  text : item.sql.write b.style = columnText b.style column

theorem itemOf_labelled {value : Sql} (h : value.bindings = []) (name : String) :
    b.ItemOf (.labelled value name) (value.write b.style, name) where
  unbound := by
    rw [Item.sql, Sql.bindings_append, h]
    rfl
  text := Sql.write_as value name

theorem write_items {items : List Item} {columns : List (String × String)}
    (h : List.Forall₂ b.ItemOf items columns) :
    (Sql.items items).write b.style = columnsText b.style columns := by
  have hunbound : ∀ part ∈ items.map Item.sql, part.bindings = [] := by
    refine List.forall_mem_map.2 fun item hm => ?_
    obtain ⟨column, _, hitem⟩ := exists_right_of_forall₂ h hm
    exact hitem.unbound
  have htexts : items.map (fun item => item.sql.write b.style) =
      columns.map (columnText b.style) := by
    rw [← List.forall₂_eq_eq_eq, List.forall₂_map_left_iff, List.forall₂_map_right_iff]
    exact h.imp fun _ _ hitem => hitem.text
  rw [Sql.items, Sql.write_list hunbound, List.map_map, columnsText, ← htexts]
  rfl

/-! ## Groups -/

/-- The rollup is grouped by last, unless it is one of the groups already. -/
theorem groupNames_eq (a : Aggregation) :
    groupNames a = a.groupBy ++ a.rollup.toList.filter (· ∉ a.groupBy) := by
  unfold groupNames
  cases a.rollup with
  | none => exact (List.append_nil _).symm
  | some name => by_cases hm : name ∈ a.groupBy <;> simp [hm]

/-- A term of the grouping is what its name stands for. -/
structure TermOf (b : Builder) (term : Sql × Item) (target : Target) : Prop where
  unbound : term.1.bindings = []
  text : term.1.write b.style = b.operandText target
  item : b.ItemOf term.2 (b.operandText target, target.columnName)

theorem exists_termOf {name : String} {term : Sql × Item} (h : b.groupTerm e name = .ok term) :
    ∃ target, e.resolve? name = some target ∧ b.TermOf term target := by
  obtain ⟨target, ht, operand, ho, rfl⟩ := groupTerm_eq_ok.1 h
  have hunbound := bindings_operand ho
  have htext := write_operand ho
  exact ⟨target, ht, hunbound, htext, htext ▸ itemOf_labelled hunbound target.columnName⟩

theorem exists_targets {groups : List (Sql × Item)}
    (h : (groupNames a).mapM (b.groupTerm e) = .ok groups) :
    ∃ targets, List.Forall₂ (fun name target => e.resolve? name = some target) (groupNames a)
        targets ∧
      List.Forall₂ b.TermOf groups targets := by
  refine exists_between_of_forall₂ (fun name term hterm => ?_) (mapM_eq_ok.1 h)
  exact exists_termOf hterm

/-- What a rollup marks is one of the groups. -/
theorem exists_marks {items : List Item}
    (ht : List.Forall₂ (fun name target => e.resolve? name = some target) (groupNames a) targets)
    (h : b.rollupItems e a.rollup = .ok items) :
    ∃ marks, b.Marks e targets a.rollup marks ∧ List.Forall₂ b.ItemOf items marks := by
  rcases rollupItems_eq_ok.1 h with ⟨hnone, rfl⟩ | ⟨name, hname, target, hr, operand, ho, rfl⟩
  · exact ⟨[], hnone ▸ .none, .nil⟩
  · obtain ⟨target', hm, hr'⟩ := exists_right_of_forall₂ ht (Aggregation.mem_groupNames hname)
    obtain rfl := Option.some.inj (hr.symm.trans hr')
    have hunbound := bindings_operand ho
    have hitem := itemOf_labelled (b := b)
      ((Sql.bindings_wrapped operand "GROUPING(" ")").trans hunbound) (groupingName name)
    rw [Sql.write_wrapped, write_operand ho] at hitem
    exact ⟨_, hname ▸ .some hr hm, .cons hitem .nil⟩

theorem write_groupSuffix {groups : List (Sql × Item)} (h : List.Forall₂ b.TermOf groups targets)
    (rollup : Bool) : (groupSuffix rollup (groups.map Prod.fst)).write b.style =
      groupingText rollup (targets.map b.operandText) := by
  have hunbound : ∀ term ∈ groups.map Prod.fst, Sql.bindings term = [] := by
    refine List.forall_mem_map.2 fun term hm => ?_
    obtain ⟨target, _, hterm⟩ := exists_right_of_forall₂ h hm
    exact hterm.unbound
  have hterms : (groups.map Prod.fst).map (fun part => part.write b.style) =
      targets.map b.operandText := by
    rw [List.map_map, ← List.forall₂_eq_eq_eq, List.forall₂_map_left_iff,
      List.forall₂_map_right_iff]
    exact h.imp fun _ _ hterm => hterm.text
  rw [← hterms]
  unfold groupSuffix groupingText
  by_cases hempty : groups.map Prod.fst = []
  · rw [hempty]
    rfl
  · rw [if_neg (mt List.map_eq_nil_iff.1 hempty), if_neg (mt List.isEmpty_iff.1 hempty),
      ← Sql.write_list hunbound]
    cases rollup with
    | true => rw [if_pos rfl, if_pos rfl, Sql.write_wrapped]
    | false => rw [if_neg Bool.false_ne_true, if_neg Bool.false_ne_true, Sql.write_text]

/-! ## Calls -/

/-- A call reads what its function reads, and is written as its text. -/
structure CallOf (b : Builder) (e : Entity) (call : AggregateCall) : Prop where
  reads : call.column.Reads e call.target
  unbound : call.sql.bindings = []
  text : call.sql.write b.style = b.callText call.column.function call.target

theorem callOf_of_ok {c : AggregateColumn} {call : AggregateCall}
    (h : b.aggregateCall e c = .ok call) : c = call.column ∧ b.CallOf e call := by
  have hunbound := bindings_aggregateCall h
  rcases aggregateCall_eq_ok.1 h with ⟨hfield, hcount, rfl⟩ |
    ⟨name, hfield, target, hr, operand, ho, rfl⟩
  · exact ⟨rfl, .rows hfield hcount, hunbound, (Sql.write_text _).trans String.append_empty⟩
  · refine ⟨rfl, .field hfield hr, hunbound, ?_⟩
    rw [Sql.write_wrapped, write_operand ho]
    unfold callText
    cases c.function <;> rfl

section Calls

variable {calls : List AggregateCall} (h : a.columns.mapM (b.aggregateCall e) = .ok calls)
include h

theorem columns_eq : a.columns = calls.map AggregateCall.column := by
  rw [← List.forall₂_eq_eq_eq, List.forall₂_map_right_iff]
  exact (mapM_eq_ok.1 h).imp fun _ _ hcall => (callOf_of_ok hcall).1

theorem callOf_of_mem {call : AggregateCall} (hm : call ∈ calls) : b.CallOf e call := by
  obtain ⟨c, _, hcall⟩ := exists_of_mem_mapM h hm
  exact (callOf_of_ok hcall).2

theorem callTexts_eq : b.callTexts a (calls.map AggregateCall.target) =
    calls.map fun call => b.callText call.column.function call.target := by
  rw [callTexts, columns_eq h, List.zip_map', List.map_map]
  rfl

theorem callItems_itemOf : List.Forall₂ b.ItemOf (callItems a calls)
    ((b.callTexts a (calls.map AggregateCall.target)).zip a.resolvedAliases) := by
  rw [callItems, callTexts_eq h, List.zip_map_left, List.forall₂_map_left_iff,
    List.forall₂_map_right_iff, List.forall₂_same]
  intro p hm
  have hcall := callOf_of_mem h (List.of_mem_zip hm).1
  have hitem := itemOf_labelled (b := b) hcall.unbound p.2
  rwa [hcall.text] at hitem

end Calls

/-! ## Conditions on functions -/

/-- A part is this condition, with its value bound in it. -/
structure ConditionOf (b : Builder) (condition : CallCondition) (part : Sql) : Prop where
  bindings : part.bindings = [condition.binding]
  text : ∀ n, Sql.charsFrom b.style n part = (condition.text b.style n).toList

theorem comparedAs_havingType {call : AggregateCall} (h : call.column.Reads e call.target) :
    call.column.function.ComparedAs call.target (havingType call) := by
  obtain ⟨c, sql, read⟩ := call
  unfold havingType
  dsimp only at h ⊢
  cases h with
  | rows _ hcount =>
    rw [hcount]
    exact .count
  | field _ _ =>
    cases c.function with
    | count => exact .count
    | countDistinct => exact .countDistinct
    | sum => exact .sum
    | avg => exact .avg
    | min => exact .min
    | max => exact .max

/-- An operator that is taken is printed as the comparison that it stands for. -/
theorem prints_of_require {operator : String} {comparison : Comparison}
    (h : Comparison.require operator = .ok comparison) :
    Comparison.Prints (Text.strip operator) comparison.symbol := by
  have hparsed : Comparison.parse? operator = some comparison := by
    unfold Comparison.require at h
    cases hp : Comparison.parse? operator with
    | none => simp [hp] at h
    | some c => simpa [hp] using h
  obtain ⟨before, after, hsymbols, _⟩ := List.lookup_eq_some_iff.1 hparsed
  have hmem : (Text.strip operator, comparison) ∈ Comparison.symbols := by
    rw [hsymbols]
    exact List.mem_append_right _ List.mem_cons_self
  simp only [Comparison.symbols, List.mem_cons, Prod.mk.injEq, List.not_mem_nil, or_false] at hmem
  rcases hmem with
    ⟨hs, rfl⟩ | ⟨hs, rfl⟩ | ⟨hs, rfl⟩ | ⟨hs, rfl⟩ | ⟨hs, rfl⟩ | ⟨hs, rfl⟩ | ⟨hs, rfl⟩ <;>
    rw [hs]
  · exact .equal
  · exact .notEqual
  · exact .unequal
  · exact .greater
  · exact .greaterOrEqual
  · exact .less
  · exact .lessOrEqual

theorem hasCondition_eq (c : AggregateColumn) : c.hasCondition = c.having?.isSome := by
  unfold AggregateColumn.hasCondition AggregateColumn.having?
  cases c.havingOperator with
  | none => rfl
  | some operator =>
    cases c.havingValue with
    | none => rfl
    | some json => cases hnull : json.isNull <;> simp [Option.filter, hnull]

/-- The condition of a call starts with the call. -/
theorem exists_conditionOf {call : AggregateCall} {part : Sql} (hcall : b.CallOf e call)
    (h : havingCondition call = .ok (some part)) :
    call.column.hasCondition = true ∧ ∃ condition,
      b.Demands call.column call.target condition ∧ b.ConditionOf condition part := by
  obtain ⟨_, hnone⟩ | ⟨operator, json, hasked, comparison, hcomparison, value, hvalue, hpart⟩ :=
    havingCondition_eq_ok.1 h
  · exact absurd hnone (by simp)
  · obtain rfl := Option.some.inj hpart
    obtain ⟨ho, hv, hnull⟩ := of_having? hasked
    have hhas : call.column.hasCondition = true := by
      rw [hasCondition_eq, hasked]
      rfl
    refine ⟨hhas, ⟨b.callText call.column.function call.target, comparison.symbol, value,
      havingType call⟩, ⟨rfl, comparedAs_havingType hcall.reads, operator, json, ho, hv, hnull,
        prints_of_require hcomparison, hvalue⟩, ?_, fun n => ?_⟩
    · rw [Sql.bindings_append, hcall.unbound]
      rfl
    · rw [Sql.charsFrom_between, hcall.unbound, Sql.charsFrom_of_bindings_nil hcall.unbound,
        hcall.text]
      simp only [CallCondition.text, String.toList_append, List.append_assoc, Sql.charsFrom,
        List.append_nil]
      rfl

theorem exists_conditions {calls : List AggregateCall} {having : List (Option Sql)}
    (hcalls : ∀ call ∈ calls, b.CallOf e call)
    (h : List.Forall₂ (fun call o => havingCondition call = .ok o) calls having) :
    ∃ conditions, List.Forall₂ (fun call condition => b.Demands call.column call.target condition)
        (calls.filter fun call => call.column.hasCondition) conditions ∧
      List.Forall₂ b.ConditionOf conditions (having.filterMap id) := by
  induction h with
  | nil => exact ⟨[], .nil, .nil⟩
  | @cons call o calls having ho _ ih =>
    obtain ⟨hcall, hrest⟩ := List.forall_mem_cons.1 hcalls
    obtain ⟨conditions, hdemands, hparts⟩ := ih hrest
    cases o with
    | none =>
      have hskip : ¬ call.column.hasCondition = true := by
        obtain ⟨hnone, _⟩ | ⟨_, _, _, _, _, _, _, hsome⟩ := havingCondition_eq_ok.1 ho
        · rw [hasCondition_eq, hnone]
          exact Bool.false_ne_true
        · exact absurd hsome (by simp)
      exact ⟨conditions, by rwa [List.filter_cons, if_neg hskip], hparts⟩
    | some part =>
      obtain ⟨hhas, condition, hdemand, hpart⟩ := exists_conditionOf hcall ho
      refine ⟨condition :: conditions, ?_, .cons hpart hparts⟩
      rw [List.filter_cons, if_pos hhas]
      exact .cons hdemand hdemands

section Conditions

variable {conditions : List CallCondition} {parts : List Sql}
  (h : List.Forall₂ b.ConditionOf conditions parts)
include h

theorem textsFrom_conditions (n : Nat) : Sql.textsFrom b.style n parts =
    (conditions.zipIdx n).map fun p => (p.1.text b.style p.2).toList := by
  induction h generalizing n with
  | nil => rfl
  | cons hpart _ ih =>
    rw [Sql.textsFrom, hpart.text, hpart.bindings, List.length_singleton, ih, List.zipIdx_cons,
      List.map_cons]

theorem bindings_conditions :
    (havingSuffix parts).bindings = conditions.map CallCondition.binding := by
  have hjoined : (Combinator.and.join parts).bindings = conditions.map CallCondition.binding := by
    rw [Combinator.join, Sql.bindings_joined]
    induction h with
    | nil => rfl
    | cons hpart _ ih => rw [List.flatMap_cons, hpart.bindings, ih, List.map_cons]; rfl
  unfold havingSuffix
  cases h with
  | nil => rfl
  | cons _ _ => exact hjoined

/-- The conditions are numbered on from those on rows, with `AND` between them. -/
theorem havingText_eq (n : Nat) :
    b.havingText n parts = conditionsText b.style n conditions := by
  have htexts := textsFrom_conditions h n
  have hword : " " ++ Combinator.and.keyword ++ " " = " AND " := rfl
  unfold havingText havingSuffix conditionsText
  cases h with
  | nil => rfl
  | cons _ _ =>
    rw [if_neg (by simp), if_neg (by simp), ← String.toList_inj, String.toList_ofList,
      Sql.charsFrom_of_binding?_none rfl, Combinator.join, hword, Sql.charsFrom_joined, htexts,
      String.toList_append, String.toList_intercalate, List.map_map]
    rfl

end Conditions

/-! ## Aggregates -/

/-- An expression of the result: a term of the grouping, the mark of one, or a call. -/
inductive GroupedExpression (terms calls : List String) : String → Prop where
  | term {term : String} : term ∈ terms → GroupedExpression terms calls term
  | mark {term : String} : term ∈ terms → GroupedExpression terms calls ("GROUPING(" ++ term ++ ")")
  | call {call : String} : call ∈ calls → GroupedExpression terms calls call

theorem Groups.shown {reads : List (Option Target)} {q : GroupedSelect}
    (h : b.Groups e a targets reads q) {column : String × String} (hm : column ∈ q.columns) :
    GroupedExpression q.terms (b.callTexts a reads) column.1 := by
  obtain ⟨marks, hmarks, hcolumns⟩ := h.columns
  generalize a.rollup = rollup at hmarks
  rw [hcolumns, groupedColumns, List.mem_append, List.mem_append] at hm
  rw [h.terms]
  rcases hm with (hm | hm) | hm
  · obtain ⟨target, ht, rfl⟩ := List.mem_map.1 hm
    exact .term (List.mem_map_of_mem ht)
  · cases hmarks with
    | none => exact absurd hm (List.not_mem_nil)
    | some _ ht =>
      obtain rfl := List.mem_singleton.1 hm
      exact .mark (List.mem_map_of_mem ht)
  · exact .call (List.of_mem_zip hm).1

/-- The groups, name by name. -/
theorem Groups.filterMap_groupNames {α : Type} {reads : List (Option Target)} {q : GroupedSelect}
    (h : b.Groups e a targets reads q) (f : Target → α) :
    (groupNames a).filterMap (fun name => (e.resolve? name).map f) = targets.map f := by
  have hresolved := h.resolved
  rw [← groupNames_eq] at hresolved
  generalize groupNames a = names at hresolved
  clear h
  induction hresolved with
  | nil => rfl
  | cons ht _ ih => rw [List.filterMap_cons, ht, Option.map_some, ih, List.map_cons]

/-- What the functions read is what their fields stand for. -/
theorem Groups.reads_eq {reads : List (Option Target)} {q : GroupedSelect}
    (h : b.Groups e a targets reads q) :
    reads = a.columns.map fun c => c.field.bind e.resolve? := by
  have hread := h.read
  generalize a.columns = columns at hread
  clear h
  induction hread with
  | nil => rfl
  | cons hc _ ih =>
    rw [List.map_cons, ← ih]
    cases hc with
    | rows hfield _ => rw [hfield, Option.bind_none]
    | field hfield htarget => rw [hfield, Option.bind_some, htarget]

theorem exists_groups (h : b.aggregate e a source = .ok s) :
    ∃ targets reads q, b.Groups e a targets reads q ∧ b.Aggregates e source s q := by
  obtain ⟨groups, hgroups, rollup, hrollup, calls, hcalls, clause, hclause, having, hhaving, rows,
    hrows, henclosed, hbindings⟩ := aggregate_written h
  obtain ⟨targets, hresolved, hterms⟩ := exists_targets hgroups
  obtain ⟨marks, hmarks, hmarkItems⟩ := exists_marks hresolved hrollup
  obtain ⟨conditions, hdemands, hparts⟩ :=
    exists_conditions (fun call hm => callOf_of_mem hcalls hm) (mapM_eq_ok.1 hhaving)
  have hitems : List.Forall₂ b.ItemOf (groups.map Prod.snd ++ rollup ++ callItems a calls)
      (b.groupedColumns a targets marks (calls.map AggregateCall.target)) := by
    refine List.rel_append (List.rel_append ?_ hmarkItems) (callItems_itemOf hcalls)
    rw [List.forall₂_map_left_iff, List.forall₂_map_right_iff]
    exact hterms.imp fun _ _ hterm => hterm.item
  have hzip : a.columns.zip (calls.map AggregateCall.target) =
      calls.map fun call => (call.column, call.target) := by
    rw [columns_eq hcalls, List.zip_map']
  refine ⟨targets, calls.map AggregateCall.target,
    ⟨b.groupedColumns a targets marks (calls.map AggregateCall.target), rows.write b.style,
      (Sql.whereSuffix clause).write b.style, (Sql.whereSuffix clause).bindings.length,
      targets.map b.operandText, a.rollup.isSome, conditions⟩, ?_, ?_⟩
  · refine ⟨groupNames_eq a ▸ hresolved, rfl, rfl, ?_, ⟨marks, hmarks, rfl⟩, ?_⟩
    · rw [columns_eq hcalls, List.forall₂_map_left_iff, List.forall₂_map_right_iff,
        List.forall₂_same]
      exact fun call hm => (callOf_of_mem hcalls hm).reads
    · rw [hzip, List.filter_map, List.forall₂_map_left_iff]
      exact hdemands
  · refine ⟨?_, ⟨rows, hrows, rfl⟩, clause, hclause, rfl, Sql.length_parameters.symm, ?_⟩
    · rw [write_items hitems, write_groupSuffix hterms, havingText_eq hparts] at henclosed
      exact henclosed
    · rw [Statement.parameters_append hbindings, bindings_conditions hparts, List.zipIdx_map,
        List.map_map]
      rfl

/-- **An aggregate obeys the rules of grouping.** Its columns show terms of the grouping, the mark
of one, and calls. The rows are grouped by what the names of the aggregation stand for, the rollup
last unless it is listed, and there is no grouping without a name. The conditions on functions are
those that are asked for, in the order of the functions; each starts with the call that the result
shows, and binds its value in the type of the function. Every function but a count has a field. -/
theorem grouped_aggregate (h : b.aggregate e a source = .ok s) :
    ∃ targets reads q, b.Groups e a targets reads q ∧ b.Aggregates e source s q ∧
      (∀ column ∈ q.columns, GroupedExpression q.terms (b.callTexts a reads) column.1) ∧
      ∀ c ∈ a.columns, c.function ≠ .count → c.field.isSome := by
  obtain ⟨targets, reads, q, hgroups, haggregates⟩ := exists_groups h
  refine ⟨targets, reads, q, hgroups, haggregates, fun column hm => hgroups.shown hm, ?_⟩
  intro c hc hcount
  obtain ⟨read, _, hread⟩ := exists_right_of_forall₂ hgroups.read hc
  cases hread with
  | rows _ hrows => exact absurd hrows hcount
  | field hfield _ => rw [hfield, Option.isSome_some]

/-- How many visits each doctor has had, five or more, with the last of the findings. Doctors of one
name are counted together as well. -/
def visitCounts : Aggregation where
  groupBy := ["Doctor"]
  rollup := some "DoctorName"
  columns := [⟨.count, none, none, some ">=", some (.number (.ofUInt64 5))⟩,
    ⟨.max, some "Finding", some "Last", none, none⟩]

theorem grouped_aggregate_visits :
    ∃ s, visitBuilder.aggregate visits visitCounts (.example .and) = .ok s ∧
      s.text = "OPEN SYMMETRIC KEY [VisitKey] DECRYPTION BY CERTIFICATE [Visits];\n" ++
        "SELECT t0.doctor_id AS doctor_id, j0.Name AS Name, " ++
        "GROUPING(j0.Name) AS DoctorNameGrouping, COUNT(*) AS Aggregate, " ++
        "MAX(CONVERT(NVARCHAR(MAX), DECRYPTBYKEY(t0.Finding))) AS Last " ++
        "FROM Visits t0 LEFT OUTER JOIN Doctors j0 ON j0.Id = t0.doctor_id " ++
        "GROUP BY ROLLUP(t0.doctor_id, j0.Name) HAVING COUNT(*) >= @p0;\n" ++
        "CLOSE SYMMETRIC KEY [VisitKey];" ∧
      ∃ targets reads q, visitBuilder.Groups visits visitCounts targets reads q ∧
        visitBuilder.Aggregates visits (.example .and) s q ∧
        q.terms = ["t0.doctor_id", "j0.Name"] ∧
        visitBuilder.callTexts visitCounts reads =
          ["COUNT(*)", "MAX(CONVERT(NVARCHAR(MAX), DECRYPTBYKEY(t0.Finding)))"] ∧
        ∀ column ∈ q.columns,
          GroupedExpression q.terms (visitBuilder.callTexts visitCounts reads) column.1 := by
  refine ⟨_, rfl, by decide +kernel, ?_⟩
  obtain ⟨targets, reads, q, hgroups, haggregates, hshown, _⟩ :=
    grouped_aggregate (b := visitBuilder)
      (show visitBuilder.aggregate visits visitCounts (.example .and) = .ok _ from rfl)
  refine ⟨targets, reads, q, hgroups, haggregates, ?_, ?_, hshown⟩
  · rw [hgroups.terms, ← hgroups.filterMap_groupNames]
    rfl
  · rw [hgroups.reads_eq]
    decide +kernel

end Builder

end RecordSql
