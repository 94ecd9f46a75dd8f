import RecordSql.Builder.Select

/-!
# Aggregates

Statements that group rows and compute functions over the groups. The group columns come first in
the result, then the mark of a rollup, then the functions. Conditions on rows come from an example
or from a listing, whose window and order play no part; conditions on functions are joined by `AND`.
-/

namespace RecordSql

/-- Where the conditions on rows come from. -/
inductive AggregateSource where
  | example (combinator : Combinator)
  | listing (l : Listing)

/-- A call of a function: the function as asked for, the call as SQL, and what it reads. -/
structure AggregateCall where
  column : AggregateColumn
  sql : Sql
  target : Option Target

namespace Builder

/-- The names to group by, the rollup last unless it is listed. -/
def groupNames (a : Aggregation) : List String :=
  match a.rollup with
  | none => a.groupBy
  | some name => if a.groupBy.contains name then a.groupBy else a.groupBy ++ [name]

/-- The expression and the item of a group column. -/
def groupTerm (b : Builder) (e : Entity) (name : String) : Checked (Sql × Item) := do
  let target ← Checked.ofFilter (e.resolve name)
  let operand ← b.operand target
  pure (operand, .labelled operand target.columnName)

/-- The name of the column that marks the rows of a rollup. -/
def groupingName (name : String) : String := name ++ "Grouping"

/-- The item that marks the rows of a rollup, if there is one. -/
def rollupItems (b : Builder) (e : Entity) : Option String → Checked (List Item)
  | none => .ok []
  | some name => do
    let target ← Checked.ofFilter (e.resolve name)
    let operand ← b.operand target
    pure [.labelled (.text "GROUPING(" :: operand ++ [.text ")"]) (groupingName name)]

/-- The text that opens the call of a function on an expression. -/
def callOpening : AggregateFunction → String
  | .count => "COUNT("
  | .countDistinct => "COUNT(DISTINCT "
  | .sum => "SUM("
  | .avg => "AVG("
  | .min => "MIN("
  | .max => "MAX("

/-- The call of a function. Only a count can do without a field. -/
def aggregateCall (b : Builder) (e : Entity) (c : AggregateColumn) : Checked AggregateCall :=
  match c.field with
  | none =>
    if c.function = .count then .ok ⟨c, [.text "COUNT(*)"], none⟩
    else .error (.invalidFilter (.functionWithoutField c.function))
  | some name => do
    let target ← Checked.ofFilter (e.resolve name)
    let operand ← b.operand target
    pure ⟨c, .text (callOpening c.function) :: operand ++ [.text ")"], some target⟩

/-- The type that the result of a call is compared in. -/
def havingType (call : AggregateCall) : DataType :=
  match call.column.function with
  | .count | .countDistinct => .integer
  | .avg => .decimal
  | _ => (call.target.map Target.dataType).getD .decimal

/-- The condition on the result of a call, if there is one. -/
def havingCondition (call : AggregateCall) : Except FilterFault (Option Sql) :=
  match call.column.having? with
  | none => .ok none
  | some (operator, value) => do
    let comparison ← Comparison.require operator
    let type := havingType call
    let value ←
      (Value.coerce value type).mapError (.havingValue call.column.aliasOrDefault)
    pure (some (call.sql ++ [.text s!" {comparison.symbol} ", .bind (.input value type)]))

/-- The clause of the source of an aggregate. -/
def sourceClause (b : Builder) (e : Entity) : AggregateSource → Checked (Option Sql)
  | .example combinator => b.exampleClause e combinator
  | .listing l => b.filterClause e l

/-- The grouping of an aggregate. -/
def groupSuffix (rollup : Bool) (terms : List Sql) : Sql :=
  if terms.isEmpty then []
  else if rollup then .text " GROUP BY ROLLUP(" :: Sql.list terms ++ [.text ")"]
  else .text " GROUP BY " :: Sql.list terms

/-- The conditions on the functions of an aggregate. -/
def havingSuffix (conditions : List Sql) : Sql :=
  if conditions.isEmpty then [] else .text " HAVING " :: Combinator.and.join conditions

/-- The items of the functions, each under its resolved alias. -/
def callItems (a : Aggregation) (calls : List AggregateCall) : List Item :=
  (calls.zip a.resolvedAliases).map fun (call, label) => .labelled call.sql label

/-- An aggregate. -/
def aggregateBody (b : Builder) (e : Entity) (a : Aggregation) (source : AggregateSource) :
    Checked Sql := do
  if a.groupBy.isEmpty && a.rollup.isNone && a.columns.isEmpty then
    .error (.invalidFilter (.emptyAggregation e.table))
  let groups ← (groupNames a).mapM (b.groupTerm e)
  let rollup ← b.rollupItems e a.rollup
  let calls ← a.columns.mapM (b.aggregateCall e)
  -- conditions on rows come before conditions on functions, in the text as in the checks
  let filter ← b.sourceClause e source
  let having ← Checked.ofFilter (calls.mapM havingCondition)
  let source ← fromClause e
  let items := groups.map Prod.snd ++ rollup ++ callItems a calls
  pure
    (.text "SELECT " :: Sql.items items ++ .text " " :: source ++ Sql.whereSuffix filter ++
      groupSuffix a.rollup.isSome (groups.map Prod.fst) ++ havingSuffix (having.filterMap id))

/-- An aggregate over the rows that its source lets through. -/
def aggregate (b : Builder) (e : Entity) (a : Aggregation) (source : AggregateSource) :
    Checked Statement :=
  b.build e (b.aggregateBody e a source)

end Builder

end RecordSql
