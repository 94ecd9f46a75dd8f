import RecordSql.Builder.Aggregate
import RecordSql.Writer.Select

/-!
# Aggregates as they are written

The statements of `Builder.Aggregate`, written along with a sink. The columns of the result bind
nothing. The clause on rows is written before the conditions on functions, so that its values come
first among the parameters as it does in the text.
-/

namespace RecordSql

/-- A call of a function as it is written: the function as asked for, the text, and what it
reads. -/
structure WrittenCall where
  column : AggregateColumn
  text : String
  target : Option Target

namespace Builder

/-- Writes the expression and the item of a group column. -/
def writeGroupTerm (b : Builder) (e : Entity) (name : String) : Writing (String × String) := do
  let target ← Writing.check (Checked.ofFilter (e.resolve name))
  let operand ← b.writeOperand target
  pure (operand, b.style.labelled operand target.columnName)

/-- Writes the item that marks the rows of a rollup, if there is one. -/
def writeRollupItems (b : Builder) (e : Entity) : Option String → Writing (List String)
  | none => pure []
  | some name => do
    let target ← Writing.check (Checked.ofFilter (e.resolve name))
    let operand ← b.writeOperand target
    pure [b.style.labelled ("GROUPING(" ++ operand ++ ")") (groupingName name)]

/-- Writes the call of a function. -/
def writeCall (b : Builder) (e : Entity) (c : AggregateColumn) : Writing WrittenCall :=
  match c.field with
  | none =>
    if c.function = .count then pure ⟨c, "COUNT(*)", none⟩
    else Writing.check (.error (.invalidFilter (.functionWithoutField c.function)))
  | some name => do
    let target ← Writing.check (Checked.ofFilter (e.resolve name))
    let operand ← b.writeOperand target
    pure ⟨c, callOpening c.function ++ operand ++ ")", some target⟩

/-- The type that the result of a function is compared in, by what the function reads. -/
def comparedType (function : AggregateFunction) (target : Option Target) : DataType :=
  match function with
  | .count | .countDistinct => .integer
  | .avg => .decimal
  | _ => (target.map Target.dataType).getD .decimal

/-- Writes the condition on the result of a call, if there is one. -/
def writeHaving (call : WrittenCall) : Writing (Option String) :=
  match call.column.having? with
  | none => pure none
  | some (operator, value) => do
    let comparison ← Writing.check (Checked.ofFilter (Comparison.require operator))
    let type := comparedType call.column.function call.target
    let value ← Writing.check (Checked.ofFilter
      ((Value.coerce value type).mapError (.havingValue call.column.aliasOrDefault)))
    let placeholder ← Writing.bindInput value type
    pure (some (call.text ++ " " ++ comparison.symbol ++ " " ++ placeholder))

/-- Writes the clause of the source of an aggregate. -/
def writeSource (b : Builder) (e : Entity) : AggregateSource → Writing (Option String)
  | .example combinator => b.writeExample e combinator
  | .listing l => b.writeFilter e l

/-- The grouping of an aggregate. -/
def groupText (rollup : Bool) (terms : List String) : String :=
  if terms.isEmpty then ""
  else if rollup then " GROUP BY ROLLUP(" ++ commas terms ++ ")"
  else " GROUP BY " ++ commas terms

/-- The conditions on the functions of an aggregate. -/
def havingsText (conditions : List String) : String :=
  if conditions.isEmpty then "" else " HAVING " ++ Combinator.and.joinTexts conditions

/-- Writes an aggregate. -/
def writeAggregate (b : Builder) (e : Entity) (a : Aggregation) (source : AggregateSource) :
    Writing String := do
  if a.groupBy.isEmpty && a.rollup.isNone && a.columns.isEmpty then
    Writing.check (.error (.invalidFilter (.emptyAggregation e.table)))
  let groups ← (groupNames a).mapM (b.writeGroupTerm e)
  let rollup ← b.writeRollupItems e a.rollup
  let calls ← a.columns.mapM (b.writeCall e)
  let filter ← b.writeSource e source
  let having ← calls.mapM writeHaving
  let source ← Writing.check (b.sourceText e)
  let labelled := (calls.zip a.resolvedAliases).map fun (call, label) =>
    b.style.labelled call.text label
  let items := groups.map Prod.snd ++ rollup ++ labelled
  pure
    ("SELECT " ++ commas items ++ " " ++ source ++ whereText filter ++
      groupText a.rollup.isSome (groups.map Prod.fst) ++ havingsText (having.filterMap id))

end Builder

end RecordSql
