import RecordSql.Json.Reader
import RecordSql.Json.Record
import RecordSql.Text.Ascii
import RecordSql.Text.Blank

/-!
# Aggregations

What an aggregate query asks for: the names to group by, perhaps a rollup, and the functions to
compute, each with an optional condition on its result.

Every function has an alias in the result. An alias that is taken already gets the least number,
from 1 on, that makes it free.
-/

namespace RecordSql

/-! ## Functions and comparisons -/

/-- A function over the rows of a group. -/
inductive AggregateFunction where
  | count
  | countDistinct
  | sum
  | avg
  | min
  | max
  deriving DecidableEq, Repr

namespace AggregateFunction

/-- The name of the function. -/
def name : AggregateFunction → String
  | .count => "COUNT"
  | .countDistinct => "COUNT_DISTINCT"
  | .sum => "SUM"
  | .avg => "AVG"
  | .min => "MIN"
  | .max => "MAX"

/-- Every function. -/
def all : List AggregateFunction := [.count, .countDistinct, .sum, .avg, .min, .max]

/-- The functions by their names. -/
def names : List (String × AggregateFunction) := all.map fun f => (f.name, f)

/-- The function that a word stands for, blanks around it and letter case apart. -/
def parse? (s : String) : Option AggregateFunction :=
  (("AVERAGE", avg) :: names).lookup (Text.upperCase (Text.strip s))

/-- The function of a stored aggregation, which has to be spelled exactly. -/
def ofJson? (value : Json) : Option AggregateFunction := value.choice? names

end AggregateFunction

/-- A comparison with the result of a function. -/
inductive Comparison where
  | equal
  | notEqual
  | greater
  | greaterOrEqual
  | less
  | lessOrEqual
  deriving DecidableEq, Repr

namespace Comparison

/-- The operator of the comparison. -/
def symbol : Comparison → String
  | .equal => "="
  | .notEqual => "<>"
  | .greater => ">"
  | .greaterOrEqual => ">="
  | .less => "<"
  | .lessOrEqual => "<="

/-- The spellings of the operators. -/
def symbols : List (String × Comparison) :=
  [("=", .equal), ("!=", .notEqual), ("<>", .notEqual), (">", .greater), (">=", .greaterOrEqual),
   ("<", .less), ("<=", .lessOrEqual)]

/-- The comparison that an operator stands for, blanks around it apart. -/
def parse? (s : String) : Option Comparison := symbols.lookup (Text.strip s)

end Comparison

/-! ## Columns of an aggregation -/

/-- A function of an aggregation. Without a field it counts rows. The condition applies when both
its operator and a value other than `null` are there. -/
structure AggregateColumn where
  function : AggregateFunction
  field : Option String
  label : Option String
  havingOperator : Option String
  havingValue : Option Json

namespace AggregateColumn

/-- The alias of a function that declares none. -/
def defaultAlias : String := "Aggregate"

/-- The alias that the function would like. -/
def aliasOrDefault (c : AggregateColumn) : String := c.label.getD defaultAlias

/-- The operator and the value of the condition, when there is one. -/
def having? (c : AggregateColumn) : Option (String × Json) :=
  match c.havingOperator, c.havingValue.filter fun value => !value.isNull with
  | some operator, some value => some (operator, value)
  | _, _ => none

/-- The names of the members of a stored function. -/
def memberNames : List String := ["function", "field", "alias", "having_operator", "having_value"]

/-- The function as a stored aggregation writes it. -/
def toJson (c : AggregateColumn) : Json :=
  .object
    ([("function", .string c.function.name)] ++
      Json.optionalMember "field" .string c.field ++
      Json.optionalMember "alias" .string c.label ++
      Json.optionalMember "having_operator" .string c.havingOperator ++
      Json.optionalMember "having_value" id c.havingValue)

/-- The function of a stored aggregation. -/
def ofJson? (value : Json) : Option AggregateColumn := do
  let member ← value.record? memberNames
  let function ← Json.needed (member "function") AggregateFunction.ofJson?
  let field ← Json.optional (member "field") Json.string?
  let label ← Json.optional (member "alias") Json.string?
  let havingOperator ← Json.optional (member "having_operator") Json.string?
  let havingValue ← Json.optional (member "having_value") some
  pure ⟨function, field, label, havingOperator, havingValue⟩

end AggregateColumn

/-- What an aggregate query asks for. -/
structure Aggregation where
  groupBy : List String
  rollup : Option String
  columns : List AggregateColumn

namespace Aggregation

/-- An aggregation that asks for nothing. -/
def empty : Aggregation := ⟨[], none, []⟩

/-! ## Aliases -/

/-- An alias with a number at its end. -/
def numbered (label : String) (k : Nat) : String := label ++ toString k

/-- The first number from `k` on that makes the alias free. Each name found taken is struck off the
list, which no later number can miss. -/
def firstFree (label : String) (taken : List String) (k : Nat) : Nat :=
  if numbered label k ∈ taken then
    firstFree label (taken.erase (numbered label k)) (k + 1)
  else k
termination_by taken.length
decreasing_by
  rename_i h
  have := List.length_erase_of_mem h
  have := List.length_pos_of_mem h
  omega

/-- What has been given out so far: the names taken, and for an alias that was taken the number to
try next. -/
structure AliasState where
  taken : List String
  next : List (String × Nat)

/-- Gives out one alias. -/
def AliasState.give (state : AliasState) (label : String) : String × AliasState :=
  if label ∈ state.taken then
    let k := firstFree label state.taken ((state.next.lookup label).getD 1)
    let name := numbered label k
    (name, ⟨name :: state.taken, (label, k + 1) :: state.next⟩)
  else (label, ⟨label :: state.taken, state.next⟩)

/-- Gives out the aliases of a list, one after the other. -/
def giveAll (state : AliasState) : List String → List String
  | [] => []
  | label :: rest =>
    let (name, state) := state.give label
    name :: giveAll state rest

/-- The aliases of the functions in the result. -/
def resolvedAliases (a : Aggregation) : List String :=
  giveAll ⟨[], []⟩ (a.columns.map AggregateColumn.aliasOrDefault)

/-! ## Stored form -/

/-- The names of the members of a stored aggregation. -/
def memberNames : List String := ["group_by", "rollup", "functions"]

/-- The shape of a stored aggregation. -/
def shape : Json.Shape :=
  .ofNames memberNames [("functions", .list (.ofNames AggregateColumn.memberNames []))]

/-- The aggregation in its stored form. -/
def toJson (a : Aggregation) : Json :=
  .object
    ([("group_by", .array (a.groupBy.map .string))] ++
      Json.optionalMember "rollup" .string a.rollup ++
      [("functions", .array (a.columns.map AggregateColumn.toJson))])

/-- The aggregation of a stored form. -/
def ofJson? (value : Json) : Option Aggregation := do
  let member ← value.record? memberNames
  let groupBy ← Json.orElse [] (member "group_by") (Json.list? Json.string?)
  let rollup ← Json.optional (member "rollup") Json.string?
  let columns ← Json.orElse [] (member "functions") (Json.list? AggregateColumn.ofJson?)
  pure ⟨groupBy, rollup, columns⟩

/-- The aggregation of a stored text. -/
def ofText? (text : String) : Option Aggregation :=
  ((Json.asWritten? shape text).bind ofJson?).map fun a =>
    { a with
      columns := a.columns.map fun c =>
        { c with havingValue := c.havingValue.map Json.canonical } }

end Aggregation

end RecordSql
