import RecordSql.Builder.Resolve

/-!
# Conditions

The `WHERE` part of a statement. Conditions are collected first and put together once, so none is
left dangling; there is no clause at all when none was collected.

* A listing gives one condition for each column with a search of its own, joined by `AND`, and one
  for each searchable column that can hold the global search, joined by `OR`. When there are both
  groups, each has its parentheses and `AND` stands between them.
* An example gives one condition for each field with a value that is not empty.
* A row is picked by its key.
-/

namespace RecordSql

/-- How the conditions of an example are joined. -/
inductive Combinator where
  | and
  | or
  deriving DecidableEq, Repr

namespace Combinator

/-- The keyword between two conditions. -/
def keyword : Combinator → String
  | .and => "AND"
  | .or => "OR"

/-- The combinator of a stored request. -/
def ofJson? (value : Json) : Option Combinator :=
  value.choice? ([and, or].map fun c => (c.keyword, c))

/-- Conditions joined by the combinator. -/
def join (c : Combinator) (conditions : List Sql) : Sql :=
  Sql.joined (" " ++ c.keyword ++ " ") conditions

end Combinator

namespace Condition

/-- A value bound for a column of a type. -/
def bound (type : DataType) (value : Value) : Sql := [.bind (.input value type)]

/-- A condition on an expression of a type, its values in the order of the text. -/
def sql (operand : Sql) (type : DataType) : Condition → Sql
  | .isNull => operand ++ [.text " IS NULL"]
  | .isNotNull => operand ++ [.text " IS NOT NULL"]
  | .not inner => .text "NOT (" :: inner.sql operand type ++ [.text ")"]
  | .range (some lower) (some upper) =>
    .text "(" :: operand ++ .text " >= " :: bound type lower ++ .text " AND " :: operand ++
      .text " <= " :: bound type upper ++ [.text ")"]
  | .range (some lower) none => operand ++ .text " >= " :: bound type lower
  | .range none (some upper) => operand ++ .text " <= " :: bound type upper
  | .range none none => [.text "1 = 1"]
  | .oneOf items =>
    operand ++ .text " IN (" :: Sql.list (items.map (bound type)) ++ [.text ")"]
  | .like text => operand ++ [.text " LIKE ", .bind (.search text)]
  | .equals value => operand ++ .text " = " :: bound type value

end Condition

namespace Builder

/-! ## Listings -/

/-- The condition of a column with a search of its own. -/
def columnCondition (b : Builder) (e : Entity) (name : String) (search : Predicate) :
    Checked Sql := do
  let target ← Checked.ofFilter (e.resolve name)
  let condition ←
    Checked.ofFilter ((search.coerce target.dataType).mapError (.columnSearch search name))
  let operand ← b.operand target
  pure (condition.sql operand target.dataType)

/-- The condition of the global search on one column; a column that cannot hold what is searched
for has none. -/
def searchCondition (b : Builder) (e : Entity) (search : Predicate) (name : String) :
    Checked (Option Sql) := do
  let target ← Checked.ofFilter (e.resolve name)
  match search.coerce target.dataType with
  | .error _ => pure none
  | .ok condition => do
    let operand ← b.operand target
    pure (some (condition.sql operand target.dataType))

/-- The columns that have a search of their own. -/
def searchedColumns (l : Listing) : List (String × Predicate) :=
  l.columns.filterMap fun c => c.search.map fun search => (c.data, search)

/-- The names of the columns that the global search looks at. -/
def searchableColumns (l : Listing) : List String :=
  (l.columns.filter ListColumn.searchable).map ListColumn.data

/-- The conditions of the columns with a search of their own. -/
def columnConditions (b : Builder) (e : Entity) (l : Listing) : Checked (List Sql) :=
  (searchedColumns l).mapM fun (name, search) => b.columnCondition e name search

/-- The conditions of the global search. -/
def searchConditions (b : Builder) (e : Entity) (l : Listing) : Checked (List Sql) :=
  match l.search with
  | none => .ok []
  | some search => do
    let conditions ← (searchableColumns l).mapM (b.searchCondition e search)
    pure (conditions.filterMap id)

/-- Both groups of conditions as one clause. -/
def combine : (columns searches : List Sql) → Option Sql
  | [], [] => none
  | columns, [] => some (Combinator.and.join columns)
  | [], searches => some (Combinator.or.join searches)
  | columns, searches =>
    some (.text "(" :: Combinator.and.join columns ++ .text ") AND (" ::
      Combinator.or.join searches ++ [.text ")"])

/-- The clause of a listing. -/
def filterClause (b : Builder) (e : Entity) (l : Listing) : Checked (Option Sql) := do
  let columns ← b.columnConditions e l
  let searches ← b.searchConditions e l
  pure (combine columns searches)

/-- The clause of a listing that may not be there. -/
def filterClause? (b : Builder) (e : Entity) : Option Listing → Checked (Option Sql)
  | none => .ok none
  | some l => b.filterClause e l

/-! ## Examples -/

/-- The predicate that the value of a field asks for. -/
def examplePredicate (e : Entity) (f : Field) : Except FilterFault (Option Predicate) :=
  match e.value? f.name with
  | none => .ok none
  | some value => (Predicate.ofProperty value).mapError .predicate

/-- The condition of a field of an example, if its value asks for one. -/
def exampleCondition (b : Builder) (e : Entity) (f : Field) : Checked (Option Sql) := do
  match ← Checked.ofFilter (examplePredicate e f) with
  | none => pure none
  | some search => do
    let condition ←
      Checked.ofFilter ((search.coerce f.dataType).mapError (.exampleValue search f.name))
    let operand ← b.readField f
    pure (some (condition.sql operand f.dataType))

/-- The clause of an example. -/
def exampleClause (b : Builder) (e : Entity) (combinator : Combinator) : Checked (Option Sql) := do
  let conditions ← e.fields.mapM (b.exampleCondition e)
  match conditions.filterMap id with
  | [] => pure none
  | conditions => pure (some (combinator.join conditions))

/-! ## Keys -/

/-- The condition that picks the row of a key, by the key's value or by the variable given in its
place. -/
def keyCondition (e : Entity) (replacement : Option String) : Checked Sql := do
  let key ← Checked.ofEntity e.requireKey
  let column : Sql := [.column .root key.columnName, .text " = "]
  match replacement with
  | some name => pure (column ++ [.variable name])
  | none => do
    let (_, value) ← Checked.ofEntity e.requireKeyValue
    let value ←
      Checked.ofEntity ((Value.coerce value key.dataType).mapError (.keyValue key.name e.table))
    pure (column ++ [.bind (.input value key.dataType)])

end Builder

end RecordSql
