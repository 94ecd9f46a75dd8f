import RecordSql.Builder.Where
import RecordSql.Writer.Template

/-!
# Conditions as they are written

The clauses of `Builder.Where`, written along with a sink. A column is read before its condition is
written, and the values of a condition are bound from left to right.
-/

namespace RecordSql

namespace Style

/-- A table name, each part of it written as a name of its own. -/
def qualifiedTable (style : Style) (name : String) : String :=
  ".".intercalate ((Identifier.tableParts name).map style.identifier)

/-- The column that a name stands for. -/
def reference (style : Style) : Target → String
  | .field f => style.qualified .root f.columnName
  | .joined index column => style.qualified (.join index) column.source

end Style

/-- Conditions joined by a combinator. -/
def Combinator.joinTexts (c : Combinator) (conditions : List String) : String :=
  (" " ++ c.keyword ++ " ").intercalate conditions

/-- Writes a condition on an expression of a type. -/
def Condition.write (operand : String) (type : DataType) : Condition → Writing String
  | .isNull => pure (operand ++ " IS NULL")
  | .isNotNull => pure (operand ++ " IS NOT NULL")
  | .not inner => do
    let inner ← inner.write operand type
    pure ("NOT (" ++ inner ++ ")")
  | .range (some lower) (some upper) => do
    let lower ← Writing.bindInput lower type
    let upper ← Writing.bindInput upper type
    pure ("(" ++ operand ++ " >= " ++ lower ++ " AND " ++ operand ++ " <= " ++ upper ++ ")")
  | .range (some lower) none => do
    let lower ← Writing.bindInput lower type
    pure (operand ++ " >= " ++ lower)
  | .range none (some upper) => do
    let upper ← Writing.bindInput upper type
    pure (operand ++ " <= " ++ upper)
  | .range none none => pure "1 = 1"
  | .oneOf items => do
    let placeholders ← items.mapM fun item => Writing.bindInput item type
    pure (operand ++ " IN (" ++ commas placeholders ++ ")")
  | .like text => do
    let placeholder ← Writing.bindSearch text
    pure (operand ++ " LIKE " ++ placeholder)
  | .equals value => do
    let placeholder ← Writing.bindInput value type
    pure (operand ++ " = " ++ placeholder)

namespace Builder

/-! ## Reading -/

/-- Writes a column of the entity's own table as it is read. The sink is marked for what is
decrypted. -/
def writeField (b : Builder) (f : Field) : Writing String := do
  let column := b.style.qualified .root f.columnName
  if f.dataType = .encrypted then
    let _ ← Writing.check (b.keysFor f)
    Writing.markEncryption
    Writing.check (b.dialect.writeDecrypted column)
  else pure column

/-- Writes the expression that a column is read through. -/
def writeOperand (b : Builder) : Target → Writing String
  | .field f => b.writeField f
  | .joined index column => pure (b.style.reference (.joined index column))

/-! ## Listings -/

/-- Writes the condition of a column with a search of its own. -/
def writeColumnCondition (b : Builder) (e : Entity) (name : String) (search : Predicate) :
    Writing String := do
  let target ← Writing.check (Checked.ofFilter (e.resolve name))
  let condition ← Writing.check
    (Checked.ofFilter ((search.coerce target.dataType).mapError (.columnSearch search name)))
  let operand ← b.writeOperand target
  condition.write operand target.dataType

/-- Writes the condition of the global search on one column. A column that cannot hold what is
searched for is left out before it is read. -/
def writeSearchCondition (b : Builder) (e : Entity) (search : Predicate) (name : String) :
    Writing (Option String) := do
  let target ← Writing.check (Checked.ofFilter (e.resolve name))
  match search.coerce target.dataType with
  | .error _ => pure none
  | .ok condition => do
    let operand ← b.writeOperand target
    let text ← condition.write operand target.dataType
    pure (some text)

/-- Writes the conditions of the global search. -/
def writeSearchConditions (b : Builder) (e : Entity) (l : Listing) : Writing (List String) :=
  match l.search with
  | none => pure []
  | some search => do
    let conditions ← (searchableColumns l).mapM (b.writeSearchCondition e search)
    pure (conditions.filterMap id)

/-- Both groups of conditions as one clause. -/
def combineTexts : (columns searches : List String) → Option String
  | [], [] => none
  | columns, [] => some (Combinator.and.joinTexts columns)
  | [], searches => some (Combinator.or.joinTexts searches)
  | columns, searches =>
    some ("(" ++ Combinator.and.joinTexts columns ++ ") AND (" ++
      Combinator.or.joinTexts searches ++ ")")

/-- Writes the clause of a listing: first the columns with a search of their own, then the global
search. -/
def writeFilter (b : Builder) (e : Entity) (l : Listing) : Writing (Option String) := do
  let columns ← (searchedColumns l).mapM fun (name, search) => b.writeColumnCondition e name search
  let searches ← b.writeSearchConditions e l
  pure (combineTexts columns searches)

/-- Writes the clause of a listing that may not be there. -/
def writeFilter? (b : Builder) (e : Entity) : Option Listing → Writing (Option String)
  | none => pure none
  | some l => b.writeFilter e l

/-! ## Examples -/

/-- Writes the condition of a field of an example, if its value asks for one. -/
def writeExampleCondition (b : Builder) (e : Entity) (f : Field) : Writing (Option String) := do
  match ← Writing.check (Checked.ofFilter (examplePredicate e f)) with
  | none => pure none
  | some search => do
    let condition ← Writing.check
      (Checked.ofFilter ((search.coerce f.dataType).mapError (.exampleValue search f.name)))
    let operand ← b.writeField f
    let text ← condition.write operand f.dataType
    pure (some text)

/-- Writes the clause of an example. -/
def writeExample (b : Builder) (e : Entity) (combinator : Combinator) :
    Writing (Option String) := do
  let conditions ← e.fields.mapM (b.writeExampleCondition e)
  match conditions.filterMap id with
  | [] => pure none
  | conditions => pure (some (combinator.joinTexts conditions))

/-! ## Keys -/

/-- Writes the condition that picks the row of a key, by the key's value or by the variable given in
its place. -/
def writeKeyCondition (b : Builder) (e : Entity) (replacement : Option String) :
    Writing String := do
  let key ← Writing.check (Checked.ofEntity e.requireKey)
  let column := b.style.qualified .root key.columnName
  match replacement with
  | some name => pure (column ++ " = " ++ name)
  | none => do
    let (_, value) ← Writing.check (Checked.ofEntity e.requireKeyValue)
    let value ← Writing.check
      (Checked.ofEntity ((Value.coerce value key.dataType).mapError (.keyValue key.name e.table)))
    let placeholder ← Writing.bindInput value key.dataType
    pure (column ++ " = " ++ placeholder)

end Builder

end RecordSql
