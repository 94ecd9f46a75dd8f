import RecordSql.Builder.Where

/-!
# Selects

Statements that read rows: a listing, one row by its key, the rows that match an example, and the
number of rows.

The projection names the visible fields of the entity first, then every column that a join pulls
in. The source of rows is the entity's table with its joins, whatever is projected.
-/

namespace RecordSql

/-! ## Projections -/

/-- An item of a projection: a column under its own name, or an expression under a name given to
it. -/
inductive Item where
  | bare (table : TableAlias) (column : String)
  | labelled (value : Sql) (label : String)
  deriving DecidableEq

namespace Item

/-- The item as SQL. -/
def sql : Item → Sql
  | .bare table column => [.column table column]
  | .labelled value label => value ++ Sql.as label

/-- The name of the column that the item gives a result. -/
def resultName : Item → String
  | .bare _ column => column
  | .labelled _ label => label

end Item

/-- A list of items as SQL. -/
def Sql.items (items : List Item) : Sql := Sql.list (items.map Item.sql)

/-- The item of a pulled column. -/
def JoinedTable.item (t : JoinedTable) (c : JoinColumn) : Item :=
  match c.label with
  | some label => .labelled [.column t.tableAlias c.source] label
  | none => .bare t.tableAlias c.source

/-- The items of a joined table. -/
def JoinedTable.items (t : JoinedTable) : List Item := t.join.columns.map t.item

namespace Builder

/-- The item of a visible field. Dates are shown as text and encrypted columns in clear. -/
def fieldItem (b : Builder) (f : Field) : Checked Item :=
  match f.dataType with
  | .date => .ok (.labelled (b.dialect.dateToString [.column .root f.columnName]) f.name)
  | .encrypted => do
    let value ← b.readField f
    pure (.labelled value f.name)
  | _ =>
    if f.columnName = f.name then .ok (.bare .root f.columnName)
    else .ok (.labelled [.column .root f.columnName] f.name)

/-- The items of the visible fields and of the joins; there has to be one. -/
def projection (b : Builder) (e : Entity) : Checked (List Item) := do
  let fields ← (e.fields.filter Field.isProjected).mapM b.fieldItem
  match fields ++ e.joinedTables.flatMap JoinedTable.items with
  | [] => .error (.invalidEntity (.nothingToSelect e.table))
  | items => pure items

end Builder

/-! ## Sources of rows -/

/-- A join with its condition. -/
def joinClause (e : Entity) (t : JoinedTable) : Except EntityFault Sql := do
  let localSide ← e.joinSource t
  pure
    (.text s!" {t.join.direction.keywords} " :: Sql.table t.join.table ++
      [.text s!" {t.tableAlias.text} ON ", .column t.tableAlias t.join.onColumn, .text " = "] ++
      localSide.column)

/-- The table of the entity with its joins. -/
def fromClause (e : Entity) : Checked Sql := do
  let joins ← Checked.ofEntity (e.joinedTables.mapM (joinClause e))
  pure
    (.text "FROM " :: Sql.table e.table ++ .text s!" {TableAlias.root.text}" :: joins.flatten)

namespace Builder

/-! ## Order and pages -/

/-- One term of an order. -/
def sortTerm (b : Builder) (e : Entity) (column : ListColumn) (direction : SortDirection) :
    Checked Sql := do
  let target ← Checked.ofFilter (e.resolve column.data)
  let operand ← b.operand target
  pure (operand ++ [.text s!" {direction.keyword}"])

/-- The terms that a listing is sorted by. -/
def sortTerms (b : Builder) (e : Entity) (l : Listing) : Checked (List Sql) := do
  let targets ← Checked.ofFilter (l.sortTargets.mapError .sortIndex)
  targets.mapM fun (column, direction) => b.sortTerm e column direction

/-- The terms that a listing, which may not be there, is sorted by. -/
def sortTerms? (b : Builder) (e : Entity) : Option Listing → Checked (List Sql)
  | none => .ok []
  | some l => b.sortTerms e l

/-- The order of a page: the terms asked for, or else the key. -/
def windowOrder (e : Entity) (terms : List Sql) : Except FilterFault Sql :=
  match terms with
  | [] =>
    match e.key? with
    | some key => .ok [.column .root key.columnName, .text s!" {SortDirection.asc.keyword}"]
    | none => .error (.windowOrder e.table)
  | terms => .ok (Sql.list terms)

/-- A select without a window. -/
def plainSelect (select : PagedSelect) : Sql :=
  .text "SELECT " :: select.projection ++ .text " " :: select.source ++
    Sql.whereSuffix select.filter ++
    (if select.orderBy.isEmpty then [] else .text " ORDER BY " :: select.orderBy)

/-- The listing as a window or as a whole. -/
def pagedSelect (b : Builder) (e : Entity) (projection source : Sql) (filter : Option Sql)
    (terms : List Sql) (l : Option Listing) : Except FilterFault Sql :=
  match l.filter Listing.isWindowed with
  | none => .ok (plainSelect ⟨projection, source, filter, Sql.list terms⟩)
  | some l =>
    match Window.of? l.start l.length with
    | none => .error (.windowRange l.start l.length)
    | some w => do
      let orderBy ← windowOrder e terms
      pure (b.dialect.paginate ⟨projection, source, filter, orderBy⟩ w)

/-! ## Statements -/

/-- A listing. -/
def selectBody (b : Builder) (e : Entity) (l : Option Listing) : Checked Sql := do
  let projection ← b.projection e
  let source ← fromClause e
  let filter ← b.filterClause? e l
  let terms ← b.sortTerms? e l
  Checked.ofFilter (b.pagedSelect e (Sql.items projection) source filter terms l)

/-- One row by its key. -/
def selectByKeyBody (b : Builder) (e : Entity) : Checked Sql := do
  let projection ← b.projection e
  let source ← fromClause e
  let condition ← keyCondition e none
  pure (plainSelect ⟨Sql.items projection, source, some condition, []⟩)

/-- The rows that match the values of the entity. -/
def selectByExampleBody (b : Builder) (e : Entity) (combinator : Combinator) : Checked Sql := do
  let projection ← b.projection e
  let source ← fromClause e
  let filter ← b.exampleClause e combinator
  pure (plainSelect ⟨Sql.items projection, source, filter, []⟩)

/-- The number of rows that a listing has, its window apart. -/
def countBody (b : Builder) (e : Entity) (l : Option Listing) : Checked Sql := do
  let source ← fromClause e
  let filter ← b.filterClause? e l
  pure (plainSelect ⟨[.text "COUNT(*) AS Total"], source, filter, []⟩)

/-- A listing: every row, or what the listing asks for. -/
def select (b : Builder) (e : Entity) (l : Option Listing) : Checked Statement :=
  b.build e (b.selectBody e l)

/-- The row of the entity's key. -/
def selectByKey (b : Builder) (e : Entity) : Checked Statement := b.build e (b.selectByKeyBody e)

/-- The rows that match the entity's values, each read as a search. -/
def selectByExample (b : Builder) (e : Entity) (combinator : Combinator) : Checked Statement :=
  b.build e (b.selectByExampleBody e combinator)

/-- The number of rows of the joined source, under the search of a listing if there is one. -/
def count (b : Builder) (e : Entity) (l : Option Listing) : Checked Statement :=
  b.build e (b.countBody e l)

end Builder

end RecordSql
