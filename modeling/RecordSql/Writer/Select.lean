import RecordSql.Builder.Select
import RecordSql.Writer.Where

/-!
# Selects as they are written

The statements of `Builder.Select`, written along with a sink: the projection and the source of rows
first, then the clause, and the order last.
-/

namespace RecordSql

/-- An expression under the name of a result column. -/
def Style.labelled (style : Style) (text label : String) : String :=
  text ++ " AS " ++ style.identifier label

/-- A pulled column as it is written. -/
def Style.pulled (style : Style) (t : JoinedTable) (c : JoinColumn) : String :=
  let column := style.qualified t.tableAlias c.source
  match c.label with
  | some label => style.labelled column label
  | none => column

/-- The columns that a joined table adds to a projection. -/
def Style.pulledColumns (style : Style) (t : JoinedTable) : List String :=
  t.join.columns.map (style.pulled t)

namespace Builder

/-- Writes the item of a visible field. -/
def writeFieldItem (b : Builder) (f : Field) : Writing String := do
  let column := b.style.qualified .root f.columnName
  match f.dataType with
  | .date => pure (b.style.labelled (b.dialect.writeDate column) f.name)
  | .encrypted => do
    let text ← b.writeField f
    pure (b.style.labelled text f.name)
  | _ =>
    if f.columnName = f.name then pure column else pure (b.style.labelled column f.name)

/-- Writes the visible fields and the columns of the joins; there has to be one. -/
def writeProjection (b : Builder) (e : Entity) : Writing String := do
  let fields ← (e.fields.filter Field.isProjected).mapM b.writeFieldItem
  match fields ++ e.joinedTables.flatMap b.style.pulledColumns with
  | [] => Writing.check (.error (.invalidEntity (.nothingToSelect e.table)))
  | columns => pure (commas columns)

/-- A join with its condition. -/
def joinText (b : Builder) (e : Entity) (t : JoinedTable) : Except EntityFault String := do
  let localSide ← e.joinSource t
  pure
    (" " ++ t.join.direction.keywords ++ " " ++ b.style.qualifiedTable t.join.table ++ " " ++
      t.tableAlias.text ++ " ON " ++ b.style.qualified t.tableAlias t.join.onColumn ++ " = " ++
      b.style.reference localSide)

/-- The table of the entity with its joins. -/
def sourceText (b : Builder) (e : Entity) : Checked String := do
  let joins ← Checked.ofEntity (e.joinedTables.mapM (b.joinText e))
  pure
    ("FROM " ++ b.style.qualifiedTable e.table ++ " " ++ TableAlias.root.text ++ String.join joins)

/-! ## Order and pages -/

/-- Writes one term of an order. -/
def writeSortTerm (b : Builder) (e : Entity) (column : ListColumn) (direction : SortDirection) :
    Writing String := do
  let target ← Writing.check (Checked.ofFilter (e.resolve column.data))
  let operand ← b.writeOperand target
  pure (operand ++ " " ++ direction.keyword)

/-- Writes the terms that a listing is sorted by. -/
def writeSortTerms (b : Builder) (e : Entity) (l : Listing) : Writing (List String) := do
  let targets ← Writing.check (Checked.ofFilter (l.sortTargets.mapError .sortIndex))
  targets.mapM fun (column, direction) => b.writeSortTerm e column direction

/-- Writes the order of a listing that may not be there. -/
def writeOrder (b : Builder) (e : Entity) : Option Listing → Writing String
  | none => pure ""
  | some l => do
    let terms ← b.writeSortTerms e l
    pure (commas terms)

/-- The order of a page: what is asked for, or else the key. -/
def windowOrderText (b : Builder) (e : Entity) (orderBy : String) : Except FilterFault String :=
  if orderBy = "" then
    match e.key? with
    | some key =>
      .ok (b.style.qualified .root key.columnName ++ " " ++ SortDirection.asc.keyword)
    | none => .error (.windowOrder e.table)
  else .ok orderBy

/-- A select without a window. -/
def plainSelectText (select : WrittenSelect) : String :=
  "SELECT " ++ select.projection ++ " " ++ select.source ++ whereText select.filter ++
    (if select.orderBy = "" then "" else " ORDER BY " ++ select.orderBy)

/-- The listing as a window or as a whole. -/
def pagedSelectText (b : Builder) (e : Entity) (select : WrittenSelect) (l : Option Listing) :
    Except FilterFault String :=
  match l.filter Listing.isWindowed with
  | none => .ok (plainSelectText select)
  | some l =>
    match Window.of? l.start l.length with
    | none => .error (.windowRange l.start l.length)
    | some w => do
      let orderBy ← b.windowOrderText e select.orderBy
      pure (b.dialect.writePage { select with orderBy } w)

/-! ## Statements -/

/-- Writes a listing. -/
def writeSelect (b : Builder) (e : Entity) (l : Option Listing) : Writing String := do
  let projection ← b.writeProjection e
  let source ← Writing.check (b.sourceText e)
  let filter ← b.writeFilter? e l
  let orderBy ← b.writeOrder e l
  Writing.check (Checked.ofFilter (b.pagedSelectText e ⟨projection, source, filter, orderBy⟩ l))

/-- Writes the selection of one row by its key. -/
def writeSelectByKey (b : Builder) (e : Entity) : Writing String := do
  let projection ← b.writeProjection e
  let source ← Writing.check (b.sourceText e)
  let condition ← b.writeKeyCondition e none
  pure (plainSelectText ⟨projection, source, some condition, ""⟩)

/-- Writes the selection of the rows that match the values of the entity. -/
def writeSelectByExample (b : Builder) (e : Entity) (combinator : Combinator) :
    Writing String := do
  let projection ← b.writeProjection e
  let source ← Writing.check (b.sourceText e)
  let filter ← b.writeExample e combinator
  pure (plainSelectText ⟨projection, source, filter, ""⟩)

/-- Writes the count of the rows that a listing has. -/
def writeCount (b : Builder) (e : Entity) (l : Option Listing) : Writing String := do
  let source ← Writing.check (b.sourceText e)
  let filter ← b.writeFilter? e l
  pure (plainSelectText ⟨"COUNT(*) AS Total", source, filter, ""⟩)

end Builder

end RecordSql
