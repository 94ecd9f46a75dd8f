import RecordSql.Json.Reader
import RecordSql.Json.Record
import RecordSql.Predicate.Basic

/-!
# Listings

What a listing of a table asks for: a window of rows, a search and an order, over the columns that
are shown.

* Each column may have a search of its own; the global search looks at the searchable columns.
* A sort names its column by its index.
* The two counts are there for the reader of the listing, and no statement depends on them.
-/

namespace RecordSql

/-- Which way a listing is sorted. -/
inductive SortDirection where
  | asc
  | desc
  deriving DecidableEq, Repr

namespace SortDirection

/-- The keyword of the direction. -/
def keyword : SortDirection → String
  | .asc => "ASC"
  | .desc => "DESC"

/-- The name of the direction in a stored listing. -/
def wireName : SortDirection → String
  | .asc => "asc"
  | .desc => "desc"

/-- The direction of a stored listing. -/
def ofJson? (value : Json) : Option SortDirection :=
  value.choice? ([asc, desc].map fun direction => (direction.wireName, direction))

end SortDirection

/-- A column of a listing, by the name of a field or of a column that a join exposes. -/
structure ListColumn where
  data : String
  searchable : Bool
  search : Option Predicate
  deriving DecidableEq, Repr

/-- A sort by one of the columns. -/
structure SortTerm where
  column : UInt64
  direction : SortDirection
  deriving DecidableEq, Repr

/-- What a listing asks for; a length of zero is no window. -/
structure Listing where
  start : UInt64
  length : UInt64
  search : Option Predicate
  columns : List ListColumn
  sorts : List SortTerm
  total : Option UInt64
  filteredRecords : Option UInt64
  deriving DecidableEq, Repr

namespace Listing

/-- A listing that asks for nothing. -/
def empty : Listing := ⟨0, 0, none, [], [], none, none⟩

/-- Whether the listing is a window. -/
def isWindowed (l : Listing) : Bool := decide (0 < l.length.toNat)

/-- A sort whose column there is not. -/
structure SortFault where
  index : UInt64
  columns : Nat
  deriving DecidableEq, Repr

/-- The wording of the fault. -/
def SortFault.message (fault : SortFault) : String :=
  s!"sort column index {fault.index} is out of bounds ({fault.columns} columns)"

/-- The column of a sort. -/
def sortTarget (l : Listing) (sort : SortTerm) : Except SortFault (ListColumn × SortDirection) :=
  match l.columns[sort.column.toNat]? with
  | some column => .ok (column, sort.direction)
  | none => .error ⟨sort.column, l.columns.length⟩

/-- The columns of the sorts, in order. -/
def sortTargets (l : Listing) : Except SortFault (List (ListColumn × SortDirection)) :=
  l.sorts.mapM l.sortTarget

end Listing

/-! ## Stored form -/

/-- The names of the members of a stored column. -/
def ListColumn.memberNames : List String := ["data", "searchable", "search"]

/-- The column as a stored listing writes it. -/
def ListColumn.toJson (c : ListColumn) : Json :=
  .object
    ([("data", .string c.data), ("searchable", .bool c.searchable)] ++
      Json.optionalMember "search" Predicate.toJson c.search)

/-- The column of a stored listing. -/
def ListColumn.ofJson? (value : Json) : Option ListColumn := do
  let member ← value.record? memberNames
  let data ← Json.needed (member "data") Json.string?
  let searchable ← Json.orElse false (member "searchable") Json.bool?
  let search ← Predicate.member? (member "search")
  pure ⟨data, searchable, search⟩

/-- The names of the members of a stored sort. -/
def SortTerm.memberNames : List String := ["column", "direction"]

/-- The sort as a stored listing writes it. -/
def SortTerm.toJson (s : SortTerm) : Json :=
  .object
    [("column", .number (.ofUInt64 s.column)),
     ("direction", .string s.direction.wireName)]

/-- The sort of a stored listing. -/
def SortTerm.ofJson? (value : Json) : Option SortTerm := do
  let member ← value.record? memberNames
  let column ← Json.needed (member "column") Json.uint64?
  let direction ← Json.orElse .asc (member "direction") SortDirection.ofJson?
  pure ⟨column, direction⟩

namespace Listing

/-- The names of the members of a stored listing. -/
def memberNames : List String :=
  ["start", "length", "search", "columns", "sort_columns", "total", "filtered_records"]

/-- The shape of a stored listing. -/
def shape : Json.Shape :=
  .ofNames memberNames
    [("columns", .list (.ofNames ListColumn.memberNames [])),
     ("sort_columns", .list (.ofNames SortTerm.memberNames []))]

/-- A count as JSON. -/
def countJson (n : UInt64) : Json := .number (.ofUInt64 n)

/-- The listing in its stored form. -/
def toJson (l : Listing) : Json :=
  .object
    ([("start", countJson l.start), ("length", countJson l.length)] ++
      Json.optionalMember "search" Predicate.toJson l.search ++
      [("columns", .array (l.columns.map ListColumn.toJson)),
       ("sort_columns", .array (l.sorts.map SortTerm.toJson))] ++
      Json.optionalMember "total" countJson l.total ++
      Json.optionalMember "filtered_records" countJson l.filteredRecords)

/-- The listing of a stored form. -/
def ofJson? (value : Json) : Option Listing := do
  let member ← value.record? memberNames
  let start ← Json.orElse 0 (member "start") Json.uint64?
  let length ← Json.orElse 0 (member "length") Json.uint64?
  let search ← Predicate.member? (member "search")
  let columns ← Json.orElse [] (member "columns") (Json.list? ListColumn.ofJson?)
  let sorts ← Json.orElse [] (member "sort_columns") (Json.list? SortTerm.ofJson?)
  let total ← Json.optional (member "total") Json.uint64?
  let filteredRecords ← Json.optional (member "filtered_records") Json.uint64?
  pure ⟨start, length, search, columns, sorts, total, filteredRecords⟩

/-- The listing of a stored text. -/
def ofText? (text : String) : Option Listing := (Json.asWritten? shape text).bind ofJson?

end Listing

end RecordSql
