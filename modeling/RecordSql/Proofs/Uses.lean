import RecordSql.Proofs.Names

/-!
# What a request does with fields

A statement can do four things with a field of its table. It **reads** the field, to show it or
because the request asks for it by a name or by a value. It **picks** rows by the field, or puts a
page in its order, when the field is the key. It **joins** another table on it, and it **assigns**
to it.

What a request does with which fields is said here from the request alone. A name asks for the field
that it stands for, so whether a field is shown plays no part in what may be asked.
-/

namespace RecordSql

variable (e : Entity) (f : Field)

/-! ## Asking -/

/-- A listing filters by a field: a column with a search of its own stands for the field, or a
searchable one does and the field can hold what is searched for. -/
inductive Listing.FiltersBy (l : Listing) : Prop where
  | column {name : String} {search : Predicate} : (name, search) ∈ Builder.searchedColumns l →
      e.resolve? name = some (.field f) → FiltersBy l
  | search {name : String} {search : Predicate} : l.search = some search →
      name ∈ Builder.searchableColumns l → e.resolve? name = some (.field f) →
      (∃ condition, search.coerce f.dataType = .ok condition) → FiltersBy l

/-- A listing sorts by a field: a sort points to a column that stands for it. -/
def Listing.SortsBy (l : Listing) : Prop :=
  ∃ sort ∈ l.sorts, ∃ column, l.columns[sort.column.toNat]? = some column ∧
    e.resolve? column.data = some (.field f)

/-- A record is an example for a field: its value asks for something. -/
def Entity.Exemplifies : Prop :=
  f ∈ e.fields ∧ ∃ search, Builder.examplePredicate e f = .ok (some search)

/-- The source of an aggregate filters by a field. -/
def AggregateSource.FiltersBy : AggregateSource → Prop
  | .example _ => e.Exemplifies f
  | .listing l => l.FiltersBy e f

/-- An aggregation reads a field: it groups by it, marks a rollup of it or computes a function of
it. -/
def Aggregation.Reads (a : Aggregation) : Prop :=
  ∃ name, (name ∈ Builder.groupNames a ∨ ∃ c ∈ a.columns, c.field = some name) ∧
    e.resolve? name = some (.field f)

/-- The field of a rollup is one of those that are grouped by. -/
theorem Aggregation.mem_groupNames {a : Aggregation} {name : String} (h : a.rollup = some name) :
    name ∈ Builder.groupNames a := by
  unfold Builder.groupNames
  rw [h]
  dsimp only
  split
  · next hc => exact List.contains_iff_mem.1 hc
  · exact List.mem_append_right _ List.mem_cons_self

/-! ## Joining -/

/-- An entity joins on a field: the field is the local side of one of its joins. -/
def Entity.JoinsOn : Prop := ∃ t ∈ e.joinedTables, e.joinSource t = .ok (.field f)

/-! ## Requests -/

namespace Request

/-- The request shows the field in its result. -/
def Shows : Request → Field → Prop
  | .select e _, f | .selectByKey e, f | .selectByExample e _, f =>
    f ∈ e.fields ∧ f.isProjected = true
  | _, _ => False

/-- The request asks for the field, by a name that stands for it or by a value. -/
def Asks : Request → Field → Prop
  | .select e (some l), f => l.FiltersBy e f ∨ l.SortsBy e f
  | .count e (some l), f => l.FiltersBy e f
  | .selectByExample e _, f => e.Exemplifies f
  | .aggregate e a source, f => a.Reads e f ∨ source.FiltersBy e f
  | _, _ => False

/-- The request picks rows by the field, or puts a page in its order: the field is the key. -/
def Picks : Request → Field → Prop
  | .select e (some l), f => l.isWindowed = true ∧ l.sorts = [] ∧ e.key? = some f
  | .selectByKey e, f | .update e, f | .updateProperties e _, f | .delete e, f => e.key? = some f
  | .batch steps, f => ∃ step ∈ steps, step.operation ≠ .insert ∧ step.entity.key? = some f
  | _, _ => False

/-- The request joins on the field. -/
def Joins : Request → Field → Prop
  | .select e _, f | .count e _, f | .selectByKey e, f | .selectByExample e _, f
  | .aggregate e _ _, f => e.JoinsOn f
  | _, _ => False

/-- The request assigns to the field. -/
def Assigns : Request → Field → Prop
  | .update e, f => f ∈ Builder.updateFields e none
  | .updateProperties e names, f => f ∈ Builder.updateFields e (some names)
  | .batch steps, f =>
    ∃ step ∈ steps, step.operation = .update ∧ f ∈ Builder.updateFields step.entity none
  | _, _ => False

end Request

/-- What a statement may do with the fields of an entity. -/
structure Uses where
  reads : Field → Prop
  picks : Field → Prop
  joins : Field → Prop
  assigns : Field → Prop

/-- What the statement of a request does with fields. -/
def Request.uses (r : Request) : Uses where
  reads f := r.Shows f ∨ r.Asks f
  picks := r.Picks
  joins := r.Joins
  assigns := r.Assigns

end RecordSql
