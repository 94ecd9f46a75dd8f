import RecordSql.Proofs.Agreement
import RecordSql.Proofs.Masked

/-!
# The shape of what is asked for

A listing or an aggregation mentions values: what columns are searched for, and what the results of
functions are compared with. A builder looks at the **shape** of these before it binds anything: the
form of a search with the number of its items and its bounds, and whether a condition has a value.

Two listings or aggregations are alike when they differ in values and have one shape. They sort,
page and group in the same way, and search the same columns.
-/

namespace RecordSql

open Checked

/-- A predicate as a condition without values: its form, the number of its items and the bounds
that it has. -/
def Predicate.shape : Predicate → Condition
  | .isNull => .isNull
  | .isNotNull => .isNotNull
  | .not inner => .not inner.shape
  | .range lower upper => .range (lower.map fun _ => .null) (upper.map fun _ => .null)
  | .list items => .oneOf (items.map fun _ => .null)
  | .like _ => .like ""
  | .equals _ => .equals .null

/-- Columns of a listing with searches of one shape. -/
structure ListColumn.Alike (c c' : ListColumn) : Prop where
  data : c.data = c'.data
  searchable : c.searchable = c'.searchable
  search : c.search.map Predicate.shape = c'.search.map Predicate.shape

/-- Listings of an entity with searches of one shape, the global one for the same columns. -/
structure Listing.Alike (e : Entity) (l l' : Listing) : Prop where
  start : l.start = l'.start
  length : l.length = l'.length
  sorts : l.sorts = l'.sorts
  columns : List.Forall₂ ListColumn.Alike l.columns l'.columns
  search : l.search.map Predicate.shape = l'.search.map Predicate.shape
  coerces : ∀ p p', l.search = some p → l'.search = some p' →
    ∀ name ∈ Builder.searchableColumns l, ∀ target, e.resolve? name = some target →
      (p.coerce target.dataType).isOk = (p'.coerce target.dataType).isOk

/-- Functions of an aggregation that differ in the value they are compared with. -/
structure AggregateColumn.Alike (c c' : AggregateColumn) : Prop where
  function : c.function = c'.function
  field : c.field = c'.field
  label : c.label = c'.label
  operator : c.havingOperator = c'.havingOperator
  value : (c.havingValue.filter fun v => !v.isNull).isSome =
    (c'.havingValue.filter fun v => !v.isNull).isSome

/-- Aggregations that differ in the values of their conditions. -/
structure Aggregation.Alike (a a' : Aggregation) : Prop where
  groupBy : a.groupBy = a'.groupBy
  rollup : a.rollup = a'.rollup
  columns : List.Forall₂ AggregateColumn.Alike a.columns a'.columns

theorem Listing.Alike.refl (e : Entity) (l : Listing) : l.Alike e l where
  start := rfl
  length := rfl
  sorts := rfl
  columns := List.forall₂_same.2 fun _ _ => ⟨rfl, rfl, rfl⟩
  search := rfl
  coerces := fun p p' hp hp' _ _ _ _ => by rw [Option.some.inj (hp.symm.trans hp')]

theorem AggregateColumn.Alike.refl (c : AggregateColumn) : c.Alike c := ⟨rfl, rfl, rfl, rfl, rfl⟩

theorem Aggregation.Alike.refl (a : Aggregation) : a.Alike a :=
  ⟨rfl, rfl, List.forall₂_same.2 fun c _ => .refl c⟩

/-! ## What may vary -/

/-- Things that are related, and the same unless they may vary. -/
structure Varies {α : Type} (loose : Prop) (R : α → α → Prop) (x y : α) : Prop where
  related : R x y
  same : ¬ loose → x = y

theorem Varies.refl {α : Type} {loose : Prop} {R : α → α → Prop} {x : α} (h : R x x) :
    Varies loose R x x :=
  ⟨h, fun _ => rfl⟩

/-- Nothing has to be the same of what may vary. -/
theorem Varies.of_loose {α : Type} {loose : Prop} {R : α → α → Prop} {x y : α} (hloose : loose)
    (h : R x y) : Varies loose R x y :=
  ⟨h, fun hs => absurd hloose hs⟩

/-- The members of lists that vary do. -/
theorem Varies.forall₂ {α : Type} {loose : Prop} {R : α → α → Prop} {xs ys : List α}
    (h : List.Forall₂ R xs ys) (hsame : ¬ loose → xs = ys) :
    List.Forall₂ (Varies loose R) xs ys := by
  induction h with
  | nil => exact .nil
  | cons hxy _ ih =>
    exact .cons ⟨hxy, fun hs => (List.cons.inj (hsame hs)).1⟩
      (ih fun hs => (List.cons.inj (hsame hs)).2)

/-- What varies may be missing, on both sides. -/
theorem Varies.option {α : Type} {loose : Prop} {R : α → α → Prop} {o o' : Option α}
    (h : Option.Rel R o o') (hsame : ¬ loose → o = o') : Option.Rel (Varies loose R) o o' := by
  cases h with
  | none => exact .none
  | some hxy => exact .some ⟨hxy, fun hs => Option.some.inj (hsame hs)⟩

/-- A listing, if there is one, is alike to itself. -/
theorem Listing.varies_refl {loose : Prop} (e : Entity) (l : Option Listing) :
    Option.Rel (Varies loose (Listing.Alike e)) l l :=
  rel_refl (fun l => .refl (.refl e l)) l

/-- Searches of one shape. -/
def Predicate.OneShape (p p' : Predicate) : Prop := p.shape = p'.shape

theorem Predicate.oneShape_of_map {o o' : Option Predicate} (h : o.map shape = o'.map shape) :
    Option.Rel OneShape o o' := by
  cases o with
  | none =>
    cases o' with
    | none => exact .none
    | some p' => exact absurd h (by simp)
  | some p =>
    cases o' with
    | none => exact absurd h (by simp)
    | some p' => exact .some (Option.some.inj h)

/-! ## Conditions -/

/-- A typed condition has the shape of its predicate. -/
theorem Predicate.outline_coerce {type : DataType} {p : Predicate} {c : Condition}
    (h : p.coerce type = .ok c) : c.outline = p.shape := by
  replace h := types_of_coerce h
  induction h with
  | not _ ih => rw [Condition.outline, shape, ih]
  | list hvalues =>
    rw [Condition.outline, shape, List.map_const', List.map_const', hvalues.length_eq]
  | isNull | isNotNull | atLeast _ | atMost _ | between _ _ | like | equals _ => rfl

theorem Condition.masked_sql_of_shape {type : DataType} {p p' : Predicate} {c c' : Condition}
    (hs : p.OneShape p') (h : p.coerce type = .ok c) (h' : p'.coerce type = .ok c')
    (operand : Sql) : (c.sql operand type).masked = (c'.sql operand type).masked := by
  rw [masked_sql, Predicate.outline_coerce h, hs, ← Predicate.outline_coerce h', ← masked_sql]

/-! ## Listings of one shape -/

section Listings

variable {loose : Prop} {e : Entity} {l l' : Listing}

theorem searchedColumns_varies (h : Varies loose (Listing.Alike e) l l') :
    List.Forall₂ (fun c c' => c.1 = c'.1 ∧ Varies loose Predicate.OneShape c.2 c'.2)
      (Builder.searchedColumns l) (Builder.searchedColumns l') := by
  have hcolumns : List.Forall₂ (Varies loose ListColumn.Alike) l.columns l'.columns :=
    Varies.forall₂ h.related.columns fun hs => by rw [h.same hs]
  refine List.rel_filterMap (R := Varies loose ListColumn.Alike) ?_ hcolumns
  intro c c' hc
  have hsearch : Option.Rel (Varies loose Predicate.OneShape) c.search c'.search :=
    Varies.option (Predicate.oneShape_of_map hc.related.search) fun hs => by rw [hc.same hs]
  dsimp only
  generalize c.search = search, c'.search = search' at hsearch
  cases hsearch with
  | none => exact .none
  | some hp => exact .some ⟨hc.related.data, hp⟩

theorem searchableColumns_alike (h : List.Forall₂ ListColumn.Alike l.columns l'.columns) :
    Builder.searchableColumns l = Builder.searchableColumns l' := by
  unfold Builder.searchableColumns
  generalize l.columns = columns, l'.columns = columns' at h
  induction h with
  | nil => rfl
  | @cons c c' rest rest' hc _ ih =>
    cases hs : c.searchable with
    | true =>
      have hs' : c'.searchable = true := hc.searchable ▸ hs
      rw [List.filter_cons_of_pos hs, List.filter_cons_of_pos hs', List.map_cons, List.map_cons,
        hc.data, ih]
    | false =>
      have hs' : c'.searchable = false := hc.searchable ▸ hs
      rw [List.filter_cons_of_neg (by simp [hs]), List.filter_cons_of_neg (by simp [hs']), ih]

/-- Sorts name the same columns, as far as their names go. -/
theorem agree_sortTargets (h : l.Alike e l') :
    Agree (List.Forall₂ fun t t' => t.1.data = t'.1.data ∧ t.2 = t'.2) l.sortTargets
      l'.sortTargets := by
  unfold Listing.sortTargets
  rw [← h.sorts]
  refine .mapM_same fun sort _ => ?_
  unfold Listing.sortTarget
  -- the columns match, and a sort picks one by its place
  rw [← h.columns.length_eq]
  have hcolumn := getElem?_forall₂ h.columns sort.column.toNat
  generalize l.columns[sort.column.toNat]? = found, l'.columns[sort.column.toNat]? = found'
    at hcolumn
  cases hcolumn with
  | none => exact .error _
  | some hc => exact .ok ⟨hc.data, rfl⟩

end Listings

/-! ## Aggregations of one shape -/

section Aggregations

variable {loose : Prop} {a a' : Aggregation} {c c' : AggregateColumn}

theorem groupNames_alike (h : a.Alike a') : Builder.groupNames a = Builder.groupNames a' := by
  unfold Builder.groupNames
  rw [h.groupBy, h.rollup]

theorem resolvedAliases_alike (h : a.Alike a') : a.resolvedAliases = a'.resolvedAliases := by
  have hlabels : a.columns.map AggregateColumn.aliasOrDefault =
      a'.columns.map AggregateColumn.aliasOrDefault := by
    refine map_eq_of_forall₂ (h.columns.imp fun c c' hc => ?_)
    unfold AggregateColumn.aliasOrDefault
    rw [hc.label]
  unfold Aggregation.resolvedAliases
  rw [hlabels]

/-- A function is compared in both aggregations, with the same operator, or in neither. -/
theorem having?_varies (h : Varies loose AggregateColumn.Alike c c') :
    Option.Rel (fun p p' => p.1 = p'.1 ∧ (¬ loose → p.2 = p'.2)) c.having? c'.having? := by
  have hvalue : Option.Rel (Varies loose fun _ _ => True)
      (c.havingValue.filter fun v => !v.isNull) (c'.havingValue.filter fun v => !v.isNull) := by
    refine Varies.option ?_ fun hs => by rw [h.same hs]
    have hsome := h.related.value
    generalize c.havingValue.filter _ = o, c'.havingValue.filter _ = o' at hsome
    cases o with
    | none =>
      cases o' with
      | none => exact .none
      | some v' => exact absurd hsome (by simp)
    | some v =>
      cases o' with
      | none => exact absurd hsome (by simp)
      | some v' => exact .some trivial
  unfold AggregateColumn.having?
  rw [← h.related.operator]
  generalize c.havingValue.filter _ = o, c'.havingValue.filter _ = o' at hvalue
  cases c.havingOperator with
  | none => exact .none
  | some operator =>
    cases hvalue with
    | none => exact .none
    | some hv => exact .some ⟨rfl, hv.same⟩

end Aggregations

end RecordSql
