import RecordSql.Proofs.Pieces

/-!
# Statements without their values

Masking a statement takes the values out of its bindings and leaves everything else. The text of a
statement, and whatever is said about its parameters apart from their values, can be read off the
masked pieces.

So two statements have the same text when they are the same under the mask. A condition reads the
same under the mask whatever its values, and so does a statement that key management is put around.
-/

namespace RecordSql

/-- A piece with the value taken out of it. -/
def Piece.masked : Piece → Piece
  | .bind x => .bind { x with value := .null }
  | piece => piece

/-- What a parameter is declared as, its value apart. -/
def Parameter.outline (p : Parameter) : String × DataType × Bool × Direction :=
  (p.name, p.dataType, p.wildcard, p.direction)

namespace Sql

/-- A statement with the values taken out of it. -/
def masked (sql : Sql) : Sql := sql.map Piece.masked

variable {sql other : Sql}

@[simp] theorem masked_cons (p : Piece) (sql : Sql) :
    masked (p :: sql) = p.masked :: masked sql := rfl

@[simp] theorem masked_append (a c : Sql) : masked (a ++ c) = masked a ++ masked c :=
  List.map_append

@[simp] theorem masked_text (s : String) : (Piece.text s).masked = .text s := rfl

theorem masked_joined (separator : String) (parts : List Sql) :
    masked (joined separator parts) = joined separator (parts.map masked) := by
  induction parts with
  | nil => rfl
  | cons part rest ih =>
    cases rest with
    | nil => rfl
    | cons next rest =>
      rw [joined, masked_append, masked_cons, masked_text, ih]
      · rfl
      · exact List.cons_ne_nil _ _

@[simp] theorem masked_list (parts : List Sql) : masked (list parts) = list (parts.map masked) :=
  masked_joined _ _

/-! ## What the mask leaves -/

theorem charsFrom_masked (style : Style) (n : Nat) (sql : Sql) :
    charsFrom style n (masked sql) = charsFrom style n sql := by
  induction sql generalizing n with
  | nil => rfl
  | cons p rest ih =>
    have hkept : p.binding? = none →
        charsFrom style n (masked (p :: rest)) = charsFrom style n (p :: rest) := by
      intro hb
      have hp : p.masked = p := by
        cases p with
        | bind x => exact absurd hb (by simp [Piece.binding?])
        | _ => rfl
      rw [masked_cons, hp, charsFrom_of_binding?_none hb, charsFrom_of_binding?_none hb, ih n]
    -- a bound value is written as its number, which the mask leaves alone
    cases p with
    | bind x =>
      rw [masked_cons, Piece.masked, charsFrom, charsFrom, ih (n + 1)]
      rfl
    | _ => exact hkept rfl

theorem bindings_masked (sql : Sql) :
    bindings (masked sql) = (bindings sql).map fun x => { x with value := .null } := by
  unfold bindings masked
  rw [List.filterMap_map, List.map_filterMap]
  congr 1
  funext p
  cases p <;> rfl

theorem outline_parameters_masked (sql : Sql) :
    (masked sql).parameters.map Parameter.outline = sql.parameters.map Parameter.outline := by
  unfold parameters
  rw [bindings_masked, List.zipIdx_map, List.map_map, List.map_map, List.map_map]
  rfl

/-- Whether a key is needed does not depend on values. -/
theorem needsKey_masked (sql : Sql) : needsKey (masked sql) = needsKey sql := by
  unfold needsKey masked
  rw [List.any_map]
  congr 1
  funext p
  cases p <;> rfl

theorem dropLeading_masked (sql : Sql) : dropLeading (masked sql) = masked (dropLeading sql) := by
  induction sql with
  | nil => rfl
  | cons p rest ih =>
    cases p with
    | text s =>
      rw [masked_cons, masked_text, dropLeading, dropLeading]
      split
      · exact ih
      · rfl
    | _ => rfl

theorem withoutSemicolons_masked (sql : Sql) :
    withoutSemicolons (masked sql) = masked (withoutSemicolons sql) := by
  unfold withoutSemicolons
  have hreverse : (masked sql).reverse = masked sql.reverse := List.map_reverse.symm
  rw [hreverse, dropLeading_masked]
  exact List.map_reverse.symm

/-- **Statements that are the same under the mask have the same text and the same parameters,
values apart.** -/
theorem write_eq_of_masked (style : Style) (h : sql.masked = other.masked) :
    sql.write style = other.write style ∧
      sql.parameters.map Parameter.outline = other.parameters.map Parameter.outline := by
  constructor
  · unfold write
    rw [← charsFrom_masked, h, charsFrom_masked]
  · rw [← outline_parameters_masked, h, outline_parameters_masked]

end Sql

/-! ## Conditions -/

/-- A condition with the values taken out of it. -/
def Condition.outline : Condition → Condition
  | .isNull => .isNull
  | .isNotNull => .isNotNull
  | .not inner => .not inner.outline
  | .range lower upper => .range (lower.map fun _ => .null) (upper.map fun _ => .null)
  | .oneOf items => .oneOf (items.map fun _ => .null)
  | .like _ => .like ""
  | .equals _ => .equals .null

/-- A condition on an operand reads the same under the mask, whatever its values. -/
theorem Condition.masked_sql (operand : Sql) (type : DataType) (c : Condition) :
    (c.sql operand type).masked = (c.outline.sql operand type).masked := by
  have hbound : ∀ value, (bound type value).masked = (bound type .null).masked := fun _ => rfl
  induction c with
  | isNull => rfl
  | isNotNull => rfl
  | not inner ih =>
    simp only [outline, sql, Sql.masked_append, Sql.masked_cons, ih]
  | range lower upper =>
    cases lower with
    | none =>
      cases upper with
      | none => rfl
      | some u => simp [outline, sql, hbound u]
    | some l =>
      cases upper with
      | none => simp [outline, sql, hbound l]
      | some u => simp [outline, sql, hbound l, hbound u]
  | oneOf items =>
    -- what is left of a list is how many items it has
    have hitems : (items.map (bound type)).map Sql.masked =
        ((items.map fun _ => Value.null).map (bound type)).map Sql.masked := by
      rw [List.map_map, List.map_map, List.map_map]
      exact List.map_congr_left fun value _ => hbound value
    simp only [outline, sql, Sql.masked_append, Sql.masked_cons, Sql.masked_list, hitems]
  | like text => simp [outline, sql, Piece.masked, Binding.search]
  | equals value => simp [outline, sql, hbound value]

/-! ## Key management -/

theorem Dialect.masked_withKeys {d : Dialect} {sql other wrapped wrapped' : Sql}
    {keys : EncryptionKeys} (hm : sql.masked = other.masked) (h : d.withKeys sql keys = .ok wrapped)
    (h' : d.withKeys other keys = .ok wrapped') : wrapped.masked = wrapped'.masked := by
  cases d with
  | oracle => exact absurd h (by simp [withKeys])
  | sqlServer =>
    injection h with h
    injection h' with h'
    rw [← h, ← h']
    simp only [Sql.masked_append, Sql.masked_cons, ← Sql.withoutSemicolons_masked, hm]

end RecordSql
