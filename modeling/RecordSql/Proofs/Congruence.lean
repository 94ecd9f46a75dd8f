import RecordSql.Proofs.Agreement

/-!
# Likenesses of SQL

The parts of a statement can be alike in many ways: they are the same, the same but for their
values, or bind the same. Such a likeness is a **congruence** when it holds of any part with itself,
and is kept when parts are put one behind the other.

That is all that the templates need. They only put parts together with wording of their own, so one
dialect writes like parts as like statements.
-/

namespace RecordSql

/-- A likeness that is kept when SQL is put together. -/
structure Sql.Congruence (Like : Sql → Sql → Prop) : Prop where
  refl (sql : Sql) : Like sql sql
  append {sql sql' rest rest' : Sql} : Like sql sql' → Like rest rest' →
    Like (sql ++ rest) (sql' ++ rest')

namespace Sql.Congruence

variable {Like : Sql → Sql → Prop} (h : Sql.Congruence Like) {sql sql' : Sql}
  {parts parts' : List Sql} {filter filter' : Option Sql}
include h

theorem cons (p : Piece) (hs : Like sql sql') : Like (p :: sql) (p :: sql') :=
  h.append (h.refl [p]) hs

theorem joined (separator : String) (hp : List.Forall₂ Like parts parts') :
    Like (Sql.joined separator parts) (Sql.joined separator parts') := by
  induction hp with
  | nil => exact h.refl []
  | cons hpart hrest ih =>
    cases hrest with
    | nil => exact hpart
    | cons _ _ => exact h.append hpart (h.cons _ ih)

theorem list (hp : List.Forall₂ Like parts parts') : Like (Sql.list parts) (Sql.list parts') :=
  h.joined _ hp

theorem whereSuffix (hf : Option.Rel Like filter filter') :
    Like (Sql.whereSuffix filter) (Sql.whereSuffix filter') := by
  cases hf with
  | none => exact h.refl []
  | some hf => exact h.cons _ hf

/-! ## Clauses -/

theorem items {items items' : List Item}
    (hi : List.Forall₂ (fun item item' => Like item.sql item'.sql) items items') :
    Like (Sql.items items) (Sql.items items') :=
  h.list (List.forall₂_map_left_iff.2 (List.forall₂_map_right_iff.2 hi))

theorem combine {columns columns' searches searches' : List Sql}
    (hc : List.Forall₂ Like columns columns') (hs : List.Forall₂ Like searches searches') :
    Option.Rel Like (Builder.combine columns searches) (Builder.combine columns' searches') := by
  have hboth := fun separator => h.joined separator hc
  have hone := fun separator => h.joined separator hs
  -- the same groups are empty on both sides
  cases hc with
  | nil =>
    cases hs with
    | nil => exact .none
    | cons _ _ => exact .some (hone _)
  | cons _ _ =>
    cases hs with
    | nil => exact .some (hboth _)
    | cons _ _ =>
      exact .some (h.append (h.append (h.cons _ (hboth _)) (h.cons _ (hone _))) (h.refl _))

theorem plainSelect {projection projection' source orderBy : Sql} (hp : Like projection projection')
    (hf : Option.Rel Like filter filter') :
    Like (Builder.plainSelect ⟨projection, source, filter, orderBy⟩)
      (Builder.plainSelect ⟨projection', source, filter', orderBy⟩) :=
  h.append (h.append (h.append (h.cons _ hp) (h.refl _)) (h.whereSuffix hf)) (h.refl _)

theorem havingSuffix (hp : List.Forall₂ Like parts parts') :
    Like (Builder.havingSuffix parts) (Builder.havingSuffix parts') := by
  have hjoined := h.joined (" " ++ Combinator.and.keyword ++ " ") hp
  cases hp with
  | nil => exact h.refl []
  | cons _ _ => exact h.cons _ hjoined

/-! ## Templates -/

section Templates

variable (d : Dialect)

theorem paginate {projection projection' source orderBy : Sql} (w : Window)
    (hp : Like projection projection') (hf : Option.Rel Like filter filter') :
    Like (d.paginate ⟨projection, source, filter, orderBy⟩ w)
      (d.paginate ⟨projection', source, filter', orderBy⟩ w) := by
  have hwhere := h.whereSuffix hf
  cases d with
  | sqlServer =>
    exact h.append (h.append (h.append (h.append (h.cons _ hp) (h.refl _)) (h.refl _)) hwhere)
      (h.refl _)
  | oracle =>
    exact h.append (h.append (h.append (h.append (h.cons _ hp) (h.refl _)) hwhere) (h.refl _))
      (h.refl _)

theorem insert {table : Sql} {columns values values' : List Sql} (key : KeyReturn)
    (hv : List.Forall₂ Like values values') :
    Like (d.insert ⟨table, columns, values⟩ key) (d.insert ⟨table, columns, values'⟩ key) := by
  have hvalues : Like (Dialect.insertValues ⟨table, columns, values⟩)
      (Dialect.insertValues ⟨table, columns, values'⟩) :=
    h.append (h.cons _ (h.list hv)) (h.refl _)
  have hinsert : Like
      (Dialect.insertHead ⟨table, columns, values⟩ ++ Dialect.insertValues ⟨table, columns, values⟩)
      (Dialect.insertHead ⟨table, columns, values'⟩ ++
        Dialect.insertValues ⟨table, columns, values'⟩) :=
    h.append (h.refl _) hvalues
  unfold Dialect.insert
  split
  · exact h.append (h.refl _) hvalues
  · exact h.append hinsert (h.refl _)
  · exact h.append (h.append hinsert (h.refl _)) (h.refl _)
  · exact h.append (h.append hinsert (h.refl _)) (h.refl _)
  · exact hinsert

theorem update (table tableAlias : Sql) {condition condition' : Sql}
    (hp : List.Forall₂ Like parts parts') (hc : Like condition condition') :
    Like (d.update table tableAlias parts condition)
      (d.update table tableAlias parts' condition') := by
  have hlist := h.list hp
  cases d with
  | sqlServer =>
    exact h.append (h.append (h.append (h.append (h.refl _) (h.cons _ hlist)) (h.refl _))
      (h.refl _)) (h.cons _ hc)
  | oracle =>
    exact h.append (h.append (h.append (h.refl _) (h.refl _)) (h.cons _ hlist)) (h.cons _ hc)

theorem delete (table tableAlias : Sql) {condition condition' : Sql}
    (hc : Like condition condition') :
    Like (d.delete table tableAlias condition) (d.delete table tableAlias condition') := by
  cases d with
  | sqlServer =>
    exact h.append (h.append (h.append (h.refl _) (h.refl _)) (h.refl _)) (h.cons _ hc)
  | oracle => exact h.append (h.append (h.refl _) (h.refl _)) (h.cons _ hc)

theorem batch (keys : List BatchVariable) (hp : List.Forall₂ Like parts parts') :
    Like (d.batch ⟨keys, parts⟩) (d.batch ⟨keys, parts'⟩) := by
  have hsame : ∀ lines : List Sql, List.Forall₂ Like lines lines := fun lines =>
    List.forall₂_same.2 fun line _ => h.refl line
  -- each line with a step is that step in a frame
  have hlines : ∀ frame : Sql → Sql, (∀ {sql sql'}, Like sql sql' → Like (frame sql) (frame sql')) →
      List.Forall₂ Like (parts.map frame) (parts'.map frame) := fun frame hframe =>
    List.forall₂_map_left_iff.2 (List.forall₂_map_right_iff.2 (hp.imp fun _ _ => hframe))
  unfold Dialect.batch
  refine h.joined "\n" ?_
  cases d with
  | sqlServer =>
    have hsteps := hlines (fun sql => sql ++ [.text ";"]) fun hs => h.append hs (h.refl _)
    exact List.rel_append (List.rel_append (List.rel_append (hsame _) hsteps) (hsame _)) (hsame _)
  | oracle =>
    have hsteps := hlines (fun sql => .text "  " :: sql ++ [.text ";"]) fun hs =>
      h.append (h.cons _ hs) (h.refl _)
    exact List.rel_append (List.rel_append (List.rel_append (List.rel_append (hsame _) hsteps)
      (hsame _)) (hsame _)) (hsame _)

theorem encrypt (keys : EncryptionKeys) (hs : Like sql sql') :
    Checked.Agree Like (d.encrypt sql keys) (d.encrypt sql' keys) := by
  cases d with
  | sqlServer => exact .ok (h.append (h.cons _ hs) (h.refl _))
  | oracle => exact .error _

end Templates

end Sql.Congruence

end RecordSql
