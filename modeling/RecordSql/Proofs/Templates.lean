import RecordSql.Proofs.BatchText

/-!
# What a template keeps of its parts

A template puts wording around its parts, and each dialect has an order of its own for them. What is
neither wording nor a name is found in the parts, and nowhere else: a value is bound, and text needs
an open key, just where a part says so.

So one statement for each template tells both what it binds and whether it needs its key. It is
about any choice of pieces that passes over wording, names and variables.

* An insert, an update and a delete have the values of their parts in the same order in both
  dialects. Only Oracle hands the key out, behind all of them.
* A batch has those of its fragments, and behind them the parameters that hand its variables out.
  What hands something out is an output, and of inserts only those that return their key have one.
* Finishing a statement drops semicolons and adds wording, and so leaves them as they are.
-/

namespace RecordSql

open Checked

variable {β : Type} {pick : Piece → Option β}

/-- A choice of pieces that passes over wording, names and variables. -/
structure Passes (pick : Piece → Option β) : Prop where
  wording : ∀ s, pick (.text s) = none
  name : ∀ s, pick (.name s) = none
  column : ∀ t s, pick (.column t s) = none
  target : ∀ t s, pick (.target t s) = none
  kept : ∀ s, pick (.variable s) = none

/-- The text of a piece that needs the symmetric key to be open. -/
def Piece.keyText? : Piece → Option String
  | .keyed s => some s
  | _ => none

theorem passes_binding? : Passes Piece.binding? :=
  ⟨fun _ => rfl, fun _ => rfl, fun _ _ => rfl, fun _ _ => rfl, fun _ => rfl⟩

theorem passes_keyText? : Passes Piece.keyText? :=
  ⟨fun _ => rfl, fun _ => rfl, fun _ _ => rfl, fun _ _ => rfl, fun _ => rfl⟩

namespace Sql

variable {sql : Sql} {parts : List Sql}

theorem needsKey_eq_false : sql.needsKey = false ↔ sql.filterMap Piece.keyText? = [] := by
  rw [needsKey, List.any_eq_false, List.filterMap_eq_nil_iff]
  refine forall_congr' fun p => imp_congr_right fun _ => ?_
  cases p with
  | keyed s => exact iff_of_false (by simp [Piece.isKeyed]) (by simp [Piece.keyText?])
  | _ => exact iff_of_true (by simp [Piece.isKeyed]) rfl

theorem filterMap_joined (hp : Passes pick) (separator : String) (parts : List Sql) :
    (joined separator parts).filterMap pick = parts.flatMap (List.filterMap pick) := by
  induction parts with
  | nil => rfl
  | cons part rest ih =>
    cases rest with
    | nil => exact (List.append_nil _).symm
    | cons next rest =>
      rw [joined, List.filterMap_append, List.filterMap_cons_none (hp.wording _), ih]
      · rfl
      · exact List.cons_ne_nil _ _

theorem filterMap_list (hp : Passes pick) (parts : List Sql) :
    (list parts).filterMap pick = parts.flatMap (List.filterMap pick) :=
  filterMap_joined hp ", " parts

theorem filterMap_table (hp : Passes pick) (name : String) : (table name).filterMap pick = [] := by
  rw [table, filterMap_joined hp, List.flatMap_map, List.flatMap_eq_nil_iff]
  intro part _
  exact List.filterMap_cons_none (hp.name part)

theorem filterMap_wrapped (hp : Passes pick) (s t : String) :
    List.filterMap pick (.text s :: sql ++ [.text t]) = sql.filterMap pick := by
  rw [List.filterMap_append, List.filterMap_cons_none (hp.wording s),
    List.filterMap_cons_none (hp.wording t), List.filterMap_nil, List.append_nil]

theorem filterMap_withoutSemicolons (hp : Passes pick) (sql : Sql) :
    sql.withoutSemicolons.filterMap pick = sql.filterMap pick := by
  induction sql using List.reverseRecOn with
  | nil => rfl
  | append_singleton init p ih =>
    by_cases ht : ∃ s, p = .text s
    · -- a text that is dropped has nothing of the kind in it
      obtain ⟨s, rfl⟩ := ht
      have htext : ∀ t, List.filterMap pick [.text t] = [] := fun t =>
        List.filterMap_cons_none (hp.wording t)
      rw [withoutSemicolons_text]
      split
      · rw [ih, List.filterMap_append, htext, List.append_nil]
      · rw [List.filterMap_append, List.filterMap_append, htext, htext]
    · rw [withoutSemicolons_of_ne_text init fun s he => ht ⟨s, he⟩]

end Sql

/-! ## Templates -/

/-- A select without a window keeps its parts in order. -/
theorem Builder.filterMap_plainSelect (hp : Passes pick) (select : PagedSelect) :
    (plainSelect select).filterMap pick =
      select.projection.filterMap pick ++ select.source.filterMap pick ++
        (Sql.whereSuffix select.filter).filterMap pick ++ select.orderBy.filterMap pick := by
  unfold plainSelect
  cases horder : select.orderBy.isEmpty with
  | true =>
    rw [List.isEmpty_iff.1 horder]
    simp [hp.wording]
  | false => simp [hp.wording]

/-- The column of the key that a new row gets, if something becomes of it. -/
def KeyReturn.column : KeyReturn → Sql
  | .omit => []
  | .return column _ => column
  | .capture column _ => column

/-- The parameter that a dialect hands the key of a new row out in. -/
def Dialect.handsOut : Dialect → KeyReturn → Sql
  | .oracle, .return _ (some output) => output
  | _, _ => []

namespace Dialect

variable {d : Dialect}

/-- A page binds what its filter binds, if its other parts bind nothing: their order does not
matter then. -/
theorem filterMap_paginate (hp : Passes pick) (select : PagedSelect) (w : Window)
    (hprojection : select.projection.filterMap pick = [])
    (hsource : select.source.filterMap pick = []) (horder : select.orderBy.filterMap pick = []) :
    (d.paginate select w).filterMap pick = (Sql.whereSuffix select.filter).filterMap pick := by
  cases d with
  | sqlServer =>
    simp [paginate, hp.wording, hprojection, hsource, horder]
  | oracle =>
    simp [paginate, hp.wording, hprojection, hsource, horder]

theorem filterMap_insertHead (hp : Passes pick) {parts : InsertParts}
    (ht : parts.table.filterMap pick = []) (hc : ∀ c ∈ parts.columns, c.filterMap pick = []) :
    (insertHead parts).filterMap pick = [] := by
  have hcolumns : (Sql.list parts.columns).filterMap pick = [] := by
    rw [Sql.filterMap_list hp, List.flatMap_eq_nil_iff]
    exact hc
  simp [insertHead, hp.wording, ht, hcolumns]

theorem filterMap_insertValues (hp : Passes pick) (parts : InsertParts) :
    (insertValues parts).filterMap pick = parts.values.flatMap (List.filterMap pick) := by
  rw [insertValues, Sql.filterMap_wrapped hp, Sql.filterMap_list hp]

/-- An insert binds its values, and behind them what hands its key out. -/
theorem filterMap_insert (hp : Passes pick) {parts : InsertParts} {key : KeyReturn}
    (ht : parts.table.filterMap pick = []) (hc : ∀ c ∈ parts.columns, c.filterMap pick = [])
    (hk : key.column.filterMap pick = []) :
    (d.insert parts key).filterMap pick =
      parts.values.flatMap (List.filterMap pick) ++ (d.handsOut key).filterMap pick := by
  have hhead := filterMap_insertHead hp ht hc
  have hvalues := filterMap_insertValues hp parts
  cases d with
  | sqlServer =>
    cases key with
    | «omit» => simp [insert, handsOut, hhead, hvalues]
    | «return» column output =>
      have hcolumn : column.filterMap pick = [] := hk
      simp [insert, handsOut, hp.wording, hhead, hvalues, hcolumn]
    | capture column name => simp [insert, handsOut, hp.wording, hp.kept, hhead, hvalues]
  | oracle =>
    cases key with
    | «omit» => simp [insert, handsOut, hhead, hvalues]
    | «return» column output =>
      have hcolumn : column.filterMap pick = [] := hk
      cases output with
      | none => simp [insert, handsOut, hhead, hvalues]
      | some output => simp [insert, handsOut, hp.wording, hhead, hvalues, hcolumn]
    | capture column name =>
      have hcolumn : column.filterMap pick = [] := hk
      simp [insert, handsOut, hp.wording, hp.kept, hhead, hvalues, hcolumn]

/-- An update binds what it assigns, and then what its condition binds. -/
theorem filterMap_update (hp : Passes pick) {table tableAlias condition : Sql}
    {assignments : List Sql} (ht : table.filterMap pick = [])
    (ha : tableAlias.filterMap pick = []) :
    (d.update table tableAlias assignments condition).filterMap pick =
      assignments.flatMap (List.filterMap pick) ++ condition.filterMap pick := by
  have hassignments := Sql.filterMap_list hp assignments
  cases d with
  | sqlServer => simp [update, hp.wording, ht, ha, hassignments]
  | oracle => simp [update, hp.wording, ht, ha, hassignments]

/-- A delete binds what its condition binds. -/
theorem filterMap_delete (hp : Passes pick) {table tableAlias condition : Sql}
    (ht : table.filterMap pick = []) (ha : tableAlias.filterMap pick = []) :
    (d.delete table tableAlias condition).filterMap pick = condition.filterMap pick := by
  cases d with
  | sqlServer => simp [delete, hp.wording, ht, ha]
  | oracle => simp [delete, hp.wording, ht, ha]

/-- What hands the variables of a batch out. -/
def outputs (d : Dialect) (keyVariables : List BatchVariable) : Sql :=
  match d with
  | .sqlServer => []
  | .oracle => (keyVariables.filterMap BatchVariable.output).flatten

theorem filterMap_headerLines (hp : Passes pick) (names : List String) :
    (d.headerLines names).flatMap (List.filterMap pick) = [] := by
  rw [List.flatMap_eq_nil_iff]
  intro line hline
  have hdeclare : ∀ opening closing : String, ∀ line ∈ names.map fun name =>
      ([.text opening, .variable name, .text closing] : Sql), line.filterMap pick = [] := by
    intro opening closing
    refine List.forall_mem_map.2 fun name _ => ?_
    simp [hp.wording, hp.kept]
  cases d with
  | sqlServer =>
    rcases List.mem_append.1 hline with h | h
    · rcases List.mem_pair.1 h with rfl | rfl
      · exact List.filterMap_cons_none (hp.wording _)
      · exact List.filterMap_cons_none (hp.wording _)
    · exact hdeclare _ _ line h
  | oracle =>
    rcases List.mem_append.1 hline with h | h
    · split at h
      · exact absurd h List.not_mem_nil
      · rcases List.mem_cons.1 h with rfl | h
        · exact List.filterMap_cons_none (hp.wording _)
        · exact hdeclare _ _ line h
    · rw [List.mem_singleton.1 h]
      exact List.filterMap_cons_none (hp.wording _)

theorem filterMap_closingLines (hp : Passes pick) (keyVariables : List BatchVariable) :
    (d.closingLines keyVariables).flatMap (List.filterMap pick) =
      (d.outputs keyVariables).filterMap pick := by
  cases d with
  | sqlServer =>
    rw [closingLines]
    split
    · rfl
    · rw [List.flatMap_singleton, Sql.filterMap_wrapped hp, Sql.filterMap_list hp, outputs,
        List.filterMap_nil, List.flatMap_eq_nil_iff]
      refine List.forall_mem_map.2 fun v _ => ?_
      simp [hp.wording, hp.kept]
  | oracle =>
    rw [closingLines, outputs, List.flatMap_append]
    induction keyVariables with
    | nil => simp [hp.wording]
    | cons v rest ih =>
      cases hv : v.output with
      | none => simpa [hv] using ih
      | some output => simpa [hv, hp.wording, hp.kept] using ih

/-- A batch binds what its fragments bind, and behind them what hands its variables out. -/
theorem filterMap_batch (hp : Passes pick) (parts : BatchParts) :
    (d.batch parts).filterMap pick =
      parts.fragments.flatMap (List.filterMap pick) ++
        (d.outputs parts.keyVariables).filterMap pick := by
  have hfragments : (parts.fragments.map d.fragmentLine).flatMap (List.filterMap pick) =
      parts.fragments.flatMap (List.filterMap pick) := by
    rw [List.flatMap_map]
    refine List.flatMap_congr fun fragment _ => ?_
    cases d with
    | sqlServer => simp [fragmentLine, hp.wording]
    | oracle => exact Sql.filterMap_wrapped hp _ _
  rw [batch, Sql.filterMap_joined hp, batchLines_eq, List.flatMap_append, List.flatMap_append,
    filterMap_headerLines hp, hfragments, List.flatMap_cons, filterMap_closingLines hp,
    List.filterMap_cons_none (hp.wording _)]
  rfl

end Dialect

/-! ## What is handed out -/

namespace Builder

variable {b : Builder} {e : Entity} {handling : KeyHandling} {steps : List BatchStep} {p : Piece}

/-- What hands a key out is an output, of a statement that returns its key. -/
theorem mem_handsOut (h : p ∈ b.dialect.handsOut (b.keyReturn e handling)) :
    handling = .return ∧ ∃ type, p = .bind (.output type) := by
  unfold keyReturn at h
  cases hd : b.dialect with
  | sqlServer =>
    rw [hd] at h
    exact absurd h List.not_mem_nil
  | oracle =>
    rw [hd] at h
    split at h
    · next key _ => exact ⟨rfl, key.dataType, List.mem_singleton.1 h⟩
    · exact absurd h List.not_mem_nil
    · exact absurd h List.not_mem_nil

theorem filterMap_keyReturn (hp : Passes pick) (handling : KeyHandling) :
    (b.keyReturn e handling).column.filterMap pick = [] := by
  unfold keyReturn
  split
  · exact List.filterMap_cons_none (hp.name _)
  · exact List.filterMap_cons_none (hp.name _)
  · rfl

/-- An insert binds its values, and behind them what hands its key out. -/
theorem filterMap_insert_keyReturn (hp : Passes pick) {columns : List Sql}
    (hc : ∀ c ∈ columns, c.filterMap pick = []) (values : List Sql) (handling : KeyHandling) :
    (b.dialect.insert ⟨Sql.table e.table, columns, values⟩
        (b.keyReturn e handling)).filterMap pick =
      values.flatMap (List.filterMap pick) ++
        (b.dialect.handsOut (b.keyReturn e handling)).filterMap pick :=
  Dialect.filterMap_insert hp (Sql.filterMap_table hp _) hc (filterMap_keyReturn hp handling)

theorem handsOut_of_ne_return (hh : handling ≠ .return) :
    b.dialect.handsOut (b.keyReturn e handling) = [] :=
  List.eq_nil_iff_forall_not_mem.2 fun _ hp => hh (mem_handsOut hp).1

theorem isOutput_handsOut :
    ∀ x ∈ (b.dialect.handsOut (b.keyReturn e handling)).bindings, x.isOutput = true := by
  intro x hx
  obtain ⟨p, hp, hpx⟩ := List.mem_filterMap.1 hx
  obtain ⟨_, type, rfl⟩ := mem_handsOut hp
  rw [← Option.some.inj hpx]
  rfl

/-- What hands the variables of a batch out is outputs. -/
theorem mem_outputs (h : p ∈ b.dialect.outputs (b.templateVariables steps)) :
    p = .bind (.output .integer) := by
  cases hd : b.dialect with
  | sqlServer =>
    rw [hd] at h
    exact absurd h List.not_mem_nil
  | oracle =>
    rw [hd] at h
    obtain ⟨output, houtput, hp⟩ := List.mem_flatten.1 h
    obtain ⟨v, hv, hvo⟩ := List.mem_filterMap.1 houtput
    obtain ⟨⟨_, name⟩, _, rfl⟩ := List.mem_map.1 hv
    have hone : output = [.bind (.output .integer)] := by
      simpa [batchVariable, hd, Dialect.returnsKeyInParameter, eq_comm] using hvo
    rw [hone] at hp
    exact List.mem_singleton.1 hp

theorem isOutput_outputs :
    ∀ x ∈ (b.dialect.outputs (b.templateVariables steps)).bindings, x.isOutput = true := by
  intro x hx
  obtain ⟨p, hp, hpx⟩ := List.mem_filterMap.1 hx
  rw [mem_outputs hp] at hpx
  rw [← Option.some.inj hpx]
  rfl

end Builder

/-! ## Finishing -/

/-- Opening a key adds wording only. -/
theorem Builder.filterMap_finish {b : Builder} {sql : Sql} {s : Statement} (hp : Passes pick)
    (h : b.finish sql = .ok s) : s.sql.filterMap pick = sql.filterMap pick := by
  rcases finish_cases h with ⟨_, rfl⟩ | ⟨_, _, keys, _, rfl⟩
  · rfl
  · exact (Sql.filterMap_wrapped hp _ _).trans (Sql.filterMap_withoutSemicolons hp sql)

end RecordSql
