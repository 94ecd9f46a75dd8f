import RecordSql.Proofs.Defaults
import RecordSql.Proofs.SafeNames
import RecordSql.Proofs.UnlinkedBatch

/-!
# The dialects differ in syntax only

Two builders for different dialects answer the same requests about entities without encrypted
fields, refuse the others for the same causes, and bind the same values in the same order. Oracle
has outputs behind them.

This is a likeness of the two builders: parts that bind the same values are put together to parts
that do.

* How a date is shown, the current time and the templates differ in wording, and wording binds
  nothing. The parts that the templates of a page put in another order bind nothing either, the
  filter apart.
* The variables of a batch differ in their names, and names bind nothing.
* A key that an insert hands out, and the variables that a batch does, are the outputs behind.
-/

namespace RecordSql

open Checked

/-- Both parts bind the same values in the same order. -/
def Sql.BindsAlike (sql sql' : Sql) : Prop := sql.bindings = sql'.bindings

/-- The second part binds what the first one does, and outputs behind it. -/
def Sql.BindsBefore (sql sql' : Sql) : Prop :=
  ∃ out, sql'.bindings = sql.bindings ++ out ∧ ∀ x ∈ out, x.isOutput = true

theorem Sql.BindsAlike.before {sql sql' : Sql} (h : sql.BindsAlike sql') : sql.BindsBefore sql' :=
  ⟨[], (List.append_nil _).symm ▸ h.symm, List.forall_mem_nil _⟩

namespace Sql

theorem congruence_bindsAlike : Sql.Congruence BindsAlike where
  refl _ := rfl
  append h hrest := by rw [BindsAlike, bindings_append, bindings_append, h, hrest]

/-- Lists of parts that bind alike bind the same values. -/
theorem flatMap_bindings_of_alike {parts parts' : List Sql}
    (h : List.Forall₂ BindsAlike parts parts') :
    parts.flatMap bindings = parts'.flatMap bindings :=
  flatMap_eq_of_forall₂ h

end Sql

namespace Dialect

variable {d d' : Dialect}

/-- A date is shown in words around its column. -/
theorem bindings_dateToString (column : Sql) :
    (d.dateToString column).bindings = column.bindings := by
  cases d <;> exact (Sql.bindings_append _ _).trans (List.append_nil _)

/-- Of a page only the filter binds anything. -/
theorem bindsAlike_paginate {projection projection' source orderBy : Sql}
    {filter filter' : Option Sql} (w : Window) (hf : Option.Rel Sql.BindsAlike filter filter')
    (hp : projection.bindings = []) (hp' : projection'.bindings = [])
    (hs : source.bindings = []) (ho : orderBy.bindings = []) :
    Sql.BindsAlike (d.paginate ⟨projection, source, filter, orderBy⟩ w)
      (d'.paginate ⟨projection', source, filter', orderBy⟩ w) := by
  have hpage : ∀ {d : Dialect} {select : PagedSelect}, select.projection.bindings = [] →
      select.source.bindings = [] → select.orderBy.bindings = [] →
      (d.paginate select w).bindings = (Sql.whereSuffix select.filter).bindings :=
    fun hp hs ho => filterMap_paginate passes_binding? _ w hp hs ho
  rw [Sql.BindsAlike, hpage hp hs ho, hpage hp' hs ho]
  exact Sql.congruence_bindsAlike.whereSuffix hf

theorem bindsAlike_update {table name : String} {assignments assignments' : List Sql}
    {condition condition' : Sql} (h : List.Forall₂ Sql.BindsAlike assignments assignments')
    (hc : condition.BindsAlike condition') :
    Sql.BindsAlike (d.update (Sql.table table) [.text name] assignments condition)
      (d'.update (Sql.table table) [.text name] assignments' condition') := by
  have hupdate : ∀ (d : Dialect) (assignments : List Sql) (condition : Sql),
      (d.update (Sql.table table) [.text name] assignments condition).bindings =
        assignments.flatMap Sql.bindings ++ condition.bindings :=
    fun _ _ _ => filterMap_update passes_binding? (Sql.filterMap_table passes_binding? _) rfl
  rw [Sql.BindsAlike, hupdate, hupdate, Sql.flatMap_bindings_of_alike h, hc]

theorem bindsAlike_delete {table name : String} {condition condition' : Sql}
    (hc : condition.BindsAlike condition') :
    Sql.BindsAlike (d.delete (Sql.table table) [.text name] condition)
      (d'.delete (Sql.table table) [.text name] condition') := by
  have hdelete : ∀ (d : Dialect) (condition : Sql),
      (d.delete (Sql.table table) [.text name] condition).bindings = condition.bindings :=
    fun _ _ => filterMap_delete passes_binding? (Sql.filterMap_table passes_binding? _) rfl
  rw [Sql.BindsAlike, hdelete, hdelete, hc]

end Dialect

namespace Builder

variable {b b' : Builder} {e : Entity}

/-- Inserts bind the same values, and then what hands their keys out. -/
theorem bindings_insert_keyReturn {columns values : List Sql} (handling : KeyHandling)
    (hc : ∀ c ∈ columns, Sql.bindings c = []) :
    (b.dialect.insert ⟨Sql.table e.table, columns, values⟩ (b.keyReturn e handling)).bindings =
      values.flatMap Sql.bindings ++ (b.dialect.handsOut (b.keyReturn e handling)).bindings :=
  filterMap_insert_keyReturn passes_binding? hc _ _

/-- A builder for SQL Server hands keys out in words. -/
theorem bindsBefore_insert (hd : b.dialect = .sqlServer) {columns values values' : List Sql}
    {handling handling' : KeyHandling} (hv : List.Forall₂ Sql.BindsAlike values values')
    (hc : ∀ c ∈ columns, Sql.bindings c = []) :
    Sql.BindsBefore
      (b.dialect.insert ⟨Sql.table e.table, columns, values⟩ (b.keyReturn e handling))
      (b'.dialect.insert ⟨Sql.table e.table, columns, values'⟩ (b'.keyReturn e handling')) := by
  have hnone : (b.dialect.handsOut (b.keyReturn e handling)).bindings = [] := by
    rw [hd]
    rfl
  refine ⟨(b'.dialect.handsOut (b'.keyReturn e handling')).bindings, ?_, isOutput_handsOut⟩
  rw [bindings_insert_keyReturn handling hc, bindings_insert_keyReturn handling' hc, hnone,
    List.append_nil, Sql.flatMap_bindings_of_alike hv]

/-- A key that is not returned is not handed out. -/
theorem bindsAlike_insert {columns values values' : List Sql} {handling handling' : KeyHandling}
    (hv : List.Forall₂ Sql.BindsAlike values values') (hc : ∀ c ∈ columns, Sql.bindings c = [])
    (hh : handling ≠ .return) (hh' : handling' ≠ .return) :
    Sql.BindsAlike
      (b.dialect.insert ⟨Sql.table e.table, columns, values⟩ (b.keyReturn e handling))
      (b'.dialect.insert ⟨Sql.table e.table, columns, values'⟩ (b'.keyReturn e handling')) := by
  rw [Sql.BindsAlike, bindings_insert_keyReturn handling hc, bindings_insert_keyReturn handling' hc,
    handsOut_of_ne_return hh, handsOut_of_ne_return hh', Sql.flatMap_bindings_of_alike hv]

/-- Batches bind what their fragments do, and then what hands their variables out. -/
theorem bindsBefore_batch (hd : b.dialect = .sqlServer) {steps steps' : List BatchStep}
    {fragments fragments' : List Sql} (h : List.Forall₂ Sql.BindsAlike fragments fragments') :
    Sql.BindsBefore (b.dialect.batch ⟨b.templateVariables steps, fragments⟩)
      (b'.dialect.batch ⟨b'.templateVariables steps', fragments'⟩) := by
  have hbatch : ∀ (b : Builder) (steps : List BatchStep) (fragments : List Sql),
      (b.dialect.batch ⟨b.templateVariables steps, fragments⟩).bindings =
        fragments.flatMap Sql.bindings ++
          (b.dialect.outputs (b.templateVariables steps)).bindings :=
    fun _ _ _ => Dialect.filterMap_batch passes_binding? _
  have hnone : (b.dialect.outputs (b.templateVariables steps)).bindings = [] := by
    rw [hd]
    rfl
  refine ⟨(b'.dialect.outputs (b'.templateVariables steps')).bindings, ?_, isOutput_outputs⟩
  rw [hbatch, hbatch, hnone, List.append_nil, Sql.flatMap_bindings_of_alike h]

end Builder

/-! ## Likeness of two dialects -/

/-- **A builder for SQL Server and any other bind the same values**, in like parts and with outputs
behind them. -/
def Likeness.dialects {b b' : Builder} (hd : b.dialect = .sqlServer) : Likeness b b' where
  loose := False
  Like := Sql.BindsAlike
  Body := Sql.BindsBefore
  Named := fun _ _ => True
  congruence := Sql.congruence_bindsAlike
  masked := fun hloose => hloose.elim
  body := Sql.BindsAlike.before
  named := fun _ => rfl
  batchVariable := fun _ => trivial
  date := fun column => (Dialect.bindings_dateToString column).trans
    (Dialect.bindings_dateToString column).symm
  currentTime := fun _ => rfl
  paginate := fun w _ hf hp hp' hs ho => Dialect.bindsAlike_paginate w hf hp hp' hs ho
  insert := fun hv hc hh => by
    refine ⟨fun hne => Builder.bindsAlike_insert hv hc hne ?_, Builder.bindsBefore_insert hd hv hc⟩
    cases hh with
    | «return» => exact hne
    | capture _ => exact fun h => nomatch h
    | «omit» => exact hne
  update := Dialect.bindsAlike_update
  delete := Dialect.bindsAlike_delete
  batch := fun hf _ => Builder.bindsBefore_batch hd hf

namespace Builder

/-! ## Answers -/

section Answers

variable (b b' : Builder) {r : Request}

/-- **Bodies bind the same values**, or are refused for the same cause. -/
theorem agree_checkedBody (hd : b.dialect = .sqlServer)
    (hplain : ∀ e ∈ r.entities, ¬ e.HasEncrypted) :
    Agree Sql.BindsBefore (b.checkedBody r) (b'.checkedBody r) := by
  have hpaired : Request.Paired (Likeness.dialects hd : Likeness b b') r (r.mapDefaults id) :=
    Request.paired_mapDefaults id _ (fun e he => .inr (hplain e he)) fun _ _ => rfl
  rw [Request.mapDefaults_id] at hpaired
  exact ((Likeness.dialects hd).checkedBody_alike hpaired).agree not_false

/-- Nothing is encrypted, so finishing has nothing to do. -/
theorem agree_run (hd : b.dialect = .sqlServer) (hplain : ∀ e ∈ r.entities, ¬ e.HasEncrypted) :
    Agree (fun s s' => s.sql.BindsBefore s'.sql) (b.run r) (b'.run r) := by
  have hfinish : ∀ {b : Builder} {sql : Sql}, b.checkedBody r = .ok sql →
      b.finish sql = .ok ⟨sql, b.style⟩ := fun hok =>
    finish_eq_ok.2 (.inl ⟨needsKey_body hplain (body_of_checkedBody hok).2, rfl⟩)
  rw [run_eq_finish, run_eq_finish]
  refine (agree_checkedBody b b' hd hplain).with_ok.bind fun sql sql' ⟨hbinds, hok, hok'⟩ => ?_
  rw [hfinish hok, hfinish hok']
  exact .ok hbinds

end Answers

/-- Bindings in front keep the names of their numbers. -/
theorem parameters_of_bindsBefore {s s' : Statement} (h : s.sql.BindsBefore s'.sql) :
    ∃ outputs, s'.parameters = s.parameters ++ outputs ∧ ∀ p ∈ outputs, p.isOutput = true := by
  obtain ⟨out, hout, houtputs⟩ := h
  refine ⟨(out.zipIdx s.sql.bindings.length).map fun p => ⟨p.1, parameterName p.2⟩, ?_, ?_⟩
  · rw [Statement.parameters, Sql.parameters, hout, List.zipIdx_append, List.map_append,
      Nat.zero_add]
    rfl
  · refine List.forall_mem_map.2 fun p hp => ?_
    exact houtputs p.1 (List.fst_mem_of_mem_zipIdx hp)

/-- **The dialects differ in syntax only.** Where no field is encrypted, a builder for SQL Server
answers a request just when any other builder does, one for Oracle above all, and otherwise both
refuse it with the same error. The parameters of the other are those for SQL Server, with outputs
behind them at most. -/
theorem run_dialects (b b' : Builder) (hd : b.dialect = .sqlServer) {r : Request}
    (hplain : ∀ e ∈ r.entities, ¬ e.HasEncrypted) :
    ((∃ s, b.run r = .ok s) ↔ ∃ s', b'.run r = .ok s') ∧
    (∀ err, b.run r = .error err ↔ b'.run r = .error err) ∧
    ∀ s s', b.run r = .ok s → b'.run r = .ok s' →
      ∃ outputs, s'.parameters = s.parameters ++ outputs ∧ ∀ p ∈ outputs, p.isOutput = true := by
  have hagree := agree_run b b' hd hplain
  exact ⟨hagree.isOk_iff, fun _ => hagree.error_iff, fun _ _ hs hs' =>
    parameters_of_bindsBefore (hagree.related hs hs')⟩

theorem run_dialects_orderLine :
    (∃ s s' outputs, Builder.default.run (.batch [order, orderLine]) = .ok s ∧
      (ofConfig (.new .oracle)).run (.batch [order, orderLine]) = .ok s' ∧
      s'.parameters = s.parameters ++ outputs ∧ (∀ p ∈ outputs, p.isOutput = true) ∧
      s'.outputs.map Parameter.name = ["p2", "p3"]) ∧
    ∃ err, Builder.default.run (.update order.entity) = .error err ∧
      (ofConfig (.new .oracle)).run (.update order.entity) = .error err := by
  have hplain : ∀ e ∈ [order.entity, orderLine.entity], ¬ e.HasEncrypted := by
    unfold Entity.HasEncrypted
    decide
  constructor
  · obtain ⟨s, hs⟩ : ∃ s, Builder.default.run (.batch [order, orderLine]) = .ok s := ⟨_, rfl⟩
    have hboth := run_dialects Builder.default (ofConfig (.new .oracle)) rfl
      (r := .batch [order, orderLine]) hplain
    obtain ⟨s', hs'⟩ := hboth.1.1 ⟨s, hs⟩
    obtain ⟨outputs, hparameters, houtputs⟩ := hboth.2.2 s s' hs hs'
    refine ⟨s, s', outputs, hs, hs', hparameters, houtputs, ?_⟩
    obtain rfl := Except.ok.inj hs'
    rfl
  · obtain ⟨err, herr⟩ : ∃ err, Builder.default.run (.update order.entity) = .error err := ⟨_, rfl⟩
    have hone : ∀ e ∈ (Request.update order.entity).entities, ¬ e.HasEncrypted :=
      List.forall_mem_singleton.2 (hplain _ List.mem_cons_self)
    exact ⟨err, herr, ((run_dialects _ (ofConfig (.new .oracle)) rfl hone).2.1 err).1 herr⟩

end Builder

end RecordSql
