import RecordSql.Proofs.SameRows

/-!
# What conditions compare with

A statement that reads binds values in its conditions only: in the `WHERE` that picks the rows, and
in the `HAVING` that picks the groups. What a condition binds comes from one of two places. A text
that is searched for as a part is bound as it is; any other value was given, is not null, and has
been coerced to the type of what it is compared with. The parts around the conditions bind nothing,
so this is all that a reading statement binds.

The argument follows the builder: the condition of a column, the clause that is made of conditions,
and the statement that has the clause.
-/

namespace RecordSql

open Checked

variable {b : Builder} {e : Entity} {P Q : Binding → Prop} {a c sql : Sql} {x : Binding}

/-! ## One property of all that is bound -/

namespace Sql

/-- All that the SQL binds has a property. -/
def OnlyBinds (P : Binding → Prop) (sql : Sql) : Prop := ∀ x ∈ sql.bindings, P x

namespace OnlyBinds

theorem of_unbound (h : sql.bindings = []) : sql.OnlyBinds P := by
  rw [OnlyBinds, h]
  exact List.forall_mem_nil _

theorem mono (h : sql.OnlyBinds P) (hP : ∀ x, P x → Q x) : sql.OnlyBinds Q := fun x hx =>
  hP x (h x hx)

end OnlyBinds

@[simp] theorem onlyBinds_nil : OnlyBinds P [] := .of_unbound rfl

@[simp] theorem onlyBinds_text {text : String} :
    OnlyBinds P (.text text :: sql) ↔ OnlyBinds P sql := Iff.rfl

@[simp] theorem onlyBinds_bind : OnlyBinds P (.bind x :: sql) ↔ P x ∧ OnlyBinds P sql :=
  List.forall_mem_cons

@[simp] theorem onlyBinds_append : OnlyBinds P (a ++ c) ↔ OnlyBinds P a ∧ OnlyBinds P c := by
  rw [OnlyBinds, bindings_append]
  exact List.forall_mem_append

theorem OnlyBinds.joined {parts : List Sql} (separator : String)
    (h : ∀ part ∈ parts, OnlyBinds P part) : (joined separator parts).OnlyBinds P :=
  joined_induction onlyBinds_nil (fun _ _ ha hc => onlyBinds_append.2 ⟨ha, onlyBinds_text.2 hc⟩) h

end Sql

/-! ## Conditions -/

/-- What a condition compares with: a text that is searched for as a part, or what was coerced. -/
inductive Binding.Compared : Binding → Prop where
  | search (text : String) : Compared (.search text)
  | value {json : Json} {value : Value} {type : DataType} : json.isNull = false →
      Value.coerce json type = .ok value → Compared (.input value type)

open Binding (Compared)

/-- A condition hands nothing out. -/
theorem Binding.Compared.isInput (h : x.Compared) : x.isOutput = false := by
  cases h with
  | search text => rfl
  | value _ _ => rfl

/-- A text of a search is no null. -/
theorem Predicate.compared_typed {type : DataType} {text : String} {value : Value}
    (h : typed type text = .ok value) : (Condition.bound type value).OnlyBinds Compared :=
  Sql.onlyBinds_bind.2 ⟨.value rfl h, Sql.onlyBinds_nil⟩

/-- **A condition compares with what its search has coerced.** -/
theorem Predicate.compared_coerce {type : DataType} {operand : Sql} (ho : operand.bindings = [])
    {p : Predicate} {condition : Condition} (h : p.coerce type = .ok condition) :
    (condition.sql operand type).OnlyBinds Compared := by
  have hoperand : operand.OnlyBinds Compared := .of_unbound ho
  replace h := types_of_coerce h
  induction h with
  | isNull | isNotNull => simpa [Condition.sql] using hoperand
  | not _ ih => simpa [Condition.sql] using ih
  | atLeast hv | atMost hv | equals hv =>
    simp [Condition.sql, hoperand, compared_typed hv]
  | between hl hu => simp [Condition.sql, hoperand, compared_typed hl, compared_typed hu]
  | @list items values hvalues =>
    have hitems : (Sql.list (values.map (Condition.bound type))).OnlyBinds Compared := by
      refine .joined _ (List.forall_mem_map.2 fun value hm => ?_)
      obtain ⟨text, _, htyped⟩ := exists_left_of_forall₂ hvalues hm
      exact compared_typed htyped
    simp [Condition.sql, hoperand, hitems]
  | @like text => simp [Condition.sql, hoperand, Compared.search text]

namespace Builder

theorem compared_keyCondition {replacement : Option String}
    (h : keyCondition e replacement = .ok sql) : sql.OnlyBinds Compared := by
  obtain ⟨key, _, ⟨name, _, rfl⟩ | ⟨_, json, hj, value, hv, rfl⟩⟩ := keyCondition_eq_ok.1 h
  · exact .of_unbound rfl
  · have hvalue : Compared (.input value key.dataType) :=
      .value (Entity.isNull_of_present? hj) hv
    exact List.forall_mem_singleton.2 hvalue

theorem compared_columnCondition {name : String} {search : Predicate}
    (h : b.columnCondition e name search = .ok sql) : sql.OnlyBinds Compared := by
  obtain ⟨target, condition, operand, _, hc, ho, rfl⟩ := columnCondition_eq_ok.1 h
  exact Predicate.compared_coerce (bindings_operand ho) hc

theorem compared_searchCondition {name : String} {search : Predicate}
    (h : b.searchCondition e search name = .ok (some sql)) : sql.OnlyBinds Compared := by
  obtain ⟨target, _, ⟨_, _, hnone⟩ | ⟨condition, hc, operand, ho, hsome⟩⟩ :=
    searchCondition_eq_ok.1 h
  · exact absurd hnone (by simp)
  · obtain rfl := Option.some.inj hsome
    exact Predicate.compared_coerce (bindings_operand ho) hc

theorem compared_exampleCondition {f : Field} (h : b.exampleCondition e f = .ok (some sql)) :
    sql.OnlyBinds Compared := by
  rcases exampleCondition_eq_ok.1 h with ⟨_, hnone⟩ | ⟨search, condition, operand, _, hc, ho, hsome⟩
  · exact absurd hnone (by simp)
  · obtain rfl := Option.some.inj hsome
    have hoperand : b.operand (.field f) = .ok operand := ho
    exact Predicate.compared_coerce (bindings_operand hoperand) hc

/-- The condition on a function compares with what was given. -/
theorem compared_havingCondition {call : AggregateCall} (hb : call.sql.bindings = [])
    (h : havingCondition call = .ok (some sql)) : sql.OnlyBinds Compared := by
  rcases havingCondition_eq_ok.1 h with ⟨_, hnone⟩ | ⟨_, json, hj, comparison, _, value, hv, hsome⟩
  · exact absurd hnone (by simp)
  · obtain rfl := Option.some.inj hsome
    have hcompared := Compared.value (of_having? hj |>.2.2) hv
    simp [Sql.OnlyBinds.of_unbound hb, hcompared]

/-! ## Clauses -/

theorem compared_combine {columns searches : List Sql}
    (hc : ∀ c ∈ columns, Sql.OnlyBinds Compared c)
    (hs : ∀ c ∈ searches, Sql.OnlyBinds Compared c) :
    (Sql.whereSuffix (combine columns searches)).OnlyBinds Compared := by
  have hcolumns := Sql.OnlyBinds.joined (" " ++ Combinator.and.keyword ++ " ") hc
  have hsearches := Sql.OnlyBinds.joined (" " ++ Combinator.or.keyword ++ " ") hs
  cases columns with
  | nil =>
    cases searches with
    | nil => exact Sql.onlyBinds_nil
    | cons search searches => exact hsearches
  | cons column columns =>
    cases searches with
    | nil => exact hcolumns
    | cons search searches =>
      simp [combine, Sql.whereSuffix, Combinator.join, hcolumns, hsearches]

theorem compared_filterClause {l : Listing} {clause : Option Sql}
    (h : b.filterClause e l = .ok clause) : (Sql.whereSuffix clause).OnlyBinds Compared := by
  obtain ⟨columns, searches, hcolumns, hsearches, rfl⟩ := filterClause_eq_ok.1 h
  refine compared_combine (fun condition hm => ?_) fun condition hm => ?_
  · obtain ⟨_, _, hcondition⟩ := exists_of_mem_mapM hcolumns hm
    exact compared_columnCondition hcondition
  · rcases searchConditions_eq_ok.1 hsearches with ⟨_, rfl⟩ | ⟨search, _, conditions, hall, rfl⟩
    · exact absurd hm List.not_mem_nil
    · obtain ⟨_, _, hcondition⟩ := exists_of_mem_filterMap_id hall hm
      exact compared_searchCondition hcondition

theorem compared_filterClause? {l : Option Listing} {clause : Option Sql}
    (h : b.filterClause? e l = .ok clause) : (Sql.whereSuffix clause).OnlyBinds Compared := by
  cases l with
  | none =>
    obtain rfl := Except.ok.inj h
    exact Sql.onlyBinds_nil
  | some l => exact compared_filterClause h

theorem compared_exampleClause {combinator : Combinator} {clause : Option Sql}
    (h : b.exampleClause e combinator = .ok clause) :
    (Sql.whereSuffix clause).OnlyBinds Compared := by
  obtain ⟨conditions, hall, rfl⟩ := exampleClause_eq_ok.1 h
  split
  · exact Sql.onlyBinds_nil
  · refine Sql.onlyBinds_text.2 (.joined _ fun condition hm => ?_)
    obtain ⟨_, _, hcondition⟩ := exists_of_mem_filterMap_id hall hm
    exact compared_exampleCondition hcondition

theorem compared_sourceClause {source : AggregateSource} {clause : Option Sql}
    (h : b.sourceClause e source = .ok clause) :
    (Sql.whereSuffix clause).OnlyBinds Compared := by
  cases source with
  | «example» combinator => exact compared_exampleClause h
  | listing l => exact compared_filterClause h

/-! ## Statements that read -/

theorem compared_plainSelect {projection source : Sql} {filter : Option Sql} {orderBy : Sql}
    (hp : projection.bindings = []) (hs : source.bindings = [])
    (hf : (Sql.whereSuffix filter).OnlyBinds Compared) (ho : orderBy.bindings = []) :
    (plainSelect ⟨projection, source, filter, orderBy⟩).OnlyBinds Compared := by
  have hbindings := filterMap_plainSelect passes_binding? ⟨projection, source, filter, orderBy⟩
  unfold Sql.bindings at hp hs ho
  rw [hp, hs, ho, List.append_nil] at hbindings
  rw [Sql.OnlyBinds, Sql.bindings, hbindings]
  exact hf

theorem compared_selectBody {l : Option Listing} (h : b.selectBody e l = .ok sql) :
    sql.OnlyBinds Compared := by
  obtain ⟨items, hitems, source, hsource, filter, hfilter, terms, hterms, hpaged⟩ :=
    selectBody_eq_ok.1 h
  have hp := bindings_projection hitems
  have hs := bindings_fromClause hsource
  have hf := compared_filterClause? hfilter
  have ht := bindings_sortTerms? hterms
  rcases pagedSelect_eq_ok.1 hpaged with ⟨_, rfl⟩ | ⟨_, _, w, _, orderBy, ho, rfl⟩
  · exact compared_plainSelect hp hs hf (Sql.bindings_list_eq_nil ht)
  · have hpage : (b.dialect.paginate ⟨Sql.items items, source, filter, orderBy⟩ w).bindings =
        (Sql.whereSuffix filter).bindings :=
      Dialect.filterMap_paginate passes_binding? _ w hp hs (bindings_windowOrder ht ho)
    rw [Sql.OnlyBinds, hpage]
    exact hf

theorem compared_countBody {l : Option Listing} (h : b.countBody e l = .ok sql) :
    sql.OnlyBinds Compared := by
  obtain ⟨source, hs, filter, hf, rfl⟩ := countBody_eq_ok.1 h
  exact compared_plainSelect rfl (bindings_fromClause hs) (compared_filterClause? hf) rfl

theorem compared_selectByKeyBody (h : b.selectByKeyBody e = .ok sql) :
    sql.OnlyBinds Compared := by
  obtain ⟨items, hp, source, hs, condition, hc, rfl⟩ := selectByKeyBody_eq_ok.1 h
  exact compared_plainSelect (bindings_projection hp) (bindings_fromClause hs)
    (Sql.onlyBinds_text.2 (compared_keyCondition hc)) rfl

theorem compared_selectByExampleBody {combinator : Combinator}
    (h : b.selectByExampleBody e combinator = .ok sql) : sql.OnlyBinds Compared := by
  obtain ⟨items, hp, source, hs, filter, hf, rfl⟩ := selectByExampleBody_eq_ok.1 h
  exact compared_plainSelect (bindings_projection hp) (bindings_fromClause hs)
    (compared_exampleClause hf) rfl

theorem compared_aggregateBody {aggregation : Aggregation} {source : AggregateSource}
    (h : b.aggregateBody e aggregation source = .ok sql) : sql.OnlyBinds Compared := by
  obtain ⟨_, groups, hg, rollup, hr, calls, hc, filter, hfilter, having, hhaving, rows, hrows,
    rfl⟩ := aggregateBody_eq_ok.1 h
  have hitems := Sql.OnlyBinds.of_unbound (P := Compared) (bindings_aggregateItems hg hr hc)
  have hrows := Sql.OnlyBinds.of_unbound (P := Compared) (bindings_fromClause hrows)
  have hgroups :
      (groupSuffix aggregation.rollup.isSome (groups.map Prod.fst)).OnlyBinds Compared := by
    refine .of_unbound (bindings_groupSuffix (List.forall_mem_map.2 fun term hm => ?_))
    obtain ⟨_, _, hterm⟩ := exists_of_mem_mapM hg hm
    exact (bindings_groupTerm hterm).1
  have hconditions : (havingSuffix (having.filterMap id)).OnlyBinds Compared := by
    unfold havingSuffix
    split
    · exact Sql.onlyBinds_nil
    · refine Sql.onlyBinds_text.2 (.joined _ fun condition hm => ?_)
      obtain ⟨call, hcall, hcondition⟩ := exists_of_mem_filterMap_id hhaving hm
      obtain ⟨_, _, hcall⟩ := exists_of_mem_mapM hc hcall
      exact compared_havingCondition (bindings_aggregateCall hcall) hcondition
  simp only [Sql.onlyBinds_append, Sql.onlyBinds_text]
  exact ⟨⟨⟨⟨hitems, hrows⟩, compared_sourceClause hfilter⟩, hgroups⟩, hconditions⟩

end Builder

end RecordSql
