import RecordSql.Proofs.Meaning
import RecordSql.Proofs.Templates

/-!
# What binds nothing

Values are bound by conditions and in written rows. The other parts of a statement are names and
wording: its table with the joins, the columns of its result, its order and its groups. So they can
stand anywhere in the text without moving the number of a parameter.
-/

namespace RecordSql

open Checked

variable {b : Builder} {e : Entity} {sql : Sql}

theorem Target.bindings_column (target : Target) : target.column.bindings = [] := by
  cases target with
  | field f => rfl
  | joined index column => rfl

theorem bindings_fromClause (h : fromClause e = .ok sql) : sql.bindings = [] := by
  obtain ⟨joins, hjoins, rfl⟩ := fromClause_eq_ok.1 h
  have htable := Sql.filterMap_table passes_binding?
  have hjoin : ∀ join ∈ joins, Sql.bindings join = [] := by
    intro join hm
    obtain ⟨t, _, ht⟩ := exists_of_mem_mapM hjoins hm
    obtain ⟨target, _, rfl⟩ := joinClause_eq_ok.1 ht
    rw [Sql.bindings_append, target.bindings_column, List.append_nil, Sql.bindings_append]
    exact List.append_eq_nil_iff.2 ⟨htable _, rfl⟩
  have hall : Sql.bindings joins.flatten = [] := by
    rw [Sql.bindings, List.filterMap_flatten, List.flatten_eq_nil_iff]
    exact List.forall_mem_map.2 hjoin
  rw [Sql.bindings_append]
  exact List.append_eq_nil_iff.2 ⟨htable _, hall⟩

theorem Sql.bindings_list_eq_nil {parts : List Sql} (h : ∀ part ∈ parts, part.bindings = []) :
    (list parts).bindings = [] := by
  rw [bindings, filterMap_list passes_binding?, List.flatMap_eq_nil_iff]
  exact h

theorem JoinedTable.bindings_items (t : JoinedTable) :
    ∀ item ∈ t.items, item.sql.bindings = [] := by
  refine List.forall_mem_map.2 fun c _ => ?_
  unfold JoinedTable.item
  cases c.label with
  | none => rfl
  | some label => rfl

namespace Builder

theorem bindings_fieldItem {f : Field} {item : Item} (h : b.fieldItem f = .ok item) :
    item.sql.bindings = [] := by
  rcases fieldItem_eq_ok.1 h with ⟨_, rfl⟩ | ⟨_, value, hv, rfl⟩ | ⟨_, _, rfl⟩
  · cases b.dialect with
    | sqlServer => rfl
    | oracle => rfl
  · rw [Item.sql, Sql.bindings_append]
    rcases readField_eq_ok.1 hv with ⟨_, rfl⟩ | ⟨_, _, _, rfl⟩
    · rfl
    · rfl
  · split
    · rfl
    · rfl

theorem bindings_projection {items : List Item} (h : b.projection e = .ok items) :
    (Sql.items items).bindings = [] := by
  obtain ⟨fields, hfields, _, rfl⟩ := projection_eq_ok.1 h
  refine Sql.bindings_list_eq_nil (List.forall_mem_map.2 fun item hm => ?_)
  rcases List.mem_append.1 hm with hm | hm
  · obtain ⟨f, _, hf⟩ := exists_of_mem_mapM hfields hm
    exact bindings_fieldItem hf
  · obtain ⟨t, _, ht⟩ := List.mem_flatMap.1 hm
    exact t.bindings_items item ht

theorem bindings_sortTerms? {l : Option Listing} {terms : List Sql}
    (h : b.sortTerms? e l = .ok terms) : ∀ term ∈ terms, Sql.bindings term = [] := by
  intro term hm
  obtain ⟨column, direction, hterm⟩ := exists_of_mem_sortTerms? h hm
  obtain ⟨target, _, operand, ho, rfl⟩ := sortTerm_eq_ok.1 hterm
  rw [Sql.bindings_append, bindings_operand ho]
  rfl

theorem bindings_windowOrder {terms : List Sql} (h : ∀ term ∈ terms, Sql.bindings term = [])
    (ho : windowOrder e terms = .ok sql) : sql.bindings = [] := by
  rcases windowOrder_eq_ok.1 ho with ⟨_, key, _, rfl⟩ | ⟨_, rfl⟩
  · rfl
  · exact Sql.bindings_list_eq_nil h

/-! ## Aggregates -/

theorem bindings_groupTerm {name : String} {term : Sql × Item} (h : b.groupTerm e name = .ok term) :
    term.1.bindings = [] ∧ term.2.sql.bindings = [] := by
  obtain ⟨target, _, operand, ho, rfl⟩ := groupTerm_eq_ok.1 h
  have hoperand := bindings_operand ho
  exact ⟨hoperand, by rw [Item.sql, Sql.bindings_append, hoperand]; rfl⟩

theorem bindings_rollupItems {rollup : Option String} {items : List Item}
    (h : b.rollupItems e rollup = .ok items) : ∀ item ∈ items, item.sql.bindings = [] := by
  rcases rollupItems_eq_ok.1 h with ⟨_, rfl⟩ | ⟨name, _, target, _, operand, ho, rfl⟩
  · exact List.forall_mem_nil _
  · refine List.forall_mem_singleton.2 ?_
    rw [Item.sql, Sql.bindings_append, Sql.bindings_wrapped, bindings_operand ho]
    rfl

theorem bindings_aggregateCall {c : AggregateColumn} {call : AggregateCall}
    (h : b.aggregateCall e c = .ok call) : call.sql.bindings = [] := by
  rcases aggregateCall_eq_ok.1 h with ⟨_, _, rfl⟩ | ⟨_, _, target, _, operand, ho, rfl⟩
  · rfl
  · rw [Sql.bindings_wrapped, bindings_operand ho]

/-- Only conditions on rows and on functions bind anything in an aggregate. -/
theorem bindings_aggregateItem {a : Aggregation} {groups : List (Sql × Item)} {rollup : List Item}
    {calls : List AggregateCall} (hg : (groupNames a).mapM (b.groupTerm e) = .ok groups)
    (hr : b.rollupItems e a.rollup = .ok rollup)
    (hc : a.columns.mapM (b.aggregateCall e) = .ok calls) :
    ∀ item ∈ groups.map Prod.snd ++ rollup ++ callItems a calls, item.sql.bindings = [] := by
  intro item hm
  rcases List.mem_append.1 hm with hm | hm
  · rcases List.mem_append.1 hm with hm | hm
    · obtain ⟨term, ht, rfl⟩ := List.mem_map.1 hm
      obtain ⟨name, _, hterm⟩ := exists_of_mem_mapM hg ht
      exact (bindings_groupTerm hterm).2
    · exact bindings_rollupItems hr item hm
  · obtain ⟨⟨call, label⟩, hp, rfl⟩ := List.mem_map.1 hm
    obtain ⟨c, _, hcall⟩ := exists_of_mem_mapM hc (List.of_mem_zip hp).1
    rw [Item.sql, Sql.bindings_append, bindings_aggregateCall hcall]
    rfl

theorem bindings_aggregateItems {a : Aggregation} {groups : List (Sql × Item)} {rollup : List Item}
    {calls : List AggregateCall} (hg : (groupNames a).mapM (b.groupTerm e) = .ok groups)
    (hr : b.rollupItems e a.rollup = .ok rollup)
    (hc : a.columns.mapM (b.aggregateCall e) = .ok calls) :
    (Sql.items (groups.map Prod.snd ++ rollup ++ callItems a calls)).bindings = [] :=
  Sql.bindings_list_eq_nil (List.forall_mem_map.2 (bindings_aggregateItem hg hr hc))

theorem bindings_groupSuffix {rollup : Bool} {terms : List Sql}
    (h : ∀ term ∈ terms, Sql.bindings term = []) : (groupSuffix rollup terms).bindings = [] := by
  have hlist := Sql.bindings_list_eq_nil h
  unfold groupSuffix
  cases terms.isEmpty with
  | true => rfl
  | false =>
    cases rollup with
    | true =>
      simp only [Bool.false_eq_true, if_false, if_true]
      rw [Sql.bindings_wrapped, hlist]
    | false => exact hlist

end Builder

end RecordSql
