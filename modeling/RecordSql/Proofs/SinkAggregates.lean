import RecordSql.Proofs.Names
import RecordSql.Proofs.SinkSelects
import RecordSql.Writer.Aggregate

/-!
# Aggregates along with a sink

A column that is grouped by, or called a function on, is read once along the sink and stands in the
text up to three times: under its name, in the grouping and in a condition. The mark of the one
reading is the mark of all of them, so what a condition on a function adds to the sink is its value
alone.
-/

namespace RecordSql

open Checked

attribute [local simp] Sql.bindings_append Sql.bindings_joined String.append_assoc Piece.isKeyed

variable {b : Builder} {e : Entity} {style : Style} {σ : Sink} {d : Dialect} {n : Nat}

/-- A call that binds nothing, as it is written. -/
def AggregateCall.written (style : Style) (call : AggregateCall) : WrittenCall :=
  ⟨call.column, call.sql.write style, call.target⟩

/-! ## Renderings of the parts -/

namespace Rendering

/-- A group column is written as its expression and its item. -/
def ofGroup (style : Style) : Rendering (Sql × Item) (String × String) :=
  ⟨fun term => term.2.sql, fun n term =>
    (term.1.writeFrom style n, term.2.sql.writeFrom style n)⟩

/-- A call is written as its text. -/
def ofCall (style : Style) : Rendering AggregateCall WrittenCall :=
  ⟨AggregateCall.sql, fun n call => ⟨call.column, call.sql.writeFrom style n, call.target⟩⟩

/-- A condition on a call adds what it binds. -/
def ofHaving (style : Style) : Rendering Sql String :=
  ⟨fun condition => condition.bindings.map .bind, Sql.writeFrom style⟩

end Rendering

@[simp]
theorem Sql.bindings_map_bind (xs : List Binding) : bindings (xs.map .bind) = xs := by
  rw [bindings, List.filterMap_map]
  exact List.filterMap_some

@[simp]
theorem Sql.needsKey_map_bind (xs : List Binding) : needsKey (xs.map .bind) = false := by
  rw [needsKey, List.any_map, List.any_eq_false]
  exact fun _ _ => Bool.false_ne_true

theorem Rendering.texts_ofHaving (conditions : List Sql) :
    (ofHaving style).texts n conditions = (ofSql style).texts n conditions := by
  have h := map_texts (R := ofHaving style) (S := ofSql style) (f := id) (g := id)
    (fun _ _ => rfl) (fun _ => Sql.bindings_map_bind _) conditions n
  rwa [List.map_id, List.map_id] at h

namespace Checked

variable {α β : Type}

theorem ofFilter_bind (x : Except FilterFault α) (f : α → Except FilterFault β) :
    ofFilter (x >>= f) = ofFilter x >>= fun a => ofFilter (f a) := by
  cases x with
  | ok a => rfl
  | error fault => rfl

/-- The cause of a refusal is named member by member. -/
theorem ofFilter_mapM (f : α → Except FilterFault β) (xs : List α) :
    ofFilter (xs.mapM f) = xs.mapM fun a => ofFilter (f a) := by
  induction xs with
  | nil => rfl
  | cons a rest ih =>
    rw [List.mapM_cons, List.mapM_cons, ← ih, ofFilter_bind]
    refine bind_congr fun b => ?_
    rw [ofFilter_bind]
    rfl

end Checked

namespace Builder

theorem renders_writeGroupTerm (name : String) :
    Renders b.dialect (.ofGroup b.style) (b.groupTerm e name) (b.writeGroupTerm e name) := by
  intro σ hσ
  refine Writing.check_bind_run fun target _ => ?_
  refine (renders_writeOperand target).bind_run hσ fun operand _ _ => ?_
  refine Rendered.pure ?_ (Sink.after_congr ?_ ?_)
  · simp [Rendering.ofGroup, writeFrom_labelled]
  · simp [Rendering.ofGroup, Item.sql, Sql.as]
  · simp [Rendering.ofGroup, Item.sql, Sql.as]

theorem renders_writeRollupItems (rollup : Option String) :
    Renders b.dialect (Rendering.ofItem b.style).list (b.rollupItems e rollup)
      (b.writeRollupItems e rollup) := by
  intro σ hσ
  cases rollup with
  | none => exact Rendered.pure rfl (Sink.after_of_inert rfl rfl).symm
  | some name =>
    refine Writing.check_bind_run fun target _ => ?_
    refine (renders_writeOperand target).bind_run hσ fun operand _ _ => ?_
    refine Rendered.pure ?_ (Sink.after_congr ?_ ?_)
    · simp [Rendering.ofItem, Rendering.texts, writeFrom_labelled]
    · simp [Rendering.ofItem, Item.sql, Sql.as]
    · simp [Rendering.ofItem, Item.sql, Sql.as]

theorem renders_writeCall (c : AggregateColumn) :
    Renders b.dialect (.ofCall b.style) (b.aggregateCall e c) (b.writeCall e c) := by
  intro σ hσ
  unfold aggregateCall writeCall
  cases c.field with
  | none =>
    dsimp only
    split
    · exact Rendered.pure (by simp [Rendering.ofCall]) (Sink.after_of_inert rfl rfl).symm
    · exact .error _
  | some name =>
    refine Writing.check_bind_run fun target _ => ?_
    refine (renders_writeOperand target).bind_run hσ fun operand _ _ => ?_
    refine Rendered.pure ?_ (Sink.after_congr ?_ ?_)
    · simp [Rendering.ofCall]
    · simp [Rendering.ofCall]
    · simp [Rendering.ofCall]

theorem renders_writeHaving {call : AggregateCall} (hb : call.sql.bindings = []) :
    Renders b.dialect (Rendering.ofHaving b.style).option (ofFilter (havingCondition call))
      (writeHaving (call.written b.style)) := by
  intro σ hσ
  unfold havingCondition writeHaving AggregateCall.written
  cases call.column.having? with
  | none => exact Rendered.none
  | some condition =>
    obtain ⟨operator, value⟩ := condition
    have htype : comparedType call.column.function call.target = havingType call := rfl
    dsimp only
    rw [htype, ofFilter_bind]
    refine Writing.check_bind_run fun comparison _ => ?_
    rw [ofFilter_bind]
    refine Writing.check_bind_run fun value _ => ?_
    rw [StateT.run_bind, Writing.run_bindInput b.style _ _ hσ]
    refine Rendered.pure ?_ (Sink.after_congr ?_ ?_)
    · simp [Rendering.ofHaving, hb, Sql.writeFrom_of_unbound hb, toString]
    · simp [Rendering.ofHaving, hb]
    · simp [Rendering.ofHaving, hb]

theorem renders_writeSource (source : AggregateSource) :
    Renders b.dialect (Rendering.ofSql b.style).option (b.sourceClause e source)
      (b.writeSource e source) := by
  cases source with
  | «example» combinator => exact renders_writeExample combinator
  | listing l => exact renders_writeFilter l

/-! ## What an aggregate needs the key for -/

theorem needsKey_callItems {a : Aggregation} {calls : List AggregateCall}
    (h : a.columns.mapM (b.aggregateCall e) = .ok calls) :
    (callItems a calls).any (fun item => item.sql.needsKey) =
      calls.any fun call => call.sql.needsKey := by
  -- every call has an alias
  have hlength : calls.length ≤ a.resolvedAliases.length := by
    rw [← (mapM_eq_ok.1 h).length_eq, a.resolvedAliases_forall₂.length_eq]
  rw [← List.map_fst_zip hlength, List.any_map, callItems, List.map_fst_zip hlength, List.any_map]
  refine congrArg (List.any _) (funext fun p => ?_)
  simp [Item.sql, Sql.as]

theorem needsKey_groups {names : List String} {groups : List (Sql × Item)}
    (h : names.mapM (b.groupTerm e) = .ok groups) :
    (groups.map Prod.fst).any Sql.needsKey = groups.any fun term => term.2.sql.needsKey := by
  rw [List.any_map, Bool.eq_iff_iff, List.any_eq_true, List.any_eq_true]
  refine exists_congr fun term => and_congr_right fun hm => ?_
  obtain ⟨name, _, hterm⟩ := exists_of_mem_mapM h hm
  obtain ⟨target, _, operand, _, rfl⟩ := groupTerm_eq_ok.1 hterm
  simp [Item.sql, Sql.as]

theorem needsKey_groupSuffix (rollup : Bool) (terms : List Sql) :
    (groupSuffix rollup terms).needsKey = terms.any Sql.needsKey := by
  cases terms with
  | nil => rfl
  | cons term terms => cases rollup <;> simp [groupSuffix, Sql.list]

theorem bindings_havingSuffix (conditions : List Sql) :
    (havingSuffix conditions).bindings = conditions.flatMap Sql.bindings := by
  cases conditions with
  | nil => rfl
  | cons condition conditions => exact bindings_join .and (condition :: conditions)

theorem needsKey_havingSuffix (conditions : List Sql) :
    (havingSuffix conditions).needsKey = conditions.any Sql.needsKey := by
  cases conditions with
  | nil => rfl
  | cons condition conditions => simp [havingSuffix, needsKey_join]

/-- A condition on a call needs the key only if the call does. -/
theorem needsKey_havings {calls : List AggregateCall} {having : List (Option Sql)}
    (h : calls.mapM havingCondition = .ok having) :
    (having.filterMap id).any Sql.needsKey = true →
      calls.any (fun call => call.sql.needsKey) = true := by
  simp only [List.any_eq_true, List.mem_filterMap]
  rintro ⟨condition, ⟨_, hm, rfl⟩, hk⟩
  obtain ⟨call, hcall, hcondition⟩ := exists_of_mem_mapM h hm
  rcases havingCondition_eq_ok.1 hcondition with ⟨_, h⟩ | ⟨_, _, _, _, _, _, _, h⟩
  · exact absurd h (by simp)
  · obtain rfl := Option.some.inj h
    exact ⟨call, hcall, by simpa using hk⟩

/-! ## Statements -/

theorem writeFrom_groupSuffix {terms : List Sql} (h : ∀ term ∈ terms, term.bindings = [])
    (rollup : Bool) :
    (groupSuffix rollup terms).writeFrom style n =
      groupText rollup (terms.map (Sql.writeFrom style n)) := by
  have htexts : (Sql.list terms).writeFrom style n =
      commas (terms.map (Sql.writeFrom style n)) := by
    rw [Sql.writeFrom_list, Rendering.texts_of_unbound h]
    rfl
  cases terms with
  | nil => rfl
  | cons term terms =>
    cases rollup with
    | false => simp [groupSuffix, groupText, htexts]
    | true => simp [groupSuffix, groupText, htexts]

theorem writeFrom_havingSuffix (conditions : List Sql) :
    (havingSuffix conditions).writeFrom style n =
      havingsText ((Rendering.ofSql style).texts n conditions) := by
  cases conditions with
  | nil => rfl
  | cons condition conditions =>
    rw [havingSuffix, if_neg (by simp), Sql.writeFrom_text, writeFrom_join]
    rfl

/-- The text of an aggregate from those of its parts. -/
theorem writeFrom_aggregate {items : List Item} {source : Sql} {filter : Option Sql} {rollup : Bool}
    {terms conditions : List Sql} (hi : ∀ item ∈ items, item.sql.bindings = [])
    (hs : source.bindings = []) (ht : ∀ term ∈ terms, term.bindings = []) :
    Sql.writeFrom style n (.text "SELECT " :: Sql.items items ++ .text " " :: source ++
        Sql.whereSuffix filter ++ groupSuffix rollup terms ++ havingSuffix conditions) =
      "SELECT " ++ commas (items.map fun item => item.sql.write style) ++ " " ++
        source.write style ++ whereText (filter.map (Sql.writeFrom style n)) ++
        groupText rollup (terms.map (Sql.write style)) ++
        havingsText ((Rendering.ofSql style).texts
          (n + (Sql.bindings (filter.elim [] id)).length) conditions) := by
  have hitems : (Sql.items items).bindings = [] :=
    Sql.bindings_list_eq_nil (List.forall_mem_map.2 hi)
  have hsource : ∀ n, source.writeFrom style n = source.write style := Sql.writeFrom_of_unbound hs
  have hgroup : (groupSuffix rollup terms).bindings = [] := bindings_groupSuffix ht
  have hwhere : (Sql.whereSuffix filter).bindings = Sql.bindings (filter.elim [] id) := by
    cases filter <;> rfl
  have hitemTexts : ∀ n, (Sql.items items).writeFrom style n =
      commas (items.map fun item => item.sql.write style) := by
    intro n
    rw [writeFrom_items hi]
    exact congrArg commas
      (List.map_congr_left fun item hm => Sql.writeFrom_of_unbound (hi item hm) n)
  have hgroupTexts : ∀ n, (groupSuffix rollup terms).writeFrom style n =
      groupText rollup (terms.map (Sql.write style)) := by
    intro n
    rw [writeFrom_groupSuffix ht]
    exact congrArg _ (List.map_congr_left fun term hm => Sql.writeFrom_of_unbound (ht term hm) n)
  simp [hitems, hitemTexts, hs, hsource, hgroup, hgroupTexts, hwhere, writeFrom_whereSuffix,
    writeFrom_havingSuffix]

/-- The items of an aggregate as they are written. -/
theorem write_aggregateItems {a : Aggregation} {groups : List (Sql × Item)} {rollup : List Item}
    {calls : List AggregateCall} :
    (groups.map Prod.snd ++ rollup ++ callItems a calls).map (fun item => item.sql.write style) =
      groups.map (fun term => term.2.sql.write style) ++
        rollup.map (fun item => item.sql.write style) ++
        ((calls.map (AggregateCall.written style)).zip a.resolvedAliases).map fun (call, label) =>
          style.labelled call.text label := by
  rw [List.map_append, List.map_append, List.map_map, callItems, List.map_map, List.zip_map_left,
    List.map_map]
  exact congrArg _ (List.map_congr_left fun p _ => writeFrom_labelled p.2)

/-- The parts of an aggregate that a run has found. -/
structure AggregateParts (b : Builder) (e : Entity) (a : Aggregation) (groups : List (Sql × Item))
    (rollup : List Item) (calls : List AggregateCall) : Prop where
  groups : (groupNames a).mapM (b.groupTerm e) = .ok groups
  rollup : b.rollupItems e a.rollup = .ok rollup
  calls : a.columns.mapM (b.aggregateCall e) = .ok calls

namespace AggregateParts

variable {a : Aggregation} {groups : List (Sql × Item)} {rollup : List Item}
  {calls : List AggregateCall}

theorem bindings_group (h : AggregateParts b e a groups rollup calls) :
    ∀ term ∈ groups, Sql.bindings term.1 = [] ∧ term.2.sql.bindings = [] := by
  intro term hm
  obtain ⟨name, _, hterm⟩ := exists_of_mem_mapM h.groups hm
  exact bindings_groupTerm hterm

theorem bindings_call (h : AggregateParts b e a groups rollup calls) :
    ∀ call ∈ calls, call.sql.bindings = [] := by
  intro call hm
  obtain ⟨c, _, hc⟩ := exists_of_mem_mapM h.calls hm
  exact bindings_aggregateCall hc

/-- Nothing is bound before the clause is written. -/
theorem bindings_columns (style : Style) (h : AggregateParts b e a groups rollup calls) :
    Sql.bindings (groups.flatMap (Rendering.ofGroup style).sql) = [] ∧
      Sql.bindings (rollup.flatMap (Rendering.ofItem style).sql) = [] ∧
        Sql.bindings (calls.flatMap (Rendering.ofCall style).sql) = [] := by
  simp only [Sql.bindings_flatMap, List.flatMap_eq_nil_iff]
  exact ⟨fun term hm => (h.bindings_group term hm).2, bindings_rollupItems h.rollup,
    h.bindings_call⟩

theorem texts_groups (h : AggregateParts b e a groups rollup calls) (n : Nat) :
    (Rendering.ofGroup style).texts n groups =
      groups.map fun term => (term.1.write style, term.2.sql.write style) :=
  Rendering.texts_of_const (fun term hm n => Prod.ext
    (Sql.writeFrom_of_unbound (h.bindings_group term hm).1 n)
    (Sql.writeFrom_of_unbound (h.bindings_group term hm).2 n)) n

theorem texts_rollup (h : AggregateParts b e a groups rollup calls) (n : Nat) :
    (Rendering.ofItem style).texts n rollup = rollup.map fun item => item.sql.write style :=
  Rendering.texts_of_const (fun item hm n =>
    Sql.writeFrom_of_unbound (bindings_rollupItems h.rollup item hm) n) n

theorem texts_calls (h : AggregateParts b e a groups rollup calls) (n : Nat) :
    (Rendering.ofCall style).texts n calls = calls.map (AggregateCall.written style) := by
  refine Rendering.texts_of_const (fun call hm n => ?_) n
  rw [AggregateCall.written, ← Sql.writeFrom_of_unbound (h.bindings_call call hm) n]
  rfl

/-- **What is read once is marked once**, though it may stand in the text more than once. -/
theorem after_aggregate (style : Style) (h : AggregateParts b e a groups rollup calls)
    {filter : Option Sql} {having : List (Option Sql)} {rows : Sql}
    (hh : calls.mapM havingCondition = .ok having) (hr : rows.bindings = []) :
    σ.after (groups.flatMap (Rendering.ofGroup style).sql ++
        rollup.flatMap (Rendering.ofItem style).sql ++ calls.flatMap (Rendering.ofCall style).sql ++
          filter.elim [] id ++ (having.filterMap id).flatMap (Rendering.ofHaving style).sql ++
            rows) =
      σ.after (.text "SELECT " :: Sql.items (groups.map Prod.snd ++ rollup ++ callItems a calls) ++
        .text " " :: rows ++ Sql.whereSuffix filter ++
          groupSuffix a.rollup.isSome (groups.map Prod.fst) ++
            havingSuffix (having.filterMap id)) := by
  obtain ⟨hgroup, hitem, hcall⟩ := h.bindings_columns style
  have hitems := bindings_aggregateItems h.groups h.rollup h.calls
  have hterms : (groupSuffix a.rollup.isSome (groups.map Prod.fst)).bindings = [] :=
    bindings_groupSuffix (List.forall_mem_map.2 fun term hm => (h.bindings_group term hm).1)
  have hwhere : (Sql.whereSuffix filter).bindings = Sql.bindings (filter.elim [] id) ∧
      (Sql.whereSuffix filter).needsKey = Sql.needsKey (filter.elim [] id) := by
    cases filter with
    | none => exact ⟨rfl, rfl⟩
    | some clause => exact ⟨rfl, rfl⟩
  have hhaving : Sql.needsKey ((having.filterMap id).flatMap (Rendering.ofHaving style).sql) =
      false := by
    rw [Sql.needsKey_flatMap, List.any_eq_false]
    exact fun _ _ => by rw [Rendering.ofHaving, Sql.needsKey_map_bind]; exact Bool.false_ne_true
  refine Sink.after_congr ?_ ?_
  · simp only [Sql.bindings_append, hgroup, hitem, hcall, hr, hitems, hterms, Sql.bindings_text,
      List.nil_append, List.append_nil, hwhere.1, bindings_havingSuffix, Sql.bindings_flatMap]
    simp [Rendering.ofHaving]
  · -- a group column stands in the text twice, and what a condition reads is read by its call
    have hfold : ∀ g r c f w k : Bool, (k = true → c = true) →
        (g || r || c || f || false || w) =
          (false || (g || r || c) || (false || w) || f || g || k) := by decide
    simp only [Sql.needsKey_append, Sql.needsKey_flatMap] at hhaving ⊢
    rw [hhaving, Sql.needsKey_cons, Sql.needsKey_cons, needsKey_sqlItems, List.any_append,
      List.any_append, needsKey_callItems h.calls, hwhere.2, needsKey_groupSuffix,
      needsKey_groups h.groups, needsKey_havingSuffix, List.any_map]
    exact hfold _ _ _ _ _ _ (needsKey_havings hh)

end AggregateParts

theorem renders_writeAggregate (a : Aggregation) (source : AggregateSource) :
    Renders b.dialect (.ofSql b.style) (b.aggregateBody e a source)
      (b.writeAggregate e a source) := by
  intro σ hσ
  unfold aggregateBody writeAggregate
  cases a.groupBy.isEmpty && a.rollup.isNone && a.columns.isEmpty with
  | true => exact .error _
  | false =>
    refine (Renders.mapM fun name _ => renders_writeGroupTerm name).bind_run hσ
      fun groups hgroups hσ => ?_
    refine (renders_writeRollupItems a.rollup).bind_run hσ fun rollup hrollup hσ => ?_
    refine (Renders.mapM fun c _ => renders_writeCall c).bind_run hσ fun calls hcalls hσ => ?_
    refine (renders_writeSource source).bind_run hσ fun filter _ hσ => ?_
    have h : AggregateParts b e a groups rollup calls := ⟨hgroups, hrollup, hcalls⟩
    have hhaving : Renders b.dialect (Rendering.ofHaving b.style).option.list
        (ofFilter (calls.mapM havingCondition))
        ((calls.map (AggregateCall.written b.style)).mapM writeHaving) := by
      rw [ofFilter_mapM, List.mapM_map]
      exact .mapM fun call hm => renders_writeHaving (h.bindings_call call hm)
    rw [Rendering.list_text, h.texts_calls]
    refine hhaving.bind_run hσ fun having hh hσ => ?_
    refine renders_sourceText.bind_run hσ fun rows hrows _ => ?_
    obtain ⟨hgroup, hitem, hcall⟩ := h.bindings_columns b.style
    have hsource := bindings_fromClause hrows
    have hitems := bindings_aggregateItem hgroups hrollup hcalls
    have hterms : ∀ term ∈ groups.map Prod.fst, Sql.bindings term = [] :=
      List.forall_mem_map.2 fun term hm => (h.bindings_group term hm).1
    refine Rendered.pure ?_ ?_
    · refine Eq.trans ?_ (writeFrom_aggregate hitems hsource hterms).symm
      simp only [write_aggregateItems, Rendering.list_text, h.texts_groups, h.texts_rollup,
        Rendering.ofSql_text, Rendering.option_text, Sql.writeFrom_of_unbound hsource,
        Rendering.texts_filterMap, Sink.count_after, hgroup, hitem, hcall, Rendering.list_sql,
        Rendering.option_sql, List.length_nil, Nat.add_zero, List.map_map, Function.comp_def]
      rw [Rendering.texts_ofHaving]
      rfl
    · rw [Sink.after_after, Sink.after_after, Sink.after_after, Sink.after_after, Sink.after_after]
      refine Eq.trans ?_ (h.after_aggregate b.style (ofFilter_eq_ok.1 hh) hsource)
      simp only [Rendering.list_sql, Rendering.flatMap_option, List.append_assoc]
      rfl

end Builder

end RecordSql
