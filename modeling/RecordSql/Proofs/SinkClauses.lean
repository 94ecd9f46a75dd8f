import RecordSql.Proofs.EmptyLists
import RecordSql.Proofs.Sinks
import RecordSql.Proofs.Templates
import RecordSql.Writer.Where

/-!
# Clauses along with a sink

Every clause is rendered: what is written along with the sink is the text of the pieces, numbered on
from the sink, and the sink takes in what the pieces bind. A column that is read stands in the
condition behind it, so the mark it leaves is one of the text; the one condition without a column is
that of a range without bounds, which no predicate is typed as.
-/

namespace RecordSql

open Checked

attribute [local simp] Sql.bindings_append Sql.bindings_joined String.append_assoc Piece.isKeyed

variable {b : Builder} {e : Entity} {style : Style} {σ : Sink} {n : Nat}

/-! ## Names -/

namespace Sql

@[simp]
theorem bindings_table (name : String) : (table name).bindings = [] :=
  filterMap_table passes_binding? name

@[simp]
theorem needsKey_table (name : String) : (table name).needsKey = false :=
  needsKey_eq_false.2 (filterMap_table passes_keyText? name)

@[simp]
theorem writeFrom_table (name : String) :
    (table name).writeFrom style n = style.qualifiedTable name := by
  rw [table, writeFrom_joined, Rendering.texts_of_unbound, List.map_map]
  · refine congrArg (String.intercalate ".") (List.map_congr_left fun part _ => ?_)
    exact (writeFrom_name part []).trans String.append_empty
  · exact List.forall_mem_map.2 fun part _ => rfl

theorem writeFrom_wrapped (s : String) (sql : Sql) (t : String) :
    writeFrom style n (.text s :: sql ++ [.text t]) = s ++ sql.writeFrom style n ++ t := by
  simp

theorem writeFrom_list (parts : List Sql) :
    (list parts).writeFrom style n = commas ((Rendering.ofSql style).texts n parts) :=
  writeFrom_joined _ parts

end Sql

/-- A statement that binds and marks what its parts do leaves the sink that they leave. -/
theorem Sink.after_of_passes {a c : Sql}
    (h : ∀ {β : Type} {pick : Piece → Option β}, Passes pick →
      a.filterMap pick = c.filterMap pick) : σ.after a = σ.after c := by
  refine after_congr (h passes_binding?) ?_
  have hkeys := h passes_keyText?
  cases hc : c.needsKey with
  | false => rw [Sql.needsKey_eq_false, hkeys, ← Sql.needsKey_eq_false, hc]
  | true =>
    rw [← Bool.not_eq_false, Sql.needsKey_eq_false] at hc ⊢
    rwa [hkeys]

/-! ## Bound values -/

namespace Writing

theorem run_push (style : Style) (x : Binding) (hσ : σ.dialect = style.dialect) :
    (modifyGet fun σ : Sink => σ.push x : Writing String).run σ =
      .ok (style.dialect.placeholder (parameterName σ.count), σ.after [.bind x]) := by
  rw [(renders_push style x).run_eq hσ]
  simp

theorem run_bindInput (style : Style) (value : Value) (type : DataType)
    (hσ : σ.dialect = style.dialect) :
    (bindInput value type).run σ =
      .ok (style.dialect.placeholder (parameterName σ.count),
        σ.after [.bind (.input value type)]) :=
  run_push style _ hσ

theorem run_bindSearch (style : Style) (text : String) (hσ : σ.dialect = style.dialect) :
    (bindSearch text).run σ =
      .ok (style.dialect.placeholder (parameterName σ.count), σ.after [.bind (.search text)]) :=
  run_push style _ hσ

/-- Values that are bound one after the other. -/
theorem run_bindInputs (style : Style) (items : List Value) (type : DataType)
    (hσ : σ.dialect = style.dialect) :
    (items.mapM fun item => bindInput item type).run σ =
      .ok ((Rendering.ofSql style).texts σ.count (items.map (Condition.bound type)),
        σ.after (items.flatMap (Condition.bound type))) := by
  have hall : Renders style.dialect (Rendering.ofSql style).list
      (items.mapM fun item => .ok (Condition.bound type item))
      (items.mapM fun item => bindInput item type) :=
    .mapM fun item _ => renders_push style (.input item type)
  have hok : (items.mapM fun item => .ok (Condition.bound type item) : Checked (List Sql)) =
      .ok (items.map (Condition.bound type)) := List.mapM_pure
  rw [hok] at hall
  rw [hall.run_eq hσ, Rendering.list_text, Rendering.list_sql, List.flatMap_map]
  rfl

end Writing

/-! ## Conditions -/

namespace Condition

variable {operand : Sql} {text : String} {type : DataType}

/-- **A condition is rendered behind the column that it reads.** -/
theorem run_write (hb : operand.bindings = []) (ht : ∀ n, operand.writeFrom style n = text)
    (hσ : σ.dialect = style.dialect) {c : Condition} (hc : c.Bounded) :
    (c.write text type).run (σ.after operand) =
      .ok ((c.sql operand type).writeFrom style σ.count, σ.after (c.sql operand type)) := by
  have hinput : ∀ (a : Sql) value, (Writing.bindInput value type).run (σ.after a) =
      .ok (style.dialect.placeholder (parameterName (σ.count + a.bindings.length)),
        σ.after (a ++ [.bind (.input value type)])) := by
    intro a value
    have hdialect : (σ.after a).dialect = style.dialect := hσ
    rw [Writing.run_bindInput style value type hdialect, Sink.count_after, Sink.after_after]
  induction c with
  | isNull => exact Sink.ok_after (by simp [sql, ht]) (by simp [sql]) (by simp [sql])
  | isNotNull => exact Sink.ok_after (by simp [sql, ht]) (by simp [sql]) (by simp [sql])
  | not inner ih =>
    rw [write, StateT.run_bind, ih hc]
    exact Sink.ok_after (by simp [sql]) (by simp [sql]) (by simp [sql])
  | range lower upper =>
    cases lower with
    | none =>
      cases upper with
      | none => exact absurd hc (by simp [Bounded])
      | some upper =>
        rw [write, StateT.run_bind, hinput]
        exact Sink.ok_after (by simp [sql, bound, ht, hb]) (by simp [sql, bound])
          (by simp [sql, bound])
    | some lower =>
      cases upper with
      | none =>
        rw [write, StateT.run_bind, hinput]
        exact Sink.ok_after (by simp [sql, bound, ht, hb]) (by simp [sql, bound])
          (by simp [sql, bound])
      | some upper =>
        simp only [write, StateT.run_bind, hinput, ok_bind]
        exact Sink.ok_after (by simp [sql, bound, ht, hb]) (by simp [sql, bound, hb])
          (by simp [sql, bound])
  | oneOf items =>
    have hdialect : (σ.after operand).dialect = style.dialect := hσ
    rw [write, StateT.run_bind, Writing.run_bindInputs style items type hdialect, Sink.after_after]
    refine Sink.ok_after ?_ ?_ ?_
    · simp [sql, ht, hb, Sql.list, Sql.writeFrom_joined, commas]
    · simp [sql, Sql.list, List.flatMap_map]
    · simp [sql, Sql.list, Function.comp_def]
  | like pattern =>
    have hdialect : (σ.after operand).dialect = style.dialect := hσ
    rw [write, StateT.run_bind, Writing.run_bindSearch style pattern hdialect, Sink.after_after]
    exact Sink.ok_after (by simp [sql, ht, hb]) (by simp [sql]) (by simp [sql])
  | equals value =>
    rw [write, StateT.run_bind, hinput]
    exact Sink.ok_after (by simp [sql, bound, ht, hb]) (by simp [sql, bound]) (by simp [sql, bound])

end Condition

namespace Builder

/-! ## Reading -/

theorem renders_writeField (f : Field) :
    Renders b.dialect (.ofSql b.style) (b.readField f) (b.writeField f) := by
  intro σ hσ
  unfold readField writeField
  by_cases hf : f.dataType = .encrypted
  · simp only [if_pos hf]
    refine Writing.check_bind_run fun keys _ => ?_
    rw [Writing.markEncryption_bind_run]
    cases b.dialect with
    | oracle => exact .error _
    | sqlServer =>
      refine Rendered.pure (by simp) ?_
      rw [Sink.marked_eq Dialect.decryptOpening]
      exact Sink.after_congr rfl (by simp)
  · simp only [if_neg hf]
    exact Rendered.pure (by simp) (Sink.after_of_inert rfl rfl).symm

theorem renders_writeOperand (target : Target) :
    Renders b.dialect (.ofSql b.style) (b.operand target) (b.writeOperand target) := by
  cases target with
  | field f => exact renders_writeField f
  | joined index column =>
    exact fun σ _ => Rendered.pure (by simp [Style.reference])
      (Sink.after_of_inert rfl rfl).symm

/-- A column is read, and its condition is rendered behind it. -/
theorem agree_condition (target : Target) {operand : Sql} {condition : Condition} {type : DataType}
    (ho : b.operand target = .ok operand) (hσ : σ.dialect = b.dialect) (hc : condition.Bounded) :
    Agree (Rendered (.ofSql b.style) σ) (.ok (condition.sql operand type))
      ((condition.write ((Rendering.ofSql b.style).text σ.count operand) type).run
        (σ.after operand)) := by
  have hrun : (condition.write (operand.writeFrom b.style σ.count) type).run (σ.after operand) =
      .ok ((condition.sql operand type).writeFrom b.style σ.count,
        σ.after (condition.sql operand type)) :=
    Condition.run_write (bindings_operand ho)
      (fun _ => by simp only [Sql.writeFrom_of_unbound (bindings_operand ho)]) hσ hc
  rw [Rendering.ofSql_text, hrun]
  exact .ok rfl

/-! ## Listings -/

theorem renders_writeColumnCondition (name : String) (search : Predicate) :
    Renders b.dialect (.ofSql b.style) (b.columnCondition e name search)
      (b.writeColumnCondition e name search) := by
  intro σ hσ
  refine Writing.check_bind_run fun target _ => ?_
  refine Writing.check_bind_run fun condition hc => ?_
  refine (renders_writeOperand target).bind_run hσ fun operand ho _ => ?_
  exact agree_condition target ho hσ
    (Predicate.bounded_coerce (mapError_eq_ok.1 (ofFilter_eq_ok.1 hc)))

theorem renders_writeSearchCondition (search : Predicate) (name : String) :
    Renders b.dialect (Rendering.ofSql b.style).option (b.searchCondition e search name)
      (b.writeSearchCondition e search name) := by
  intro σ hσ
  refine Writing.check_bind_run fun target _ => ?_
  cases hc : search.coerce target.dataType with
  | error fault => exact Rendered.none
  | ok condition =>
    refine (renders_writeOperand target).bind_run hσ fun operand ho _ => ?_
    exact Rendered.some (agree_condition target ho hσ (Predicate.bounded_coerce hc))

/-- The conditions that are there are rendered as such. -/
theorem Renders.filterMap {α α' : Type} {d : Dialect} {R : Rendering α α'}
    {x : Checked (List (Option α))} {w : Writing (List (Option α'))}
    (h : Renders d R.option.list x w) :
    Renders d R.list (x >>= fun conditions => pure (conditions.filterMap id))
      (w >>= fun conditions => pure (conditions.filterMap id)) := by
  intro σ hσ
  refine h.bind_run hσ fun conditions _ _ => ?_
  refine Rendered.pure (Rendering.texts_filterMap conditions) ?_
  exact congrArg σ.after (Rendering.flatMap_option conditions)

theorem renders_writeSearchConditions (l : Listing) :
    Renders b.dialect (Rendering.ofSql b.style).list (b.searchConditions e l)
      (b.writeSearchConditions e l) := by
  unfold searchConditions writeSearchConditions
  cases l.search with
  | none => exact fun σ _ => Rendered.pure rfl (Sink.after_of_inert rfl rfl).symm
  | some search =>
    exact Renders.filterMap (.mapM fun name _ => renders_writeSearchCondition search name)

/-- Conditions that are joined have their texts joined. -/
theorem writeFrom_join (c : Combinator) (conditions : List Sql) :
    (c.join conditions).writeFrom style n =
      c.joinTexts ((Rendering.ofSql style).texts n conditions) :=
  Sql.writeFrom_joined _ conditions

theorem bindings_join (c : Combinator) (conditions : List Sql) :
    (c.join conditions).bindings = conditions.flatMap Sql.bindings :=
  Sql.bindings_joined _

theorem needsKey_join (c : Combinator) (conditions : List Sql) :
    (c.join conditions).needsKey = conditions.any Sql.needsKey :=
  Sql.needsKey_joined _ conditions

/-- Both groups are put together alike as pieces and as texts. -/
theorem combineTexts_texts (columns searches : List Sql) :
    combineTexts ((Rendering.ofSql style).texts n columns)
        ((Rendering.ofSql style).texts (n + (columns.flatMap Sql.bindings).length) searches) =
      (combine columns searches).map (Sql.writeFrom style n) := by
  cases columns with
  | nil =>
    cases searches with
    | nil => rfl
    | cons s searches => exact congrArg some (writeFrom_join .or (s :: searches)).symm
  | cons c columns =>
    cases searches with
    | nil => exact congrArg some (writeFrom_join .and (c :: columns)).symm
    | cons s searches =>
      simp only [combine, Option.map_some, Sql.writeFrom_text, Sql.writeFrom_append, writeFrom_join,
        Sql.bindings_text, bindings_join]
      simp [combineTexts, Rendering.texts]

theorem after_combine (columns searches : List Sql) :
    σ.after (columns.flatMap id ++ searches.flatMap id) =
      σ.after ((combine columns searches).elim [] id) := by
  have hb : Sql.bindings ((combine columns searches).elim [] id) =
      columns.flatMap Sql.bindings ++ searches.flatMap Sql.bindings := by
    cases columns <;> cases searches <;> simp [combine, bindings_join]
  have hk : Sql.needsKey ((combine columns searches).elim [] id) =
      (columns.any Sql.needsKey || searches.any Sql.needsKey) := by
    cases columns <;> cases searches <;> simp [combine, needsKey_join]
  refine Sink.after_congr ?_ ?_
  · rw [hb, Sql.bindings_append, Sql.bindings_flatMap, Sql.bindings_flatMap]
    rfl
  · rw [hk, Sql.needsKey_append, Sql.needsKey_flatMap, Sql.needsKey_flatMap]
    rfl

theorem renders_writeFilter (l : Listing) :
    Renders b.dialect (Rendering.ofSql b.style).option (b.filterClause e l)
      (b.writeFilter e l) := by
  intro σ hσ
  have hcolumns : Renders b.dialect (Rendering.ofSql b.style).list (b.columnConditions e l)
      ((searchedColumns l).mapM fun p => b.writeColumnCondition e p.1 p.2) :=
    .mapM fun p _ => renders_writeColumnCondition p.1 p.2
  refine hcolumns.bind_run hσ fun columns _ hσ => ?_
  refine (renders_writeSearchConditions l).bind_run hσ fun searches _ _ => ?_
  refine Rendered.pure ?_ ?_
  · rw [Sink.count_after, Rendering.list_sql, Sql.bindings_flatMap]
    exact combineTexts_texts columns searches
  · rw [Sink.after_after]
    exact after_combine columns searches

theorem renders_writeFilter? (l : Option Listing) :
    Renders b.dialect (Rendering.ofSql b.style).option (b.filterClause? e l)
      (b.writeFilter? e l) := by
  cases l with
  | none => exact fun σ _ => Rendered.none
  | some l => exact renders_writeFilter l

/-! ## Examples -/

theorem renders_writeExampleCondition (f : Field) :
    Renders b.dialect (Rendering.ofSql b.style).option (b.exampleCondition e f)
      (b.writeExampleCondition e f) := by
  intro σ hσ
  refine Writing.check_bind_run fun search _ => ?_
  cases search with
  | none => exact Rendered.none
  | some search =>
    refine Writing.check_bind_run fun condition hc => ?_
    refine (renders_writeField f).bind_run hσ fun operand ho _ => ?_
    have hbounded := Predicate.bounded_coerce (mapError_eq_ok.1 (ofFilter_eq_ok.1 hc))
    exact Rendered.some (agree_condition (.field f) ho hσ hbounded)

theorem renders_writeExample (combinator : Combinator) :
    Renders b.dialect (Rendering.ofSql b.style).option (b.exampleClause e combinator)
      (b.writeExample e combinator) := by
  intro σ hσ
  refine (Renders.mapM fun f _ => renders_writeExampleCondition f).bind_run hσ
    fun conditions _ _ => ?_
  have htexts := Rendering.texts_filterMap (R := .ofSql b.style) (n := σ.count) conditions
  have hpieces := Rendering.flatMap_option (R := .ofSql b.style) conditions
  rw [Rendering.list_text, Rendering.list_sql, htexts, hpieces]
  cases conditions.filterMap id with
  | nil => exact Rendered.pure rfl rfl
  | cons condition conditions =>
    refine Rendered.pure ?_ ?_
    · exact congrArg some (writeFrom_join combinator (condition :: conditions)).symm
    · exact Sink.after_congr (by simp [bindings_join]) (by simp [needsKey_join])

/-! ## Keys -/

theorem renders_writeKeyCondition (replacement : Option String) :
    Renders b.dialect (.ofSql b.style) (keyCondition e replacement)
      (b.writeKeyCondition e replacement) := by
  intro σ hσ
  refine Writing.check_bind_run fun key _ => ?_
  cases replacement with
  | some name =>
    exact Rendered.pure (by simp) (Sink.after_of_inert rfl rfl).symm
  | none =>
    refine Writing.check_bind_run fun value _ => ?_
    refine Writing.check_bind_run fun value _ => ?_
    rw [StateT.run_bind, Writing.run_bindInput b.style _ _ hσ]
    exact Rendered.pure (by simp) rfl

end Builder

end RecordSql
