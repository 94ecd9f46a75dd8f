import RecordSql.Proofs.SinkRows
import RecordSql.Writer.Batch

/-!
# Batches along with a sink

The steps of a batch are written one after the other along one sink, and so are their pieces. The
parameters that hand keys out are bound behind the steps, and the lines that write them stand behind
the commit.
-/

namespace RecordSql

open Checked

attribute [local simp] Sql.bindings_append Sql.bindings_joined String.append_assoc Piece.isKeyed

variable {b : Builder} {style : Style} {σ : Sink} {d : Dialect} {n : Nat}

/-- Results that stand behind others are numbered behind them. -/
theorem Rendering.texts_append {α α' : Type} {R : Rendering α α'} (xs ys : List α) (n : Nat) :
    R.texts n (xs ++ ys) =
      R.texts n xs ++ R.texts (n + (Sql.bindings (xs.flatMap R.sql)).length) ys := by
  induction xs generalizing n with
  | nil => rfl
  | cons a rest ih =>
    rw [List.cons_append, texts, texts, ih, List.flatMap_cons, Sql.bindings_append,
      List.length_append, Nat.add_assoc]
    rfl

/-- A variable is written with the output that hands it out. -/
def Rendering.ofVariable (style : Style) : Rendering BatchVariable WrittenVariable :=
  ⟨fun v => v.output.elim [] id, fun n v => ⟨v.name, v.output.map (Sql.writeFrom style n)⟩⟩

namespace Dialect

/-- The text of the line of a fragment. -/
def fragmentText (d : Dialect) (fragment : String) : String :=
  match d with
  | .sqlServer => fragment ++ ";"
  | .oracle => "  " ++ fragment ++ ";"

/-- The text of the lines behind the commit. -/
def closingTexts (d : Dialect) (keyVariables : List WrittenVariable) : List String :=
  match d with
  | .sqlServer =>
    if keyVariables.isEmpty then []
    else
      ["SELECT " ++ commas (keyVariables.map fun v => v.name ++ s!" AS {bareName v.name}") ++ ";"]
  | .oracle =>
    keyVariables.filterMap (fun v =>
      v.output.map fun output => "  " ++ output ++ " := " ++ v.name ++ ";") ++ ["END;"]

theorem batchTexts_eq (parts : WrittenBatch) :
    d.batchTexts parts =
      d.batchHeader (parts.keyVariables.map WrittenVariable.name) ++
        parts.fragments.map d.fragmentText ++
          d.commitLine :: d.closingTexts parts.keyVariables := by
  cases d with
  | sqlServer =>
    rw [batchTexts, batchHeader, List.map_map, List.append_assoc]
    rfl
  | oracle =>
    have hnames : parts.keyVariables.map WrittenVariable.name = [] ↔
        parts.keyVariables.isEmpty = true := by
      rw [List.map_eq_nil_iff, List.isEmpty_iff]
    simp only [batchTexts, batchHeader, commitLine, closingTexts, hnames, List.map_map,
      List.append_assoc, List.singleton_append, Function.comp_def]
    rfl

theorem texts_headerLines (names : List String) (n : Nat) :
    (Rendering.ofSql style).texts n (d.headerLines names) = d.batchHeader names := by
  rw [Rendering.texts_of_unbound (bindings_headerLines names)]
  have hchars : (d.headerLines names).map (Sql.charsFrom style n) =
      (d.batchHeader names).map String.toList := charsFrom_headerLines names n
  have h := congrArg (List.map String.ofList) hchars
  rwa [List.map_map, List.map_map, Function.comp_def String.ofList String.toList,
    funext fun s => String.ofList_toList, List.map_id'] at h

theorem texts_fragmentLines (fragments : List Sql) (n : Nat) :
    (Rendering.ofSql style).texts n (fragments.map d.fragmentLine) =
      ((Rendering.ofSql style).texts n fragments).map d.fragmentText := by
  refine (Rendering.map_texts (fun n fragment => ?_) (fun fragment => ?_) fragments n).symm
  · cases d with
    | sqlServer => simp [fragmentText, fragmentLine]
    | oracle => simp [fragmentText, fragmentLine]
  · exact (bindings_fragmentLine fragment).symm

theorem texts_closingLines (keyVariables : List BatchVariable) (n : Nat) :
    (Rendering.ofSql style).texts n (d.closingLines keyVariables) =
      d.closingTexts ((Rendering.ofVariable style).texts n keyVariables) := by
  cases d with
  | sqlServer =>
    have hnames : ((Rendering.ofVariable style).texts n keyVariables).map
          (fun v => v.name ++ s!" AS {bareName v.name}") =
        keyVariables.map fun v => v.name ++ s!" AS {bareName v.name}" :=
      Rendering.map_texts_of_const (fun _ _ _ => rfl) n
    have hlist : ∀ n, (Sql.list (keyVariables.map fun v =>
          [.variable v.name, .text s!" AS {bareName v.name}"])).writeFrom style n =
        commas (keyVariables.map fun v => v.name ++ s!" AS {bareName v.name}") := by
      intro n
      rw [Sql.writeFrom_list, Rendering.texts_of_unbound (List.forall_mem_map.2 fun _ _ => rfl),
        List.map_map]
      exact congrArg commas (List.map_congr_left fun v _ => by simp)
    cases keyVariables with
    | nil => rfl
    | cons v rest =>
      rw [closingTexts, hnames, ← hlist n, ← Sql.writeFrom_wrapped]
      rfl
  | oracle =>
    rw [closingLines, closingTexts]
    induction keyVariables generalizing n with
    | nil => simp [Rendering.texts]
    | cons v rest ih =>
      cases hv : v.output with
      | none => simpa [Rendering.texts, Rendering.ofVariable, hv] using ih n
      | some output => simpa [Rendering.texts, Rendering.ofVariable, hv] using ih _

/-- **A batch is written from its fragments and its variables.** -/
theorem writeFrom_batch (parts : BatchParts) :
    (d.batch parts).writeFrom style n =
      d.writeBatch
        ⟨(Rendering.ofVariable style).texts (n + (parts.fragments.flatMap Sql.bindings).length)
            parts.keyVariables,
          (Rendering.ofSql style).texts n parts.fragments⟩ := by
  have hheader : Sql.bindings ((d.headerLines (parts.keyVariables.map BatchVariable.name)).flatMap
      (Rendering.ofSql style).sql) = [] := by
    rw [Sql.bindings_flatMap, List.flatMap_eq_nil_iff]
    exact bindings_headerLines _
  have hfragments : Sql.bindings ((parts.fragments.map d.fragmentLine).flatMap
      (Rendering.ofSql style).sql) = parts.fragments.flatMap Sql.bindings := by
    rw [Sql.bindings_flatMap, List.flatMap_map]
    exact List.flatMap_congr fun fragment _ => bindings_fragmentLine fragment
  have hnames : ((Rendering.ofVariable style).texts
        (n + (parts.fragments.flatMap Sql.bindings).length) parts.keyVariables).map
          WrittenVariable.name = parts.keyVariables.map BatchVariable.name :=
    Rendering.map_texts_of_const (fun _ _ _ => rfl) _
  rw [batch, Sql.writeFrom_joined, batchLines_eq, Rendering.texts_append, Rendering.texts_append,
    List.flatMap_append, Sql.bindings_append, hheader, hfragments, List.length_nil, Nat.add_zero,
    List.nil_append, texts_headerLines, texts_fragmentLines, Rendering.texts, texts_closingLines,
    writeBatch, batchTexts_eq, hnames]
  simp

end Dialect

namespace Builder

variable {steps : List BatchStep}

theorem renders_writeStep (keyed : KeyVariables) (step : BatchStep) (index : Nat) :
    Renders b.dialect (.ofSql b.style) (b.stepBody keyed step index)
      (b.writeStep keyed step index) := by
  intro σ hσ
  refine Writing.check_bind_run fun _ _ => ?_
  refine Writing.check_bind_run fun links _ => ?_
  cases step.operation with
  | insert => exact renders_writeInsert links _ σ hσ
  | update => exact renders_writeUpdate none links σ hσ
  | delete => exact renders_writeDelete links σ hσ

/-- The steps of a batch, in pieces. -/
def stepBodies (b : Builder) (steps : List BatchStep) : Checked (List Sql) :=
  steps.zipIdx.mapM fun (step, index) => b.stepBody (b.keyVariables steps) step index

theorem renders_writeSteps (steps : List BatchStep) :
    Renders b.dialect (Rendering.ofSql b.style).list (b.stepBodies steps) (b.writeSteps steps) :=
  .mapM fun p _ => renders_writeStep _ p.1 p.2

theorem renders_writeVariable (name : String) :
    Renders b.dialect (.ofVariable b.style) (.ok (b.batchVariable name))
      (b.writeVariable name) := by
  intro σ hσ
  unfold batchVariable writeVariable
  split
  · rw [StateT.run_bind, Writing.bindOutput, Writing.run_push b.style _ hσ]
    exact Rendered.pure (by simp [Rendering.ofVariable]) rfl
  · exact Rendered.pure rfl (Sink.after_of_inert rfl rfl).symm

theorem renders_writeVariables :
    Renders b.dialect (Rendering.ofVariable b.style).list (.ok (b.templateVariables steps))
      (((b.keyVariables steps).map Prod.snd).mapM b.writeVariable) := by
  have hall : Renders b.dialect (Rendering.ofVariable b.style).list
      (((b.keyVariables steps).map Prod.snd).mapM fun name => .ok (b.batchVariable name))
      (((b.keyVariables steps).map Prod.snd).mapM b.writeVariable) :=
    .mapM fun name _ => renders_writeVariable name
  have hok : ((b.keyVariables steps).map Prod.snd).mapM
      (fun name => (.ok (b.batchVariable name) : Checked BatchVariable)) =
        .ok (b.templateVariables steps) := by
    rw [List.mapM_map]
    exact List.mapM_pure
  rwa [hok] at hall

/-- What the variables bind is what hands them out. -/
theorem flatMap_templateVariables :
    (b.templateVariables steps).flatMap (Rendering.ofVariable style).sql =
      b.dialect.outputs (b.templateVariables steps) := by
  cases hd : b.dialect with
  | sqlServer =>
    refine List.flatMap_eq_nil_iff.2 (List.forall_mem_map.2 fun p _ => ?_)
    simp [Rendering.ofVariable, batchVariable, hd, Dialect.returnsKeyInParameter]
  | oracle =>
    rw [Dialect.outputs]
    induction b.templateVariables steps with
    | nil => rfl
    | cons v rest ih =>
      rw [List.flatMap_cons, ih]
      cases hv : v.output with
      | none => simp [Rendering.ofVariable, hv]
      | some output => simp [Rendering.ofVariable, hv]

theorem renders_writeBatch :
    Renders b.dialect (.ofSql b.style) (b.batchBody steps) (b.writeBatch steps) := by
  intro σ hσ
  unfold batchBody writeBatch
  cases steps.isEmpty with
  | true => exact .error _
  | false =>
    refine Writing.check_bind_run fun _ _ => ?_
    refine (renders_writeSteps steps).bind_run hσ fun fragments _ hσ => ?_
    rw [StateT.run_bind, renders_writeVariables.run_eq hσ]
    refine Rendered.pure ?_ ?_
    · refine Eq.trans ?_ (Dialect.writeFrom_batch _).symm
      rw [Sink.count_after, Rendering.list_sql, Sql.bindings_flatMap]
      rfl
    · rw [Sink.after_after]
      refine Sink.after_of_passes fun hp => ?_
      refine Eq.trans ?_ (Dialect.filterMap_batch hp _).symm
      rw [List.filterMap_append, Rendering.list_sql, List.filterMap_flatMap]
      exact congrArg _ (congrArg _ flatMap_templateVariables)

end Builder

end RecordSql
