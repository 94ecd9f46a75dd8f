import RecordSql.Proofs.SinkAnswers
import RecordSql.Proofs.UnlinkedBatch

/-!
# The steps of a batch along one sink

The steps of a batch share a sink, and each goes on with the numbers where the one before it
stopped. What a writer makes of a sink is **moved** when it starts further on: it has the same text
with every number raised by those that are taken, it binds the same values behind the ones that are
bound, and a mark stays a mark. Whatever renders pieces is moved this way, so a step of a batch is
written as the statement of its entity is from an empty sink.

How many numbers are taken before a step is told by the sink that the steps before it leave. It has
what their statements are given, and nothing else: a key that is kept binds nothing.
-/

namespace RecordSql

open Checked Text

/-! ## Moving on -/

section Moved

variable {d : Dialect} {style : Style} {x : Checked Sql} {w w' : Writing String} {σ : Sink}

/-- What is written from a sink on is what is written from an empty one, moved on. -/
structure Moved (σ : Sink) (here there : String × Sink) : Prop where
  /-- Every number is raised by those that are taken. -/
  text : there.1.toList = renumbered σ.dialect.mark σ.count here.1.toList
  /-- The same values are bound, behind the ones that are. -/
  bindings : there.2.parameters.map Parameter.toBinding =
    σ.parameters.map Parameter.toBinding ++ here.2.parameters.map Parameter.toBinding
  /-- The mark is one of either. -/
  marked : there.2.usesEncryption = (σ.usesEncryption || here.2.usesEncryption)

/-- **Writers that render the same pieces are moved alike**, if a reader of the pieces finds their
placeholders only. -/
theorem Renders.moved (h : Renders style.dialect (.ofSql style) x w)
    (h' : Renders style.dialect (.ofSql style) x w') (hσ : σ.dialect = style.dialect)
    (hx : ∀ sql, x = .ok sql → (∀ p ∈ sql, p.Quiet style) ∧ sql.IsChain Piece.Apart) :
    Agree (Moved σ) (w.run (.new style.dialect)) (w'.run σ) := by
  have hnew : (Sink.new style.dialect).dialect = style.dialect := rfl
  cases x with
  | error fault =>
    rw [h.run_error hnew, h'.run_error hσ]
    exact .error fault
  | ok sql =>
    obtain ⟨hquiet, hapart⟩ := hx sql rfl
    rw [h.run_eq hnew, h'.run_eq hσ]
    refine .ok ⟨?_, ?_, ?_⟩
    · have htext := Sql.renumbered_charsFrom hquiet hapart 0 σ.count
      rw [Nat.zero_add] at htext
      rw [hσ, Rendering.ofSql_text, Sql.writeFrom, String.toList_ofList, ← htext]
      exact congrArg _ String.toList_ofList.symm
    · rw [Sink.after, List.map_append, Sql.bindings_parametersFrom, Sink.after_new,
        Sql.parameters_eq, Sql.bindings_parametersFrom, Rendering.ofSql_sql]
    · rw [Sink.after_new]
      rfl

end Moved

/-- One member of a list that is written along a sink: what is before it leaves the sink that it is
written along. -/
theorem run_mapM_getElem? {ι α : Type} {f : ι → Writing α} {xs : List ι} {ys : List α}
    {σ τ : Sink} (h : (xs.mapM f).run σ = .ok (ys, τ)) {i : Nat} {x : ι} (hx : xs[i]? = some x) :
    ∃ y σ' τ', ys[i]? = some y ∧ ((xs.take i).mapM f).run σ = .ok (ys.take i, σ') ∧
      (f x).run σ' = .ok (y, τ') := by
  induction xs generalizing i ys σ with
  | nil => exact absurd hx (by simp)
  | cons first rest ih =>
    rw [List.mapM_cons, StateT.run_bind, bind_eq_ok] at h
    obtain ⟨⟨y', σ₁⟩, hfirst, h⟩ := h
    dsimp only at h
    rw [StateT.run_bind, bind_eq_ok] at h
    obtain ⟨⟨ys', σ₂⟩, hrest, h⟩ := h
    obtain ⟨rfl, rfl⟩ := Prod.mk.inj (Except.ok.inj h)
    cases i with
    | zero =>
      obtain rfl := Option.some.inj hx
      exact ⟨y', σ, σ₁, rfl, rfl, hfirst⟩
    | succ i =>
      obtain ⟨y, σ', τ', hy, hbefore, hone⟩ := ih hrest hx
      refine ⟨y, σ', τ', hy, ?_, hone⟩
      rw [List.take_succ_cons, List.mapM_cons, StateT.run_bind, hfirst, ok_bind, StateT.run_bind,
        hbefore]
      rfl

/-- The parameters that are given. -/
def Answer.inputs (a : Answer) : List Parameter := a.parameters.filter fun p => !p.isOutput

namespace Builder

variable {b : Builder} {sql : Sql} {step : BatchStep} {steps : List BatchStep}

/-! ## A step and its statement -/

/-- Without encrypted columns, a reader of the statement of a step finds its placeholders only. -/
theorem quiet_request (hplain : ∀ f ∈ step.touched, f.dataType ≠ .encrypted)
    (h : b.checkedBody step.request = .ok sql) :
    sql.needsKey = false ∧ (∀ p ∈ sql, p.Quiet b.style) ∧ sql.IsChain Piece.Apart := by
  obtain ⟨hchecks, hbody⟩ := body_of_checkedBody h
  have hneeds : sql.needsKey = false := Sql.needsKey_eq_false.2
    (keyText_unlinkedBody (fun f hf he => absurd he (hplain f hf)) (body_request ▸ hbody))
  have hformed := formed_body hbody
  refine ⟨hneeds, fun p hp => ?_, hformed.apart⟩
  exact quiet_stock (fun hkeyed => absurd hkeyed (List.any_eq_false.1 hneeds p hp)) hchecks
    (fun _ hadds => absurd hadds not_adds_request) (hformed.stock p hp)

/-- A step that keeps no key has the pieces of its statement. -/
theorem stepBody_eq_checkedBody {keyed : KeyVariables} {i : Nat} (hlinks : step.links = [])
    (hkey : step.operation = .insert → step.entity.key? = none) :
    b.stepBody keyed step i = b.checkedBody step.request := by
  obtain ⟨handling, _, hstep⟩ := stepBody_unlinked b keyed i hlinks
  rw [hstep, unlinkedBody_keyless hkey]
  unfold BatchStep.request unlinkedBody
  cases step.operation with
  | insert => rfl
  | update => rfl
  | delete => rfl

/-- **A step is its statement, moved on**, if it keeps no key and writes no encrypted column. -/
theorem moved_writeStep {keyed : KeyVariables} {i : Nat} {σ : Sink} (hσ : σ.dialect = b.dialect)
    (hlinks : step.links = []) (hkey : step.operation = .insert → step.entity.key? = none)
    (hplain : ∀ f ∈ step.touched, f.dataType ≠ .encrypted) :
    Agree (Moved σ) ((b.writeBody step.request).run (.new b.dialect))
      ((b.writeStep keyed step i).run σ) := by
  have hstep := renders_writeStep (b := b) keyed step i
  rw [stepBody_eq_checkedBody hlinks hkey] at hstep
  exact (renders_writeBody step.request).moved hstep hσ fun sql h => (quiet_request hplain h).2

/-- Without encrypted columns, an answer is what is written for it. -/
theorem text_answer_request {alone : Answer} (hplain : ∀ f ∈ step.touched, f.dataType ≠ .encrypted)
    (h : b.answer step.request = .ok alone) :
    ∃ σ, (b.writeBody step.request).run (.new b.dialect) = .ok (alone.text, σ) := by
  obtain ⟨s, hs, rfl⟩ := answer_eq_ok.1 h
  rw [run_eq_finish, bind_eq_ok] at hs
  obtain ⟨sql, hsql, hfinish⟩ := hs
  rcases finish_cases hfinish with ⟨_, rfl⟩ | ⟨hn, _⟩
  · exact ⟨_, by rw [run_writeBody, hsql]; rfl⟩
  · exact absurd (hn.symm.trans (quiet_request hplain hsql).1) (by simp)

/-- The text of such a step is that of its statement with raised numbers. -/
theorem text_writeStep {keyed : KeyVariables} {i : Nat} {σ τ : Sink} {text : String}
    {alone : Answer} (hσ : σ.dialect = b.dialect) (hlinks : step.links = [])
    (hkey : step.operation = .insert → step.entity.key? = none)
    (hplain : ∀ f ∈ step.touched, f.dataType ≠ .encrypted)
    (halone : b.answer step.request = .ok alone)
    (h : (b.writeStep keyed step i).run σ = .ok (text, τ)) :
    text.toList = renumbered b.dialect.mark σ.count alone.text.toList := by
  obtain ⟨_, hwhole⟩ := text_answer_request hplain halone
  have hmoved := (moved_writeStep hσ hlinks hkey hplain).related hwhole h
  rw [hmoved.text, hσ]

/-! ## All steps -/

/-- Writes the first steps of a batch. -/
def writeFirst (b : Builder) (steps : List BatchStep) (i : Nat) : Writing (List String) :=
  (steps.zipIdx.take i).mapM fun (step, index) => b.writeStep (b.keyVariables steps) step index

/-- What the first steps bind is what their fragments bind. -/
theorem bindings_writeFirst {fragments : List Sql} {texts : List String} {τ : Sink} {i : Nat}
    (hf : b.stepBodies steps = .ok fragments)
    (h : (b.writeFirst steps i).run (.new b.dialect) = .ok (texts, τ)) :
    τ.dialect = b.dialect ∧
      τ.parameters.map Parameter.toBinding = (fragments.take i).flatMap Sql.bindings := by
  have hfirst : (steps.zipIdx.take i).mapM
      (fun p => b.stepBody (b.keyVariables steps) p.1 p.2) = .ok (fragments.take i) :=
    mapM_eq_ok.2 (List.forall₂_take i (mapM_eq_ok.1 hf))
  have hrenders : Renders b.dialect (Rendering.ofSql b.style).list
      ((steps.zipIdx.take i).mapM fun p => b.stepBody (b.keyVariables steps) p.1 p.2)
      (b.writeFirst steps i) := .mapM fun p _ => renders_writeStep _ p.1 p.2
  rw [hfirst] at hrenders
  have hrun := hrenders.run_eq (Eq.refl (Sink.new b.dialect).dialect)
  obtain ⟨rfl, rfl⟩ := Prod.mk.inj (Except.ok.inj (h.symm.trans hrun))
  refine ⟨rfl, ?_⟩
  rw [Sink.after_new, Sql.parameters_eq, Sql.bindings_parametersFrom, Rendering.list_sql,
    Sql.bindings_flatMap]
  rfl

/-- A step is written along the sink that the steps before it leave. -/
theorem exists_writeStep {fragments : List Sql} {texts : List String} {σ : Sink} {i : Nat}
    (hf : b.stepBodies steps = .ok fragments)
    (h : (b.writeSteps steps).run (.new b.dialect) = .ok (texts, σ)) (hi : steps[i]? = some step) :
    ∃ text τ τ', texts[i]? = some text ∧
      (b.writeFirst steps i).run (.new b.dialect) = .ok (texts.take i, τ) ∧
      (b.writeStep (b.keyVariables steps) step i).run τ = .ok (text, τ') ∧
      τ.dialect = b.dialect ∧
      τ.parameters.map Parameter.toBinding = (fragments.take i).flatMap Sql.bindings := by
  have hpair : steps.zipIdx[i]? = some (step, i) := by
    rw [List.getElem?_zipIdx, hi]
    simp
  obtain ⟨text, τ, τ', htext, hbefore, hone⟩ := run_mapM_getElem? h hpair
  obtain ⟨hτ, htaken⟩ := bindings_writeFirst hf hbefore
  exact ⟨text, τ, τ', htext, hbefore, hone, hτ, htaken⟩

theorem exists_answer {r : Request} : (∃ a, b.answer r = .ok a) ↔ ∃ s, b.run r = .ok s := by
  simp only [answer_eq_ok]
  exact ⟨fun ⟨_, s, hs, _⟩ => ⟨s, hs⟩, fun ⟨s, hs⟩ => ⟨_, s, hs, rfl⟩⟩

/-- **A batch without links is its steps one after the other.** It is answered if every statement of
its steps is, and refused with the error of the first one that is not. Its inputs are those of the
statements, in their order and numbered from the first. A step is written along the sink that the
steps before it leave, which has what their statements are given. Its text is then that of its own
statement with the numbers raised by those that are taken, if the step keeps no key and writes no
encrypted column. -/
theorem batch_unlinked_answer (b : Builder) {steps : List BatchStep} (hne : steps ≠ [])
    (hlinks : ∀ step ∈ steps, step.links = []) :
    ((∃ a, b.answer (.batch steps) = .ok a) ↔
      ∀ step ∈ steps, ∃ alone, b.answer step.request = .ok alone) ∧
    (∀ err, b.answer (.batch steps) = .error err ↔
      ∃ before step after, steps = before ++ step :: after ∧
        (∀ earlier ∈ before, ∃ alone, b.answer earlier.request = .ok alone) ∧
        b.answer step.request = .error err) ∧
    ∀ a, b.answer (.batch steps) = .ok a → ∃ alones texts σ,
      List.Forall₂ (fun step alone => b.answer step.request = .ok alone) steps alones ∧
      a.inputs.map Parameter.toBinding =
        alones.flatMap (fun alone => alone.inputs.map Parameter.toBinding) ∧
      a.inputs.map Parameter.name = (List.range a.inputs.length).map parameterName ∧
      (b.writeSteps steps).run (.new b.dialect) = .ok (texts, σ) ∧
      b.Laid steps (texts.map String.toList) a.text.toList ∧
      ∀ (i : Nat) step alone, steps[i]? = some step → alones[i]? = some alone →
        ∃ text τ τ', texts[i]? = some text ∧
          (b.writeFirst steps i).run (.new b.dialect) = .ok (texts.take i, τ) ∧
          (b.writeStep (b.keyVariables steps) step i).run τ = .ok (text, τ') ∧
          τ.parameters.map Parameter.toBinding =
            (alones.take i).flatMap (fun alone => alone.inputs.map Parameter.toBinding) ∧
          ((step.operation = .insert → step.entity.key? = none) →
            (∀ f ∈ step.touched, f.dataType ≠ .encrypted) →
              text.toList = renumbered b.dialect.mark τ.count alone.text.toList) := by
  have hagree := agree_batch (b := b) hne hlinks
  refine ⟨?_, fun err => ?_, fun a ha => ?_⟩
  · simp only [exists_answer]
    exact hagree.isOk_iff.trans exists_mapM_eq_ok
  · simp only [exists_answer, answer_eq_error]
    exact hagree.error_iff.trans mapM_eq_error
  · obtain ⟨s, hs, rfl⟩ := answer_eq_ok.1 ha
    obtain ⟨alones, halones⟩ := hagree.isOk_iff.1 ⟨s, hs⟩
    obtain ⟨fragments, hfragments, hfinish, hinputs⟩ := hagree.related hs halones
    have hbindings := bindings_finish hfinish
    have hgiven := isInput_fragments hinputs
    have hanswers : List.Forall₂ (fun step alone => b.answer step.request = .ok alone) steps
        (alones.map Statement.answer) :=
      List.forall₂_map_right_iff.2
        ((mapM_eq_ok.1 halones).imp fun _ _ h => answer_eq_ok.2 ⟨_, h, rfl⟩)
    have hrenders := renders_writeSteps (b := b) steps
    rw [show b.stepBodies steps = .ok fragments from hfragments] at hrenders
    have hwritten := hrenders.run_eq (Eq.refl (Sink.new b.dialect).dialect)
    refine ⟨alones.map Statement.answer, _, _, hanswers, ?_,
      Statement.names_inputs hbindings hgiven isOutput_outputs, hwritten, ?_, ?_⟩
    · rw [List.flatMap_map]
      refine (s.bindings_inputs).trans ?_
      rw [Sql.inputs_eq_of_append hbindings hgiven isOutput_outputs, flatMap_bindings hinputs,
        List.map_flatMap]
      rfl
    · rw [Rendering.list_text, Rendering.map_toList_texts]
      exact laid_finish hfinish
    · intro i step alone hi halone
      obtain ⟨text, τ, τ', htext, hbefore, hone, hτ, htaken⟩ :=
        exists_writeStep hfragments hwritten hi
      refine ⟨text, τ, τ', htext, hbefore, hone, ?_, fun hkey hplain => ?_⟩
      · rw [htaken, flatMap_bindings (List.forall₂_take i hinputs), List.map_flatMap,
          ← List.map_take, List.flatMap_map]
        rfl
      · have hanswer := related_of_getElem? hanswers hi halone
        exact text_writeStep hτ (hlinks step (List.mem_of_getElem? hi)) hkey hplain hanswer hone

/-- A department is renamed. -/
def departmentName : BatchStep := ⟨.update, departments, []⟩

theorem batch_unlinked_answer_departmentName :
    (∃ a alone texts σ text, Builder.default.answer (.batch [order, departmentName]) = .ok a ∧
      Builder.default.answer (.update departments) = .ok alone ∧
      (Builder.default.writeSteps [order, departmentName]).run (.new .sqlServer) = .ok (texts, σ) ∧
      Builder.default.Laid [order, departmentName] (texts.map String.toList) a.text.toList ∧
      texts[1]? = some text ∧ text.toList = renumbered '@' 1 alone.text.toList) ∧
    ∃ err, Builder.default.answer (.update order.entity) = .error err ∧
      Builder.default.answer (.batch [order, ⟨.update, order.entity, []⟩, departmentName]) =
        .error err := by
  constructor
  · obtain ⟨s, hs⟩ : ∃ s, Builder.default.batch [order, departmentName] = .ok s := ⟨_, rfl⟩
    obtain ⟨first, hfirst, hinputs⟩ : ∃ first, Builder.default.run order.request = .ok first ∧
        first.inputs.length = 1 := ⟨_, rfl, rfl⟩
    have ha : Builder.default.answer (.batch [order, departmentName]) = .ok s.answer :=
      answer_eq_ok.2 ⟨s, hs, rfl⟩
    obtain ⟨alones, texts, σ, halones, _, _, hwritten, hlaid, hsteps⟩ :=
      (batch_unlinked_answer Builder.default (List.cons_ne_nil order [departmentName])
        (by decide)).2.2 _ ha
    obtain ⟨order', _, horder, hrest, rfl⟩ := List.forall₂_cons_left_iff.1 halones
    obtain ⟨alone, _, halone, hnil, rfl⟩ := List.forall₂_cons_left_iff.1 hrest
    obtain rfl := List.forall₂_nil_left_iff.1 hnil
    obtain rfl := Except.ok.inj (horder.symm.trans (answer_eq_ok.2 ⟨first, hfirst, rfl⟩))
    obtain ⟨text, τ, _, htext, _, _, htaken, hmoved⟩ := hsteps 1 departmentName alone rfl rfl
    -- an order binds its reference
    have hcount : τ.count = 1 := by
      have hlength := congrArg List.length htaken
      simp only [List.length_map, List.take_succ_cons, List.take_zero, List.flatMap_singleton]
        at hlength
      exact hlength.trans hinputs
    have hraised := hmoved (by decide) (by decide)
    rw [hcount] at hraised
    exact ⟨_, alone, texts, σ, text, ha, halone, hwritten, hlaid, htext, hraised⟩
  · obtain ⟨err, herr⟩ : ∃ err, Builder.default.run (.update order.entity) = .error err := ⟨_, rfl⟩
    have hanswer := answer_eq_error.2 herr
    refine ⟨err, hanswer, ((batch_unlinked_answer Builder.default (List.cons_ne_nil order _)
      (by decide)).2.1 err).2 ⟨[order], _, [departmentName], rfl, ?_, hanswer⟩⟩
    exact List.forall_mem_singleton.2 (exists_answer.2 ⟨_, rfl⟩)

end Builder

end RecordSql
