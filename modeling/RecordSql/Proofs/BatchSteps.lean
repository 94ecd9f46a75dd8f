import RecordSql.Proofs.BatchVariables
import RecordSql.Proofs.Templates

/-!
# The steps of a batch

A batch looks the links of a step up one by one, and a variable may be missing. In a batch that is
answered none is: every link leads back to a step that keeps its key. So the links of a step are
simply the fields that it names with the variables of the steps that it leads to, and of several
links of one field the last one counts.

A step is then an insert, an update or a delete of its entity under these links, its fragment is
what is written for it, and the text of the batch has the texts of the fragments in order.
-/

namespace RecordSql

open Checked

/-- The link of a field that counts: the last one. -/
def BatchStep.lastLink? (step : BatchStep) (field : String) : Option KeyLink :=
  step.links.reverse.find? fun link => link.field = field

theorem BatchStep.lastLink?_eq_none {step : BatchStep} {field : String} :
    step.lastLink? field = none ↔ ∀ link ∈ step.links, link.field ≠ field := by
  simp [lastLink?]

theorem BatchStep.mem_of_lastLink? {step : BatchStep} {field : String} {link : KeyLink}
    (h : step.lastLink? field = some link) : link ∈ step.links ∧ link.field = field := by
  refine ⟨List.mem_reverse.1 (List.mem_of_find?_eq_some h), ?_⟩
  simpa using List.find?_some h

/-! ## Places -/

/-- The text of a part: its parameters are numbered on from all that is bound before it. -/
theorem Sql.getElem?_textsFrom {style : Style} (parts : List Sql) (n i : Nat) :
    (textsFrom style n parts)[i]? =
      parts[i]?.map (charsFrom style (n + ((parts.take i).flatMap bindings).length)) := by
  induction parts generalizing n i with
  | nil => simp [textsFrom]
  | cons part rest ih =>
    cases i with
    | zero => simp [textsFrom]
    | succ i =>
      rw [textsFrom, List.getElem?_cons_succ, ih, List.getElem?_cons_succ, List.take_succ_cons,
        List.flatMap_cons, List.length_append, Nat.add_assoc]

/-- A parameter is the value that is bound in its place, under the name of its number. -/
theorem Statement.getElem?_parameters (s : Statement) (i : Nat) :
    s.parameters[i]? = s.sql.bindings[i]?.map fun x => ⟨x, parameterName i⟩ := by
  rw [parameters, Sql.parameters, List.getElem?_map, List.getElem?_zipIdx]
  cases s.sql.bindings[i]? with
  | none => rfl
  | some x => simp

namespace Builder

variable {b : Builder} {steps : List BatchStep} {step : BatchStep} {i : Nat} {sql : Sql}
  {s : Statement}

/-! ## Links -/

/-- The variables that stand for the linked fields of a step. -/
def stepLinks (b : Builder) (steps : List BatchStep) (step : BatchStep) : Links :=
  (step.links.map fun link => (link.field, b.variableOf steps link.step)).reverse

/-- **A linked field takes the variable of its last link.** -/
theorem lookup_stepLinks (field : String) :
    (b.stepLinks steps step).lookup field =
      (step.lastLink? field).map fun link => b.variableOf steps link.step := by
  rw [stepLinks, ← List.map_reverse, BatchStep.lastLink?]
  induction step.links.reverse with
  | nil => rfl
  | cons link rest ih =>
    rw [List.map_cons, List.lookup_cons, List.find?_cons]
    by_cases hf : field = link.field
    · simp [hf]
    · have hne : link.field ≠ field := fun he => hf he.symm
      simp [beq_false_of_ne hf, hne, ih]

theorem lookup_stepLinks_eq_none {field : String} :
    (b.stepLinks steps step).lookup field = none ↔ ∀ link ∈ step.links, link.field ≠ field := by
  rw [lookup_stepLinks, Option.map_eq_none_iff, BatchStep.lastLink?_eq_none]

/-- What is looked up for the links of a step, as long as they all lead back. -/
theorem foldlM_addLink_eq_ok {e : Entity} {added : List KeyLink} {before links : Links}
    (hback : ∀ link ∈ added, LeadsBack steps i link) :
    added.foldlM (addLink (b.keyVariables steps) i e) before = .ok links ↔
      (∀ link ∈ added, ∃ f, e.field? link.field = some f) ∧
        (added.map fun link => (link.field, b.variableOf steps link.step)).reverse ++ before =
          links := by
  induction added generalizing before with
  | nil => simp [pure, Except.pure]
  | cons link rest ih =>
    obtain ⟨⟨_, source, hsource, hcaptures⟩, hrest⟩ := List.forall_mem_cons.1 hback
    have hkept := (lookup_keyVariables (b := b)).2 ⟨⟨source, hsource, hcaptures⟩, rfl⟩
    rw [List.foldlM_cons, bind_eq_ok, List.forall_mem_cons]
    cases hf : e.field? link.field with
    | none => simp [addLink, hf]
    | some f =>
      have hadd : addLink (b.keyVariables steps) i e before link =
          .ok ((link.field, b.variableOf steps link.step) :: before) := by
        simp only [addLink, hf, hkept]
      simp only [hadd, Except.ok.injEq, exists_eq_left', ih hrest]
      simp

/-- The links of a step that leads back are passed with their variables. -/
theorem eq_stepLinks (step : BatchStep) (hback : ∀ link ∈ step.links, LeadsBack steps i link)
    {links : Links}
    (h : ofEntity (step.links.foldlM (addLink (b.keyVariables steps) i step.entity) []) =
      .ok links) : links = b.stepLinks steps step := by
  obtain ⟨_, hlinks⟩ := (foldlM_addLink_eq_ok hback).1 (ofEntity_eq_ok.1 h)
  rw [← hlinks, List.append_nil, stepLinks]

/-! ## Steps -/

/-- What becomes of the key of a row that a step inserts: it is kept in a variable if there is one
for it, and never returned. -/
def handlingOf : Option String → KeyHandling
  | some name => .capture name
  | none => .omit

theorem handlingOf_ne_return (name? : Option String) : handlingOf name? ≠ .return := by
  cases name? with
  | none => simp [handlingOf]
  | some name => simp [handlingOf]

/-- **A step is a statement of its own kind**, under its links. -/
theorem stepBody_linked (hback : ∀ link ∈ step.links, LeadsBack steps i link) :
    b.stepBody (b.keyVariables steps) step i = .ok sql ↔
      step.entity.check = .ok () ∧
        (∀ link ∈ step.links, ∃ f, step.entity.field? link.field = some f) ∧
        match step.operation with
        | .insert =>
          b.insertBody step.entity (b.stepLinks steps step)
            (handlingOf ((b.keyVariables steps).lookup i)) = .ok sql
        | .update => b.updateBody step.entity none (b.stepLinks steps step) = .ok sql
        | .delete => b.deleteBody step.entity (b.stepLinks steps step) = .ok sql := by
  rw [stepBody_eq_ok]
  refine and_congr_right fun _ => ?_
  simp only [foldlM_addLink_eq_ok hback, List.append_nil, and_assoc, exists_and_left,
    exists_eq_left']
  refine and_congr_right fun _ => ?_
  rw [← stepLinks]
  cases step.operation with
  | insert => exact ⟨fun h => (h.resolve_right (by simp)).2, fun h => .inl ⟨rfl, h⟩⟩
  | update => simp
  | delete => simp

/-! ## The batch -/

/-- A batch of some steps passes its links, writes its fragments and puts them together. -/
theorem batchBody_cons (first : BatchStep) (rest : List BatchStep) :
    b.batchBody (first :: rest) =
      ofEntity (checkLinks (first :: rest) (b.keyVariables (first :: rest))) >>= fun _ =>
        ((first :: rest).zipIdx.mapM fun p =>
          b.stepBody (b.keyVariables (first :: rest)) p.1 p.2) >>= fun fragments =>
            pure (b.dialect.batch ⟨b.templateVariables (first :: rest), fragments⟩) :=
  rfl

/-- With its links passed, a batch writes its fragments and puts them together. -/
theorem batch_of_linksBack (hne : steps ≠ []) (hback : LinksBack steps) :
    b.batch steps =
      (steps.zipIdx.mapM fun p => b.stepBody (b.keyVariables steps) p.1 p.2) >>= fun fragments =>
        b.finish (b.dialect.batch ⟨b.templateVariables steps, fragments⟩) := by
  have hcheck := (checkLinks_eq_ok (b := b)).2 hback
  cases steps with
  | nil => exact absurd rfl hne
  | cons first rest =>
    unfold batch batchBody
    simp only [hcheck]
    show ((List.mapM (fun p => b.stepBody (b.keyVariables (first :: rest)) p.1 p.2)
      (first :: rest).zipIdx) >>= fun fragments =>
        pure (b.dialect.batch ⟨b.templateVariables (first :: rest), fragments⟩)) >>= b.finish = _
    rw [bind_assoc]
    rfl

/-- A batch is its fragments, one for each step. -/
theorem batch_fragments (h : b.batch steps = .ok s) :
    LinksBack steps ∧ ∃ fragments,
      fragments.length = steps.length ∧
      b.finish (b.dialect.batch ⟨b.templateVariables steps, fragments⟩) = .ok s ∧
      ∀ (i : Nat) step fragment, steps[i]? = some step → fragments[i]? = some fragment →
        b.stepBody (b.keyVariables steps) step i = .ok fragment := by
  obtain ⟨_, hbody, hfinish⟩ := batch_eq_ok.1 h
  obtain ⟨_, hcheck, fragments, hfragments, rfl⟩ := batchBody_eq_ok.1 hbody
  refine ⟨checkLinks_eq_ok.1 hcheck, fragments, ?_, hfinish, ?_⟩
  · rw [← (mapM_eq_ok.1 hfragments).length_eq, List.length_zipIdx]
  · intro i step fragment hi hf
    exact stepBody_of_getElem? hfragments hi hf

/-- What the fragments bind is bound first, in their order. -/
theorem bindings_finish {fragments : List Sql}
    (h : b.finish (b.dialect.batch ⟨b.templateVariables steps, fragments⟩) = .ok s) :
    s.sql.bindings =
      fragments.flatMap Sql.bindings ++
        (b.dialect.outputs (b.templateVariables steps)).bindings := by
  have hfinished := filterMap_finish passes_binding? h
  rw [Dialect.filterMap_batch passes_binding?] at hfinished
  exact hfinished

end Builder

end RecordSql
