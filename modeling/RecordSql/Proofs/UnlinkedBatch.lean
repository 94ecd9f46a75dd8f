import RecordSql.Proofs.Agreement
import RecordSql.Proofs.Renumbering
import RecordSql.Proofs.WrittenRows

/-!
# A batch without links is its steps one after the other

Without links a step of a batch is the statement that its entity would get on its own, but for the
key of an insert, which a batch keeps and a statement returns. Returning a key binds an output and
nothing else, so the two bind the same inputs.

* A step and its statement agree: both are answered, or both are refused for the same cause. The
  statement is finished and the step is not, but nothing can go wrong there, as what needs the key
  was written with it.
* So the steps of a batch agree with their statements one by one, and the batch is refused for the
  first statement that is.
* What a batch binds is what its fragments bind, and behind that only outputs. So its inputs are
  those of the statements, in the order of the steps.
-/

namespace RecordSql

open Checked Text

/-! ## Inputs -/

/-- The values that a statement is given. -/
def Sql.inputs (sql : Sql) : List Binding := sql.bindings.filter fun x => !x.isOutput

/-- The parameters that a statement is given. -/
def Statement.inputs (s : Statement) : List Parameter := s.parameters.filter fun p => !p.isOutput

theorem Sql.inputs_eq_bindings {sql : Sql} (h : ∀ x ∈ sql.bindings, x.isOutput = false) :
    sql.inputs = sql.bindings :=
  List.filter_eq_self.2 fun x hx => by rw [h x hx]; rfl

/-- What is given is found in front of what is handed out. -/
theorem filter_given {α : Type} {isOutput : α → Bool} {given out : List α}
    (hgiven : ∀ x ∈ given, isOutput x = false) (hout : ∀ x ∈ out, isOutput x = true) :
    (given ++ out).filter (fun x => !isOutput x) = given := by
  rw [List.filter_append, List.filter_eq_self.2, List.filter_eq_nil_iff.2, List.append_nil]
  · intro x hx
    simp [hout x hx]
  · intro x hx
    simp [hgiven x hx]

theorem Sql.inputs_eq_of_append {sql : Sql} {given out : List Binding}
    (h : sql.bindings = given ++ out) (hgiven : ∀ x ∈ given, x.isOutput = false)
    (hout : ∀ x ∈ out, x.isOutput = true) : sql.inputs = given := by
  rw [inputs, h, filter_given hgiven hout]

theorem Statement.bindings_inputs (s : Statement) :
    s.inputs.map Parameter.toBinding = s.sql.inputs := by
  rw [inputs, parameters, Sql.parameters, List.filter_map, List.map_map, Sql.inputs]
  conv_rhs => rw [← List.zipIdx_map_fst 0 s.sql.bindings, List.filter_map]
  rfl

/-- Inputs in front of all outputs have the first numbers. -/
theorem Statement.names_inputs {s : Statement} {given out : List Binding}
    (h : s.sql.bindings = given ++ out) (hgiven : ∀ x ∈ given, x.isOutput = false)
    (hout : ∀ x ∈ out, x.isOutput = true) :
    s.inputs.map Parameter.name = (List.range s.inputs.length).map parameterName := by
  have hfirst : s.inputs = given.zipIdx.map fun p => ⟨p.1, parameterName p.2⟩ := by
    rw [inputs, parameters, Sql.parameters, h, List.zipIdx_append, List.map_append]
    refine filter_given (List.forall_mem_map.2 fun p hp => ?_)
      (List.forall_mem_map.2 fun p hp => ?_)
    · exact hgiven p.1 (List.fst_mem_of_mem_zipIdx hp)
    · exact hout p.1 (List.fst_mem_of_mem_zipIdx hp)
  rw [hfirst, List.map_map, List.length_map, List.length_zipIdx, List.range_eq_range',
    ← List.zipIdx_map_snd, List.map_map]
  rfl

namespace Builder

variable {b : Builder} {e : Entity} {links : Links} {sql : Sql} {s : Statement}

/-! ## What a row binds -/

/-- The settings can encrypt: there are keys, and a dialect that uses them. -/
def CanEncrypt (b : Builder) : Prop := b.dialect = .sqlServer ∧ b.config.encryption.isSome = true

/-- What is written into a column is given, never handed out. -/
theorem Gives.input {stated : Field → Option Json} {w : Written} (h : b.Gives e links stated w) :
    ∀ x ∈ Sql.bindings w.value, x.isOutput = false := by
  have hone : ∀ value type, ∀ x ∈ Sql.bindings [.bind (.input value type)], x.isOutput = false := by
    intro value type
    exact List.forall_mem_singleton.2 rfl
  cases h with
  | linked _ => exact List.forall_mem_nil _
  | filled _ _ => exact hone _ _
  | stated _ _ hv =>
    rcases valueExpression_eq_ok.1 hv with ⟨_, rfl⟩ | ⟨_, typed, _, ⟨_, keys, _, hv⟩ | ⟨_, rfl⟩⟩
    · exact List.forall_mem_nil _
    · cases hd : b.dialect with
      | sqlServer =>
        rw [hd] at hv
        obtain rfl := Except.ok.inj hv
        exact hone _ _
      | oracle =>
        rw [hd] at hv
        exact absurd hv (by simp [Dialect.encrypt])
    · exact hone _ _

/-- Only a stated value of an encrypted field needs the key, and then the settings can encrypt. -/
theorem Gives.keyText {stated : Field → Option Json} {w : Written} (h : b.Gives e links stated w)
    (hk : w.field.dataType = .encrypted → stated w.field ≠ none → ¬ b.CanEncrypt) :
    w.value.filterMap Piece.keyText? = [] := by
  cases h with
  | linked _ => rfl
  | filled _ _ => rfl
  | stated _ hj hv =>
    rcases valueExpression_eq_ok.1 hv with ⟨_, rfl⟩ | ⟨_, typed, _, ⟨he, keys, hkeys, _⟩ | ⟨_, rfl⟩⟩
    · rfl
    · obtain ⟨hd, hconfig⟩ := keysFor_eq_ok.1 hkeys
      exact absurd ⟨hd, by rw [hconfig]; rfl⟩ (hk he (by simp [hj]))
    · rfl

section Rows

variable {β : Type} {pick : Piece → Option β}

theorem filterMap_insertRow (hp : Passes pick) (row : List Written) (handling : KeyHandling) :
    (b.dialect.insert ⟨Sql.table e.table, row.map Written.column, row.map Written.value⟩
        (b.keyReturn e handling)).filterMap pick =
      (row.flatMap fun w => w.value.filterMap pick) ++
        (b.dialect.handsOut (b.keyReturn e handling)).filterMap pick := by
  rw [filterMap_insert_keyReturn hp, List.flatMap_map]
  exact List.forall_mem_map.2 fun w _ => List.filterMap_cons_none (hp.name _)

theorem filterMap_updateRow (hp : Passes pick) (row : List Written) (condition : Sql) :
    (b.dialect.update (Sql.table e.table) [.text TableAlias.root.text]
        (row.map Written.assignment) condition).filterMap pick =
      (row.flatMap fun w => w.value.filterMap pick) ++ condition.filterMap pick := by
  rw [Dialect.filterMap_update hp (Sql.filterMap_table hp _)
    (List.filterMap_cons_none (hp.wording _)), List.flatMap_map]
  refine congrArg (· ++ _) (List.flatMap_congr fun w _ => ?_)
  simp [Written.assignment, hp.target, hp.wording]

end Rows

/-- A condition on a key is given a value at most, and needs no key to be open. -/
theorem keyCondition_parts {replacement : Option String}
    (h : keyCondition e replacement = .ok sql) :
    (∀ x ∈ sql.bindings, x.isOutput = false) ∧ sql.filterMap Piece.keyText? = [] := by
  obtain ⟨key, _, ⟨name, _, rfl⟩ | ⟨_, json, _, value, _, rfl⟩⟩ := keyCondition_eq_ok.1 h
  · exact ⟨List.forall_mem_nil _, rfl⟩
  · exact ⟨List.forall_mem_singleton.2 rfl, rfl⟩

end Builder

/-! ## A step without links -/

/-- The statement that the entity of a step would get on its own. -/
def BatchStep.request (step : BatchStep) : Request :=
  match step.operation with
  | .insert => .insert step.entity
  | .update => .update step.entity
  | .delete => .delete step.entity

/-- The fields whose columns a step without links writes. -/
def BatchStep.touched (step : BatchStep) : List Field :=
  match step.operation with
  | .insert =>
    (Builder.insertFields step.entity).filter fun f =>
      (Builder.insertValue? step.entity f).isSome
  | .update => Builder.updateFields step.entity none
  | .delete => []

namespace Builder

variable {b : Builder} {sql : Sql} {s : Statement} {step : BatchStep} {handling : KeyHandling}

/-- What is written for a step without links, its entity having been checked. -/
def unlinkedBody (b : Builder) (step : BatchStep) (handling : KeyHandling) : Checked Sql :=
  match step.operation with
  | .insert => b.insertBody step.entity [] handling
  | .update => b.updateBody step.entity none []
  | .delete => b.deleteBody step.entity []

theorem run_request :
    b.run step.request = b.build step.entity (b.unlinkedBody step .return) := by
  unfold BatchStep.request unlinkedBody
  cases step.operation with
  | insert => rfl
  | update => rfl
  | delete => rfl

theorem stepBody_unlinked (b : Builder) (keyed : KeyVariables) (i : Nat)
    (hlinks : step.links = []) :
    ∃ handling ≠ .return, b.stepBody keyed step i =
      Checked.ofEntity step.entity.check >>= fun _ => b.unlinkedBody step handling := by
  refine ⟨handlingOf (keyed.lookup i), handlingOf_ne_return _, ?_⟩
  unfold stepBody unlinkedBody
  rw [hlinks]
  rfl

/-! ## Bodies -/

/-- An insert that returns its key has an output more, and the same inputs. -/
theorem agree_insertBody_handling {e : Entity} (hh : handling ≠ .return) :
    Agree (fun sql sql' => sql.bindings = Sql.inputs sql') (b.insertBody e [] handling)
      (b.insertBody e [] .return) := by
  refine .bind_same fun entries hentries => ?_
  obtain ⟨row, hcolumns, hvalues, hrow, _⟩ := row_of_insertEntries hentries
  cases hpresent : entries.filterMap id with
  | nil => exact .error _
  | cons entry rest =>
    rw [hpresent] at hcolumns hvalues
    refine .ok ?_
    have hgiven : ∀ x ∈ row.flatMap fun w => Sql.bindings w.value, x.isOutput = false := by
      intro x hx
      obtain ⟨w, hw, hx⟩ := List.mem_flatMap.1 hx
      exact (hrow w hw).2.input x hx
    have hrow := fun handling => filterMap_insertRow (b := b) (e := e) passes_binding? row handling
    rw [hcolumns, hvalues]
    refine Eq.trans ?_ (Sql.inputs_eq_of_append (hrow .return) hgiven isOutput_handsOut).symm
    rw [Sql.bindings, hrow, handsOut_of_ne_return hh, List.filterMap_nil, List.append_nil]

theorem isInput_updateBody {e : Entity} {names : Option (List String)} {links : Links}
    (h : b.updateBody e names links = .ok sql) : ∀ x ∈ sql.bindings, x.isOutput = false := by
  obtain ⟨_, assignments, ha, _, condition, hc, rfl⟩ := updateBody_eq_ok.1 h
  obtain ⟨row, rfl, hrow, _⟩ := row_of_assignments ha
  intro x hx
  rw [Sql.bindings, filterMap_updateRow passes_binding?] at hx
  rcases List.mem_append.1 hx with hx | hx
  · obtain ⟨w, hw, hx⟩ := List.mem_flatMap.1 hx
    exact (hrow w hw).2.input x hx
  · exact (keyCondition_parts hc).1 x hx

theorem isInput_deleteBody {e : Entity} {links : Links} (h : b.deleteBody e links = .ok sql) :
    ∀ x ∈ sql.bindings, x.isOutput = false := by
  obtain ⟨condition, hc, rfl⟩ := deleteBody_eq_ok.1 h
  intro x hx
  rw [Sql.bindings, Dialect.filterMap_delete passes_binding?
    (Sql.filterMap_table passes_binding? _) rfl] at hx
  exact (keyCondition_parts hc).1 x hx

/-- The inputs of a step are those of its statement. -/
theorem agree_unlinkedBody (b : Builder) (step : BatchStep) (hh : handling ≠ .return) :
    Agree (fun sql sql' => sql.bindings = Sql.inputs sql') (b.unlinkedBody step handling)
      (b.unlinkedBody step .return) := by
  unfold unlinkedBody
  cases step.operation with
  | insert => exact agree_insertBody_handling hh
  | update => exact .refl fun _ h => (Sql.inputs_eq_bindings (isInput_updateBody h)).symm
  | delete => exact .refl fun _ h => (Sql.inputs_eq_bindings (isInput_deleteBody h)).symm

/-- A step needs the key for the encrypted columns that it writes, where they can be encrypted. -/
theorem keyText_unlinkedBody
    (hk : ∀ f ∈ step.touched, f.dataType = .encrypted → ¬ b.CanEncrypt)
    (h : b.unlinkedBody step handling = .ok sql) : sql.filterMap Piece.keyText? = [] := by
  unfold unlinkedBody at h
  unfold BatchStep.touched at hk
  cases hop : step.operation with
  | insert =>
    rw [hop] at h hk
    obtain ⟨entries, hentries, _, rfl⟩ := insertBody_eq_ok.1 h
    obtain ⟨row, hcolumns, hvalues, hrow, _⟩ := row_of_insertEntries hentries
    have hout : (b.dialect.handsOut (b.keyReturn step.entity handling)).filterMap
        Piece.keyText? = [] := by
      refine List.filterMap_eq_nil_iff.2 fun p hp => ?_
      obtain ⟨_, type, rfl⟩ := mem_handsOut hp
      rfl
    rw [hcolumns, hvalues, filterMap_insertRow passes_keyText?, hout, List.append_nil,
      List.flatMap_eq_nil_iff]
    intro w hw
    refine (hrow w hw).2.keyText fun hencrypted hstated => hk _ ?_ hencrypted
    exact List.mem_filter.2 ⟨(hrow w hw).1, Option.isSome_iff_ne_none.2 hstated⟩
  | update =>
    rw [hop] at h hk
    obtain ⟨_, assignments, ha, _, condition, hc, rfl⟩ := updateBody_eq_ok.1 h
    obtain ⟨row, rfl, hrow, _⟩ := row_of_assignments ha
    rw [filterMap_updateRow passes_keyText?, (keyCondition_parts hc).2, List.append_nil,
      List.flatMap_eq_nil_iff]
    intro w hw
    exact (hrow w hw).2.keyText fun hencrypted _ => hk _ (hrow w hw).1 hencrypted
  | delete =>
    rw [hop] at h
    obtain ⟨condition, hc, rfl⟩ := deleteBody_eq_ok.1 h
    rw [Dialect.filterMap_delete passes_keyText? (Sql.filterMap_table passes_keyText? _) rfl]
    exact (keyCondition_parts hc).2

/-- Without a key to return there is nothing to handle. -/
theorem unlinkedBody_keyless (h : step.operation = .insert → step.entity.key? = none) :
    b.unlinkedBody step handling = b.unlinkedBody step .return := by
  unfold unlinkedBody
  cases hop : step.operation with
  | insert =>
    have hkey : b.keyReturn step.entity handling = b.keyReturn step.entity .return := by
      unfold keyReturn
      rw [h hop]
    unfold insertBody
    rw [hkey]
  | update => rfl
  | delete => rfl

/-! ## Steps and statements -/

/-- Finishing goes wrong only where a key is needed that the settings cannot give. -/
theorem exists_finish (h : ¬ b.CanEncrypt → sql.filterMap Piece.keyText? = []) :
    ∃ s, b.finish sql = .ok s := by
  by_cases hcan : b.CanEncrypt
  · obtain ⟨hd, hkeys⟩ := hcan
    obtain ⟨keys, hkeys⟩ := Option.isSome_iff_exists.1 hkeys
    obtain ⟨wrapped, hwrapped⟩ : ∃ wrapped, b.dialect.withKeys sql keys = .ok wrapped := by
      rw [hd]
      exact ⟨_, rfl⟩
    cases hneeds : sql.needsKey with
    | false => exact ⟨_, finish_eq_ok.2 (.inl ⟨hneeds, rfl⟩)⟩
    | true => exact ⟨_, finish_eq_ok.2 (.inr ⟨hneeds, keys, hkeys, wrapped, hwrapped, rfl⟩)⟩
  · exact ⟨_, finish_eq_ok.2 (.inl ⟨Sql.needsKey_eq_false.2 (h hcan), rfl⟩)⟩

theorem inputs_finish (h : b.finish sql = .ok s) : s.sql.inputs = sql.inputs :=
  congrArg (List.filter fun x : Binding => !x.isOutput) (filterMap_finish passes_binding? h)

/-- **A step and its statement agree**, and have the same inputs. -/
theorem agree_step {keyed : KeyVariables} {i : Nat} (hlinks : step.links = []) :
    Agree (fun fragment alone => fragment.bindings = alone.sql.inputs)
      (b.stepBody keyed step i) (b.run step.request) := by
  obtain ⟨handling, hh, hstep⟩ := stepBody_unlinked b keyed i hlinks
  rw [hstep, run_request]
  refine .bind_same fun _ _ => ?_
  have hbody := (agree_unlinkedBody b step hh).with_ok.bind (f := pure)
    (g := b.finish) (S := fun fragment alone => fragment.bindings = alone.sql.inputs)
    fun fragment body ⟨hinputs, _, hok⟩ => by
      obtain ⟨alone, halone⟩ := exists_finish (b := b) fun hcan =>
        keyText_unlinkedBody (fun _ _ _ => hcan) hok
      rw [halone]
      exact .ok (hinputs.trans (inputs_finish halone).symm)
  rwa [bind_pure] at hbody

/-! ## Batches -/

variable {steps : List BatchStep} {fragments : List Sql} {alones : List Statement}

theorem linksBack_of_unlinked (hlinks : ∀ step ∈ steps, step.links = []) : LinksBack steps := by
  intro i step hi link hlink
  rw [hlinks step (List.mem_of_getElem? hi)] at hlink
  exact absurd hlink List.not_mem_nil

/-- The steps and their statements agree one by one. -/
theorem agree_fragments (hlinks : ∀ step ∈ steps, step.links = []) :
    Agree (List.Forall₂ fun fragment alone => Sql.bindings fragment = alone.sql.inputs)
      (steps.zipIdx.mapM fun p => b.stepBody (b.keyVariables steps) p.1 p.2)
      (steps.mapM fun step => b.run step.request) := by
  refine .mapM ?_
  conv => arg 3; rw [← List.zipIdx_map_fst 0 steps]
  rw [List.forall₂_map_right_iff, List.forall₂_same]
  exact fun p hp => agree_step (hlinks p.1 (List.fst_mem_of_mem_zipIdx hp))

theorem keyText_template (h : ∀ fragment ∈ fragments, fragment.filterMap Piece.keyText? = []) :
    (b.dialect.batch ⟨b.templateVariables steps, fragments⟩).filterMap Piece.keyText? = [] := by
  rw [Dialect.filterMap_batch passes_keyText?, List.append_eq_nil_iff, List.flatMap_eq_nil_iff,
    List.filterMap_eq_nil_iff]
  refine ⟨h, fun p hp => ?_⟩
  rw [mem_outputs hp]
  rfl

theorem unlinkedBody_of_stepBody {keyed : KeyVariables} {i : Nat} (hlinks : step.links = [])
    (h : b.stepBody keyed step i = .ok sql) :
    ∃ handling, b.unlinkedBody step handling = .ok sql := by
  obtain ⟨handling, _, hstep⟩ := stepBody_unlinked b keyed i hlinks
  exact ⟨handling, (seq_eq_ok.1 (hstep.symm.trans h)).2⟩

/-- A batch put together from its fragments, and they bind what statements are given. -/
def PutTogether (b : Builder) (steps : List BatchStep) (s : Statement) (alones : List Statement) :
    Prop :=
  ∃ fragments,
    (steps.zipIdx.mapM fun p => b.stepBody (b.keyVariables steps) p.1 p.2) = .ok fragments ∧
    b.finish (b.dialect.batch ⟨b.templateVariables steps, fragments⟩) = .ok s ∧
    List.Forall₂ (fun fragment alone => Sql.bindings fragment = alone.sql.inputs) fragments alones

/-- **A batch and its statements agree.** -/
theorem agree_batch (hne : steps ≠ []) (hlinks : ∀ step ∈ steps, step.links = []) :
    Agree (b.PutTogether steps) (b.batch steps) (steps.mapM fun step => b.run step.request) := by
  rw [batch_of_linksBack hne (linksBack_of_unlinked hlinks)]
  have hbatch := (agree_fragments (b := b) hlinks).with_ok.bind (g := pure)
    (f := fun fragments => b.finish (b.dialect.batch ⟨b.templateVariables steps, fragments⟩))
    (S := b.PutTogether steps)
    fun fragments alones ⟨hinputs, hok, _⟩ => by
      obtain ⟨s, hs⟩ := exists_finish (b := b) fun hcan => keyText_template fun fragment hm => by
        obtain ⟨p, hp, hstep⟩ := exists_of_mem_mapM hok hm
        obtain ⟨_, hbody⟩ := unlinkedBody_of_stepBody
          (hlinks p.1 (List.fst_mem_of_mem_zipIdx hp)) hstep
        exact keyText_unlinkedBody (fun _ _ _ => hcan) hbody
      rw [hs]
      exact .ok ⟨fragments, hok, hs, hinputs⟩
  rwa [bind_pure] at hbatch

/-- Fragments bind what their statements are given, all of it. -/
theorem flatMap_bindings (h : List.Forall₂
      (fun fragment alone => Sql.bindings fragment = alone.sql.inputs) fragments alones) :
    fragments.flatMap Sql.bindings = (alones.flatMap Statement.inputs).map Parameter.toBinding := by
  simp only [flatMap_eq_of_forall₂ h, List.map_flatMap, Statement.bindings_inputs]

/-! ## Texts -/

theorem body_request : b.body step.request = b.unlinkedBody step .return := by
  unfold BatchStep.request unlinkedBody
  cases step.operation with
  | insert => rfl
  | update => rfl
  | delete => rfl

/-- A statement for one row makes up no names of its own. -/
theorem not_adds_request {p : Piece} : ¬ step.request.Adds b p := by
  intro h
  unfold BatchStep.request at h
  cases hop : step.operation with
  | insert =>
    rw [hop] at h
    cases h
  | update =>
    rw [hop] at h
    cases h
  | delete =>
    rw [hop] at h
    cases h

/-! ## The batch and its steps -/

/-- What fragments bind is given, as it is what statements are given. -/
theorem isInput_fragments (h : List.Forall₂
      (fun fragment alone => Sql.bindings fragment = alone.sql.inputs) fragments alones) :
    ∀ x ∈ fragments.flatMap Sql.bindings, x.isOutput = false := by
  rw [flatMap_bindings h]
  refine List.forall_mem_map.2 fun p hp => ?_
  obtain ⟨alone, _, hp⟩ := List.mem_flatMap.1 hp
  simpa using (List.mem_filter.1 hp).2

end Builder

end RecordSql
