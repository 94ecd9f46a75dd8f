import RecordSql.Proofs.ComparedValues
import RecordSql.Proofs.InsertedValues
import RecordSql.Proofs.LinkedFields

/-!
# New keys come back in the last parameters

Oracle returns the key of a new row in an output parameter; SQL Server selects it. Two kinds of
statement return keys at all.

* An insert returns the key of its row, in the target of its `RETURNING`.
* A batch keeps the keys of its inserts in variables while its steps run. Behind the commit it
  assigns each variable to an output, so a batch has an output for every step that keeps its key,
  and the outputs stand in the order of these steps.

What the fields and the conditions of a statement bind is given to the database. It stands in front
of the outputs, so the outputs are numbered on from it. The variables were numbered in a pass of
their own: the assignments pair the two numberings, and the variable in the place of an output has
to be the one that its step sets.
-/

namespace RecordSql

open Checked Text

/-- Parts behind others are numbered on from what these bind. -/
theorem Sql.textsFrom_behind {style : Style} (before after : List Sql) (n : Nat) :
    textsFrom style n (before ++ after) =
      textsFrom style n before ++
        textsFrom style (n + (before.flatMap bindings).length) after := by
  induction before generalizing n with
  | nil => rfl
  | cons part rest ih =>
    rw [List.cons_append, textsFrom, ih, textsFrom, List.flatMap_cons, List.length_append,
      Nat.add_assoc]
    rfl

/-! ## Keys of a batch -/

/-- The steps that keep their keys, each with its place. -/
def capturing (steps : List BatchStep) : List (BatchStep × Nat) :=
  steps.zipIdx.filter fun p => p.1.capturesKey

theorem mem_capturing {steps : List BatchStep} {step : BatchStep} {i : Nat} :
    (step, i) ∈ capturing steps ↔ steps[i]? = some step ∧ step.Captures := by
  rw [capturing, List.mem_filter, List.mem_zipIdx_iff_getElem?, BatchStep.capturesKey_iff]

/-- The types of the keys that a request wants back: that of the row of an insert, and those that
the steps of a batch keep, which are all kept as integers. -/
def Request.newKeys : Request → List DataType
  | .insert e => (e.key?.map Field.dataType).toList
  | .batch steps => (capturing steps).map fun _ => .integer
  | _ => []

/-- The parameters that keys of these types are returned in, numbered from `n`. -/
def keyParameters (n : Nat) (types : List DataType) : List Parameter :=
  (types.zipIdx n).map fun p => ⟨.output p.1, parameterName p.2⟩

namespace Builder

variable {b : Builder} {e : Entity} {r : Request} {steps : List BatchStep} {sql : Sql}
  {s : Statement}

/-- The places of the variables are those of the steps that keep their keys. -/
theorem places_keyVariablesFrom (d : Dialect) (step count : Nat) :
    (keyVariablesFrom d step count steps).map Prod.fst =
      ((steps.zipIdx step).filter fun p => p.1.capturesKey).map Prod.snd := by
  induction steps generalizing step count with
  | nil => rfl
  | cons s rest ih =>
    rw [keyVariablesFrom, List.zipIdx_cons]
    split
    · next hs =>
      rw [List.filter_cons, if_pos hs, List.map_cons, List.map_cons, ih]
    · next hs => rw [List.filter_cons, if_neg hs, ih]

/-- A variable that is given out has the number of the variables before it. -/
theorem name_of_mem_keyVariablesFrom {d : Dialect} {step count : Nat} {v : Nat × String}
    (h : v ∈ keyVariablesFrom d step count steps) :
    ∃ i, v.1 = step + i ∧
      v.2 = d.batchVariable (count + (steps.take i).countP BatchStep.capturesKey) := by
  induction steps generalizing step count with
  | nil => exact absurd h List.not_mem_nil
  | cons s rest ih =>
    rw [keyVariablesFrom] at h
    split at h
    · next hs =>
      rcases List.mem_cons.1 h with rfl | h
      · exact ⟨0, rfl, rfl⟩
      · obtain ⟨i, hplace, hname⟩ := ih h
        refine ⟨i + 1, by omega, ?_⟩
        rw [hname, List.take_succ_cons, List.countP_cons_of_pos hs, Nat.add_right_comm,
          Nat.add_assoc]
    · next hs =>
      obtain ⟨i, hplace, hname⟩ := ih h
      refine ⟨i + 1, by omega, ?_⟩
      rw [hname, List.take_succ_cons, List.countP_cons_of_neg hs]

/-- **The variables of a batch are those of the steps that keep their keys**, in their order. -/
theorem keyVariables_eq :
    b.keyVariables steps = (capturing steps).map fun c => (c.2, b.variableOf steps c.2) := by
  have hname : ∀ v ∈ b.keyVariables steps, (v.1, b.variableOf steps v.1) = v := by
    intro v hv
    obtain ⟨i, hplace, hname⟩ := name_of_mem_keyVariablesFrom hv
    rw [Nat.zero_add] at hplace hname
    rw [variableOf, hplace, ← hname, ← hplace]
  have hplaces : (keyVariablesFrom b.dialect 0 0 steps).map Prod.fst =
      (capturing steps).map Prod.snd := places_keyVariablesFrom b.dialect 0 0
  calc b.keyVariables steps
      = ((b.keyVariables steps).map Prod.fst).map fun i => (i, b.variableOf steps i) := by
        rw [List.map_map]
        exact ((List.map_congr_left hname).trans (List.map_id _)).symm
    _ = (capturing steps).map fun c => (c.2, b.variableOf steps c.2) := by
        rw [keyVariables, hplaces, List.map_map]
        rfl

theorem templateVariables_eq :
    b.templateVariables steps =
      (capturing steps).map fun c => b.batchVariable (b.variableOf steps c.2) := by
  rw [templateVariables, keyVariables_eq, List.map_map]
  rfl

/-! ## What is bound -/

/-- The types of the keys that the answer to a request hands out. -/
def returnedKeys (b : Builder) (r : Request) : List DataType :=
  match b.dialect with
  | .sqlServer => []
  | .oracle => r.newKeys

theorem returnedKeys_oracle (hd : b.dialect = .oracle) : b.returnedKeys r = r.newKeys := by
  rw [returnedKeys, hd]

theorem output_batchVariable (hd : b.dialect = .oracle) (name : String) :
    (b.batchVariable name).output = some [.bind (.output .integer)] := by
  simp only [batchVariable, hd, Dialect.returnsKeyInParameter, if_true]

/-- A batch hands out one key for each variable. -/
theorem bindings_outputs :
    (b.dialect.outputs (b.templateVariables steps)).bindings =
      (b.returnedKeys (.batch steps)).map Binding.output := by
  unfold returnedKeys
  cases hd : b.dialect with
  | sqlServer => rfl
  | oracle =>
    rw [templateVariables_eq]
    dsimp only [Dialect.outputs, Request.newKeys]
    induction capturing steps with
    | nil => rfl
    | cons c rest ih =>
      rw [List.map_cons, List.filterMap_cons_some (output_batchVariable hd _), List.flatten_cons,
        Sql.bindings_append, ih]
      rfl

theorem bindings_handsOut :
    (b.dialect.handsOut (b.keyReturn e .return)).bindings =
      (b.returnedKeys (.insert e)).map Binding.output := by
  have hkeys : (Request.insert e).newKeys = (e.key?.map Field.dataType).toList := rfl
  unfold keyReturn returnedKeys
  rw [hkeys]
  cases e.key? <;> cases b.dialect <;> rfl

/-- An insert binds what it is given, and behind it what hands its key out. -/
theorem bindings_insertBody {links : Links} {handling : KeyHandling}
    (h : b.insertBody e links handling = .ok sql) :
    ∃ given, sql.bindings =
        given ++ (b.dialect.handsOut (b.keyReturn e handling)).bindings ∧
      ∀ x ∈ given, x.isOutput = false := by
  obtain ⟨entries, hentries, _, rfl⟩ := insertBody_eq_ok.1 h
  obtain ⟨row, hcolumns, hvalues, hrow, _⟩ := row_of_insertEntries hentries
  rw [hcolumns, hvalues]
  refine ⟨_, filterMap_insertRow passes_binding? row handling, fun x hx => ?_⟩
  obtain ⟨w, hw, hx⟩ := List.mem_flatMap.1 hx
  exact (hrow w hw).2.input x hx

/-- A step of a batch hands nothing out itself. -/
theorem isInput_stepBody {keyed : KeyVariables} {step : BatchStep} {i : Nat}
    (h : b.stepBody keyed step i = .ok sql) : ∀ x ∈ sql.bindings, x.isOutput = false := by
  obtain ⟨_, links, _, ⟨_, h⟩ | ⟨_, h⟩ | ⟨_, h⟩⟩ := stepBody_eq_ok.1 h
  · obtain ⟨given, hbindings, hgiven⟩ := bindings_insertBody h
    have hkept := handsOut_of_ne_return (b := b) (e := step.entity)
      (handlingOf_ne_return (keyed.lookup i))
    have hnone : sql.bindings = given := by
      rw [hbindings]
      exact (congrArg (given ++ Sql.bindings ·) hkept).trans (List.append_nil _)
    rwa [hnone]
  · exact isInput_updateBody h
  · exact isInput_deleteBody h

/-- A batch binds what its fragments bind, and behind it the keys that it returns. -/
theorem bindings_batch {fragments : List Sql} :
    (b.dialect.batch ⟨b.templateVariables steps, fragments⟩).bindings =
      fragments.flatMap Sql.bindings ++ (b.returnedKeys (.batch steps)).map Binding.output := by
  rw [← bindings_outputs]
  exact Dialect.filterMap_batch passes_binding? _

theorem given_fragments {keyed : KeyVariables} {fragments : List Sql}
    (h : (steps.zipIdx.mapM fun p => b.stepBody keyed p.1 p.2) = .ok fragments) :
    ∀ x ∈ fragments.flatMap Sql.bindings, x.isOutput = false := by
  intro x hx
  obtain ⟨fragment, hm, hx⟩ := List.mem_flatMap.1 hx
  obtain ⟨_, _, hone⟩ := exists_of_mem_mapM h hm
  exact isInput_stepBody hone x hx

/-- **Statements bind what they are given, and behind it the keys that they return.** -/
theorem bindings_body (h : b.body r = .ok sql) :
    ∃ given, sql.bindings = given ++ (b.returnedKeys r).map Binding.output ∧
      ∀ x ∈ given, x.isOutput = false := by
  have hnothing : b.returnedKeys r = [] → (∀ x ∈ sql.bindings, x.isOutput = false) →
      ∃ given, sql.bindings = given ++ (b.returnedKeys r).map Binding.output ∧
        ∀ x ∈ given, x.isOutput = false := by
    intro hnone hgiven
    exact ⟨_, by rw [hnone, List.map_nil, List.append_nil], hgiven⟩
  have hreads : b.returnedKeys r = [] → sql.OnlyBinds Binding.Compared →
      ∃ given, sql.bindings = given ++ (b.returnedKeys r).map Binding.output ∧
        ∀ x ∈ given, x.isOutput = false :=
    fun hnone hcompared => hnothing hnone fun x hx => (hcompared x hx).isInput
  have hother : r.newKeys = [] → b.returnedKeys r = [] := by
    intro hnone
    unfold returnedKeys
    cases b.dialect with
    | sqlServer => rfl
    | oracle => exact hnone
  cases r with
  | select e l => exact hreads (hother rfl) (compared_selectBody h)
  | count e l => exact hreads (hother rfl) (compared_countBody h)
  | selectByKey e => exact hreads (hother rfl) (compared_selectByKeyBody h)
  | selectByExample e combinator =>
    exact hreads (hother rfl) (compared_selectByExampleBody h)
  | insert e =>
    obtain ⟨given, hbindings, hgiven⟩ := bindings_insertBody h
    exact ⟨given, by rw [hbindings, bindings_handsOut], hgiven⟩
  | update e => exact hnothing (hother rfl) (isInput_updateBody h)
  | updateProperties e names => exact hnothing (hother rfl) (isInput_updateBody h)
  | delete e => exact hnothing (hother rfl) (isInput_deleteBody h)
  | aggregate e aggregation source =>
    exact hreads (hother rfl) (compared_aggregateBody h)
  | batch steps =>
    obtain ⟨_, _, fragments, hall, rfl⟩ := batchBody_eq_ok.1 h
    exact ⟨_, bindings_batch, given_fragments hall⟩

/-! ## Outputs -/

/-- The outputs are the last parameters, numbered on from what is given. -/
theorem outputs_of_bindings {given : List Binding} {types : List DataType}
    (h : s.sql.bindings = given ++ types.map Binding.output)
    (hgiven : ∀ x ∈ given, x.isOutput = false) :
    s.outputs = keyParameters given.length types ∧
      ∃ front, s.parameters = front ++ s.outputs ∧ front.length = given.length ∧
        ∀ p ∈ front, p.isOutput = false := by
  have hparameters : s.parameters =
      (given.zipIdx.map fun p => ⟨p.1, parameterName p.2⟩) ++ keyParameters given.length types := by
    rw [Statement.parameters, Sql.parameters, h, List.zipIdx_append, List.map_append, Nat.zero_add,
      List.zipIdx_map, List.map_map]
    rfl
  have hfront : ∀ p ∈ given.zipIdx.map fun p => (⟨p.1, parameterName p.2⟩ : Parameter),
      p.isOutput = false :=
    List.forall_mem_map.2 fun p hp => hgiven p.1 (List.fst_mem_of_mem_zipIdx hp)
  have hkeys : ∀ p ∈ keyParameters given.length types, p.isOutput = true :=
    List.forall_mem_map.2 fun _ _ => rfl
  have houtputs : s.outputs = keyParameters given.length types := by
    rw [Statement.outputs, hparameters, List.filter_append, List.filter_eq_self.2 hkeys,
      List.filter_eq_nil_iff.2 fun p hp => by simp [hfront p hp], List.nil_append]
  refine ⟨houtputs, _, houtputs ▸ hparameters, ?_, hfront⟩
  rw [List.length_map, List.length_zipIdx]

/-- On Oracle a body is finished as it is. -/
theorem finish_oracle (hd : b.dialect = .oracle) (h : b.finish sql = .ok s) :
    sql.needsKey = false ∧ s = ⟨sql, b.style⟩ := by
  rcases finish_cases h with hplain | ⟨_, hserver, _⟩
  · exact hplain
  · exact absurd (hd.symm.trans hserver) (by decide)

/-- The placeholders of a statement of Oracle, where nothing is encrypted. -/
theorem placeholders_oracle (hd : b.dialect = .oracle) (hl : r.functionAliases = [])
    (h : b.run r = .ok s) :
    placeholders b.dialect.mark s.text.toList =
      (List.range s.parameters.length).map fun i => b.dialect.placeholder (parameterName i) := by
  obtain ⟨hchecks, sql, hbody, hfinish⟩ := run_eq_ok h
  obtain ⟨hneeds, hs⟩ := finish_oracle hd hfinish
  have hformed := formed_body hbody
  have hnone : ∀ label ∈ r.functionAliases, Unmarked label := by
    rw [hl]
    exact List.forall_mem_nil _
  have hquiet : ∀ p ∈ sql, p.Quiet b.style := fun p hp =>
    quiet_stock (fun hkeyed => absurd hkeyed (List.any_eq_false.1 hneeds p hp)) hchecks
      (fun _ hadds => unmarked_adds hnone h hadds) (hformed.stock p hp)
  have hread := Sql.placeholders_charsFrom hquiet hformed.apart 0
  rw [hs, Statement.length_parameters, List.range_eq_range', Statement.text, Sql.write,
    String.toList_ofList]
  exact hread

/-- The placeholder of an output stands once in its statement. -/
theorem count_placeholder (hd : b.dialect = .oracle) (hl : r.functionAliases = [])
    (h : b.run r = .ok s) {p : Parameter} (hp : p ∈ s.outputs) :
    (placeholders b.dialect.mark s.text.toList).count (b.dialect.placeholder p.name) = 1 := by
  have hm : p.name ∈ s.parameters.map Parameter.name :=
    List.mem_map_of_mem (List.mem_of_mem_filter hp)
  rw [Statement.name_parameters] at hm
  obtain ⟨i, hi, hname⟩ := List.mem_map.1 hm
  rw [placeholders_oracle hd hl h, ← hname]
  exact List.count_eq_one_of_mem
    (List.nodup_range.map b.dialect.placeholder_injective) (List.mem_map_of_mem hi)

/-! ## Where keys come from -/

/-- The clause that puts the key of a new row into a target. -/
def returning (b : Builder) (key : Field) (target : String) : String :=
  " RETURNING " ++ b.style.identifier key.columnName ++ " INTO " ++ target

/-- **An insert of Oracle ends with the return of its key**, into its last parameter. -/
theorem text_insert (hd : b.dialect = .oracle) {key : Field} (hkey : e.key? = some key)
    (h : b.insert e = .ok s) :
    ∃ front p, s.outputs = [p] ∧
      s.text = front ++ b.returning key (b.dialect.placeholder p.name) := by
  obtain ⟨_, sql, hbody, hfinish⟩ := build_eq_ok.1 h
  obtain ⟨row, _, _, _, rfl⟩ := exists_row_of_insertBody hbody
  obtain ⟨_, rfl⟩ := finish_oracle hd hfinish
  have hkeys : (Request.insert e).newKeys = [key.dataType] :=
    congrArg (fun k => (k.map Field.dataType).toList) hkey
  have hbindings : Sql.bindings (b.dialect.insert (b.rowParts e row) (b.keyReturn e .return)) =
      Entry.bindings row ++ [key.dataType].map Binding.output := by
    rw [bindings_insert, bindings_handsOut, returnedKeys_oracle hd, hkeys]
  obtain ⟨houtputs, _⟩ := outputs_of_bindings (s := ⟨b.dialect.insert (b.rowParts e row)
    (b.keyReturn e .return), b.style⟩) hbindings Entry.isInput_bindings
  have hreturned : ∀ n, b.returnTexts e n =
      ("", b.returning key (b.dialect.placeholder (parameterName n))) := by
    intro n
    rw [returnTexts, hkey, hd]
    rfl
  obtain ⟨front, hfront⟩ : ∃ front, b.insertText e row =
      front ++ (b.returnTexts e (Entry.bindings row).length).2 := ⟨_, rfl⟩
  rw [hreturned] at hfront
  exact ⟨front, _, houtputs, write_insert.trans hfront⟩

/-- A fragment that keeps its key ends with the return of it, into its variable. -/
theorem KeepsKeyIn.charsFrom {name : String} (hd : b.dialect = .oracle)
    (h : b.KeepsKeyIn e name sql) (n : Nat) :
    ∃ front key, e.key? = some key ∧
      Sql.charsFrom b.style n sql = front ++ (b.returning key name).toList := by
  obtain ⟨key, parts, hkey, rfl⟩ := h
  have hreturned : ∀ n, Sql.charsFrom b.style n
      [.text " RETURNING ", .name key.columnName, .text " INTO ", .variable name] =
        (b.returning key name).toList := by
    intro n
    rw [returning, String.toList_append, String.toList_append, String.toList_append,
      List.append_assoc, List.append_assoc, ← List.append_nil name.toList]
    rfl
  have hinsert : b.dialect.insert parts (.capture [.name key.columnName] name) =
      (Dialect.insertHead parts ++ Dialect.insertValues parts) ++
        [.text " RETURNING ", .name key.columnName, .text " INTO ", .variable name] := by
    rw [hd, Dialect.insert, List.append_assoc]
    rfl
  exact ⟨_, key, hkey, by rw [hinsert, Sql.charsFrom_append, hreturned]⟩

/-! ## Batches -/

/-- The line that assigns a variable to an output. -/
def handOver (b : Builder) (p : Parameter) (name : String) : String :=
  "  " ++ b.dialect.placeholder p.name ++ " := " ++ name ++ ";"

/-- The lines that hand over the variables of the steps that keep their keys, output by output. -/
def handOvers (b : Builder) (steps : List BatchStep) (outputs : List Parameter) : List String :=
  List.zipWith (fun p c => b.handOver p (b.variableOf steps c.2)) outputs (capturing steps)

/-- The text of a batch of Oracle: behind the commit it hands the keys over. -/
def oracleBatch (b : Builder) (steps : List BatchStep) (texts : List (List Char))
    (outputs : List Parameter) : List Char :=
  lines ((b.dialect.batchHeader (b.variableNames steps)).map String.toList ++
    texts.map b.dialect.batchLine ++
      b.dialect.commitLine.toList :: (b.handOvers steps outputs).map String.toList) ++
    "END;".toList

/-- The assignment of a variable as it is put together. -/
def assignmentLine (name : String) : Sql :=
  [.text "  ", .bind (.output .integer), .text " := ", .variable name, .text ";"]

theorem charsFrom_assignmentLine (name : String) (n : Nat) :
    Sql.charsFrom b.style n (assignmentLine name) =
      (b.handOver ⟨.output .integer, parameterName n⟩ name).toList := by
  simp only [handOver, String.toList_append, List.append_assoc]
  rw [← List.append_nil ";".toList]
  rfl

/-- The lines of a batch of Oracle. -/
theorem batchLines_oracle (hd : b.dialect = .oracle) (fragments : List Sql) :
    b.dialect.batchLines ⟨b.templateVariables steps, fragments⟩ =
      (b.dialect.headerLines (b.variableNames steps) ++ fragments.map b.dialect.fragmentLine ++
        [.text b.dialect.commitLine] ::
          (capturing steps).map fun c => assignmentLine (b.variableOf steps c.2)) ++
        [[.text "END;"]] := by
  have hnames : (b.templateVariables steps).map BatchVariable.name = b.variableNames steps := by
    rw [templateVariables, List.map_map, ← names_keyVariables]
    rfl
  have hclosing : b.dialect.closingLines (b.templateVariables steps) =
      ((capturing steps).map fun c => assignmentLine (b.variableOf steps c.2)) ++
        [[.text "END;"]] := by
    rw [hd, templateVariables_eq]
    dsimp only [Dialect.closingLines]
    rw [List.filterMap_map]
    refine congrArg (· ++ [[Piece.text "END;"]]) ?_
    refine List.filterMap_eq_map_iff_forall_eq_some.2 fun c _ => ?_
    rw [Function.comp_apply, output_batchVariable hd]
    rfl
  rw [Dialect.batchLines_eq, hclosing, hnames, List.append_assoc, List.append_assoc,
    List.append_assoc]
  rfl

/-- The assignments are numbered as the outputs are. -/
theorem textsFrom_assignmentLines (cs : List (BatchStep × Nat)) (n : Nat) :
    Sql.textsFrom b.style n (cs.map fun c => assignmentLine (b.variableOf steps c.2)) =
      (List.zipWith (fun p c => b.handOver p (b.variableOf steps c.2))
        (keyParameters n (cs.map fun _ => .integer)) cs).map String.toList := by
  induction cs generalizing n with
  | nil => rfl
  | cons c rest ih =>
    rw [List.map_cons, Sql.textsFrom, charsFrom_assignmentLine]
    exact congrArg (List.cons _) (ih (n + 1))

theorem charsFrom_batch (hd : b.dialect = .oracle) (fragments : List Sql) :
    Sql.charsFrom b.style 0 (b.dialect.batch ⟨b.templateVariables steps, fragments⟩) =
      b.oracleBatch steps (Sql.textsFrom b.style 0 fragments)
        (keyParameters (fragments.flatMap Sql.bindings).length
          (Request.batch steps).newKeys) := by
  have hheader : (b.dialect.headerLines (b.variableNames steps)).flatMap Sql.bindings = [] :=
    List.flatMap_eq_nil_iff.2 (Dialect.bindings_headerLines _)
  have hfragments : (fragments.map b.dialect.fragmentLine).flatMap Sql.bindings =
      fragments.flatMap Sql.bindings := by
    rw [List.flatMap_map]
    exact List.flatMap_congr fun fragment _ => Dialect.bindings_fragmentLine fragment
  have hbehind : ∀ n, Sql.textsFrom b.style n ([.text b.dialect.commitLine] ::
      (capturing steps).map fun c => assignmentLine (b.variableOf steps c.2)) =
        b.dialect.commitLine.toList :: (b.handOvers steps
          (keyParameters n (Request.batch steps).newKeys)).map String.toList := by
    intro n
    rw [Sql.textsFrom, Dialect.charsFrom_wording]
    exact congrArg (List.cons _) (textsFrom_assignmentLines _ n)
  have hend : ∀ n, Sql.charsFrom b.style n (Sql.joined "\n" [[.text "END;"]]) = "END;".toList :=
    Dialect.charsFrom_wording _
  rw [Dialect.batch, batchLines_oracle hd, Sql.joined_append (List.cons_ne_nil _ _),
    Sql.charsFrom_append, Sql.charsFrom_lines, Sql.textsFrom_behind, List.flatMap_append, hheader,
    hfragments, List.nil_append, Nat.zero_add, hbehind, hend,
    Sql.textsFrom_append (Dialect.bindings_headerLines _), Dialect.charsFrom_headerLines,
    Dialect.textsFrom_fragmentLines, oracleBatch]

/-- **A batch of Oracle hands its keys over behind the commit.** -/
theorem text_batch (hd : b.dialect = .oracle) (h : b.batch steps = .ok s) :
    ∃ fragments,
      (steps.zipIdx.mapM fun p => b.stepBody (b.keyVariables steps) p.1 p.2) = .ok fragments ∧
      s.text.toList = b.oracleBatch steps (Sql.textsFrom b.style 0 fragments) s.outputs := by
  obtain ⟨sql, hbody, hfinish⟩ := batch_eq_ok.1 h
  obtain ⟨_, _, fragments, hall, rfl⟩ := batchBody_eq_ok.1 hbody
  obtain ⟨_, rfl⟩ := finish_oracle hd hfinish
  obtain ⟨houtputs, _⟩ := outputs_of_bindings (s := ⟨b.dialect.batch ⟨b.templateVariables steps,
    fragments⟩, b.style⟩) bindings_batch (given_fragments hall)
  refine ⟨fragments, hall, ?_⟩
  rw [Statement.text, Sql.write, String.toList_ofList]
  refine (charsFrom_batch hd fragments).trans ?_
  rw [← returnedKeys_oracle hd, ← houtputs]
  rfl

/-- The steps that keep their keys return them into their variables. -/
theorem returning_of_capturing (hd : b.dialect = .oracle) (h : b.batch steps = .ok s)
    {fragments : List Sql}
    (hall : (steps.zipIdx.mapM fun p => b.stepBody (b.keyVariables steps) p.1 p.2) = .ok fragments)
    {c : BatchStep × Nat} (hc : c ∈ capturing steps) :
    ∃ front key, c.1.entity.key? = some key ∧
      (Sql.textsFrom b.style 0 fragments)[c.2]? =
        some (front ++ (b.returning key (b.variableOf steps c.2)).toList) := by
  obtain ⟨hback, _⟩ := batch_fragments h
  obtain ⟨hi, hcaptures⟩ := mem_capturing.1 hc
  have hlength : fragments.length = steps.length := by
    rw [← (mapM_eq_ok.1 hall).length_eq, List.length_zipIdx]
  obtain ⟨fragment, hfragment⟩ : ∃ fragment, fragments[c.2]? = some fragment :=
    ⟨_, List.getElem?_eq_getElem (hlength ▸ (List.getElem?_eq_some_iff.1 hi).1)⟩
  have hkeeps := keepsKeyIn_stepBody hi hcaptures (hback _ _ hi)
    (stepBody_of_getElem? hall hi hfragment)
  obtain ⟨front, key, hkey, htext⟩ :=
    hkeeps.charsFrom hd (0 + ((fragments.take c.2).flatMap Sql.bindings).length)
  refine ⟨front, key, hkey, ?_⟩
  rw [Sql.getElem?_textsFrom, hfragment, Option.map_some, htext]

/-! ## Requests -/

/-- The parameters of an answer: what is given, and then the keys that are handed out. -/
theorem parameters_run (h : b.run r = .ok s) :
    ∃ given, s.parameters = given ++ s.outputs ∧ (∀ p ∈ given, p.isOutput = false) ∧
      s.outputs = keyParameters given.length (b.returnedKeys r) := by
  obtain ⟨_, sql, hbody, hfinish⟩ := run_eq_ok h
  obtain ⟨given, hbindings, hgiven⟩ := bindings_body hbody
  obtain ⟨houtputs, front, hparameters, hlength, hfront⟩ :=
    outputs_of_bindings ((filterMap_finish passes_binding? hfinish).trans hbindings) hgiven
  exact ⟨front, hparameters, hfront, hlength ▸ houtputs⟩

/-- Only Oracle hands keys out, of inserts and batches, and neither has names of its own. -/
theorem oracle_of_mem_outputs (h : b.run r = .ok s) {p : Parameter} (hp : p ∈ s.outputs) :
    b.dialect = .oracle ∧ r.functionAliases = [] := by
  obtain ⟨given, _, _, houtputs⟩ := parameters_run h
  have hkeys : b.returnedKeys r ≠ [] := by
    intro hnone
    rw [houtputs, hnone] at hp
    exact absurd hp List.not_mem_nil
  cases hd : b.dialect with
  | sqlServer => exact absurd (by rw [returnedKeys, hd]) hkeys
  | oracle =>
    rw [returnedKeys_oracle hd] at hkeys
    refine ⟨rfl, ?_⟩
    cases r with
    | insert e => rfl
    | batch steps => rfl
    | _ => exact absurd rfl hkeys

/-- **New keys come back in the last parameters.** What else a statement binds is given to the
database and stands in front of them. SQL Server hands nothing out. On Oracle an insert hands out
the key of its entity, if it has one: it ends with the `RETURNING` of the key, whose target is the
placeholder of the last parameter. A batch hands out a key for each step that keeps its key, in the
order of the steps: the fragment of the step returns the key into the variable of the step, and
behind the commit this variable is assigned to the output in the place of the step. The placeholder
of an output stands nowhere else. Other statements hand nothing out. -/
theorem outputs_run (h : b.run r = .ok s) :
    (∃ given, s.parameters = given ++ s.outputs ∧ (∀ p ∈ given, p.isOutput = false) ∧
      s.outputs = keyParameters given.length (b.returnedKeys r)) ∧
    (∀ p ∈ s.outputs,
      (placeholders b.dialect.mark s.text.toList).count (b.dialect.placeholder p.name) = 1) ∧
    (b.dialect = .oracle →
      (∀ e key, r = .insert e → e.key? = some key → ∃ front p, s.outputs = [p] ∧
        s.text = front ++ b.returning key (b.dialect.placeholder p.name)) ∧
      ∀ steps, r = .batch steps → ∃ fragments,
        (steps.zipIdx.mapM fun p => b.stepBody (b.keyVariables steps) p.1 p.2) = .ok fragments ∧
        s.text.toList = b.oracleBatch steps (Sql.textsFrom b.style 0 fragments) s.outputs ∧
        ∀ c ∈ capturing steps, ∃ front key, c.1.entity.key? = some key ∧
          (Sql.textsFrom b.style 0 fragments)[c.2]? =
            some (front ++ (b.returning key (b.variableOf steps c.2)).toList)) := by
  refine ⟨parameters_run h, fun p hp => ?_, fun hd => ⟨?_, ?_⟩⟩
  · obtain ⟨hd, hl⟩ := oracle_of_mem_outputs h hp
    exact count_placeholder hd hl h hp
  · rintro e key rfl hkey
    exact text_insert hd hkey h
  · rintro steps rfl
    obtain ⟨fragments, hall, htext⟩ := text_batch hd h
    exact ⟨fragments, hall, htext, fun c hc => returning_of_capturing hd h hall hc⟩

theorem outputs_run_orderLine :
    (∃ s, (ofConfig (.new .oracle)).run (.batch [order, orderLine]) = .ok s ∧
      s.outputs.map Parameter.name = ["p2", "p3"] ∧
      (∀ p ∈ s.outputs, (placeholders ':' s.text.toList).count (":" ++ p.name) = 1) ∧
      ∃ fragments, s.text.toList = (ofConfig (.new .oracle)).oracleBatch [order, orderLine]
        (Sql.textsFrom (ofConfig (.new .oracle)).style 0 fragments) s.outputs) ∧
    (∃ s front, (ofConfig (.new .oracle)).run (.insert order.entity) = .ok s ∧
      s.text = front ++ " RETURNING Id INTO :p1") ∧
    ∃ s, Builder.default.run (.batch [order, orderLine]) = .ok s ∧ s.outputs = [] := by
  refine ⟨?_, ?_, ?_⟩
  · obtain ⟨s, hs⟩ : ∃ s, (ofConfig (.new .oracle)).run (.batch [order, orderLine]) = .ok s :=
      ⟨_, rfl⟩
    obtain ⟨_, hcount, horacle⟩ := outputs_run hs
    obtain ⟨fragments, _, htext, _⟩ := (horacle rfl).2 _ rfl
    refine ⟨s, hs, ?_, hcount, fragments, htext⟩
    obtain rfl := Except.ok.inj hs
    rfl
  · obtain ⟨s, hs⟩ : ∃ s, (ofConfig (.new .oracle)).run (.insert order.entity) = .ok s := ⟨_, rfl⟩
    obtain ⟨_, _, horacle⟩ := outputs_run hs
    obtain ⟨front, p, hp, htext⟩ := (horacle rfl).1 _ _ rfl rfl
    obtain rfl := Except.ok.inj hs
    obtain rfl := (List.singleton_inj.1 hp).symm
    exact ⟨_, front, rfl, htext⟩
  · obtain ⟨s, hs⟩ : ∃ s, Builder.default.run (.batch [order, orderLine]) = .ok s := ⟨_, rfl⟩
    obtain ⟨⟨_, _, _, houtputs⟩, _⟩ := outputs_run hs
    exact ⟨s, hs, houtputs⟩

end Builder

end RecordSql
