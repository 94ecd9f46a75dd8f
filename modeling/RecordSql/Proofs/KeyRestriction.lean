import RecordSql.Proofs.Agreement
import RecordSql.Proofs.BatchSteps
import RecordSql.Proofs.ValueTypes

/-!
# A row is picked by its key

An update, a delete and the select of one row end in a condition on the key: its column, and what it
is compared with. That is a parameter with the value of the key, or in a batch the variable of a
link. Nothing stands behind the condition but what closes the symmetric key, so its parameter is the
last one, and no two parts of a template can come between.

* Both dialects put the condition at the end of their templates.
* A checked entity has at most one key field, so the key that is found is the only one.
* Only `null` is coerced to a null, and a property that is `null` counts as missing, so the value is
  none.
* Without a key, or without a value for it, the condition is refused; what comes before it may have
  been refused already.
-/

namespace RecordSql

open Checked

/-! ## Keys and their values -/

/-- The field is the only key of the entity. -/
def Entity.OnlyKey (e : Entity) (key : Field) : Prop := e.fields.filter Field.isKey = [key]

/-- The field is the only key of the entity, and its property has this value in its type. -/
def Entity.KeyValue (e : Entity) (key : Field) (value : Value) : Prop :=
  e.OnlyKey key ∧
    ∃ json, e.present? key.name = some json ∧ Value.coerce json key.dataType = .ok value

namespace Entity

variable {e : Entity} {key : Field}

theorem OnlyKey.key? (h : e.OnlyKey key) : e.key? = some key := by
  rw [Entity.key?, ← List.head?_filter, h]
  rfl

/-- The key of a checked entity is its only one. -/
theorem onlyKey_of_key? (hc : e.check = .ok ()) (h : e.key? = some key) : e.OnlyKey key := by
  have hcount := (check_eq_ok.1 hc).2.2.1
  have hhead : (e.fields.filter Field.isKey).head? = some key := by
    rw [List.head?_filter]
    exact h
  rw [List.countP_eq_length_filter] at hcount
  obtain ⟨rest, hrest⟩ := List.head?_eq_some_iff.1 hhead
  rw [hrest, List.length_cons] at hcount
  rw [OnlyKey, hrest, List.eq_nil_of_length_eq_zero (by omega : rest.length = 0)]

/-- A property that is null counts as missing. -/
theorem isNull_of_present? {name : String} (h : e.present? name = some json) :
    json.isNull = false := by
  obtain ⟨_, hjson⟩ := Option.filter_eq_some_iff.1 h
  simpa using hjson

/-- The value of a key is never null. -/
theorem KeyValue.ne_null (h : e.KeyValue key value) : value ≠ .null := by
  obtain ⟨_, json, hpresent, hvalue⟩ := h
  exact Value.ne_null_of_coerce (isNull_of_present? hpresent) hvalue

end Entity

/-- A step has something to pick its row by: a link to its only key, or a value of it. -/
def BatchStep.PicksRow (step : BatchStep) : Prop :=
  ∃ key, step.entity.OnlyKey key ∧
    ((∃ link ∈ step.links, link.field = key.name) ∨ ∃ value, step.entity.KeyValue key value)

/-- The entity whose row a request picks by its key. -/
def Request.picked? : Request → Option Entity
  | .selectByKey e | .update e | .updateProperties e _ | .delete e => some e
  | _ => none

/-! ## The condition at the end -/

/-- What a statement that picks a row ends in. -/
def keyTail (key : Field) (value : Piece) : Sql :=
  [.text " WHERE ", .column .root key.columnName, .text " = ", value]

/-- The same as text: the key and what it is compared with. -/
def keyText (style : Style) (key : Field) (place : String) : String :=
  " WHERE " ++ style.qualified .root key.columnName ++ " = " ++ place

theorem charsFrom_keyTail {style : Style} {key : Field} {value : Piece} (n : Nat) :
    Sql.charsFrom style n (keyTail key value) =
      (keyText style key (value.write style n)).toList := by
  have hvalue : Sql.charsFrom style n [value] = (value.write style n).toList := by
    cases value <;> exact List.append_nil _
  rw [keyText, String.toList_append, String.toList_append, String.toList_append, ← hvalue]
  show _ ++ (_ ++ (_ ++ _)) = _
  rw [List.append_assoc, List.append_assoc]
  rfl

/-- The condition behind a part is numbered on from what the part binds. -/
theorem charsFrom_append_keyTail {style : Style} {key : Field} {value : Piece} (before : Sql)
    (n : Nat) :
    Sql.charsFrom style n (before ++ keyTail key value) =
      Sql.charsFrom style n before ++
        (keyText style key (value.write style (n + before.bindings.length))).toList := by
  rw [Sql.charsFrom_append, charsFrom_keyTail]

theorem Dialect.exists_update (d : Dialect) (table tableAlias : Sql) (assignments : List Sql)
    (condition : Sql) : ∃ before,
      d.update table tableAlias assignments condition = before ++ .text " WHERE " :: condition := by
  cases d with
  | sqlServer => exact ⟨_, rfl⟩
  | oracle => exact ⟨_, rfl⟩

theorem Dialect.exists_delete (d : Dialect) (table tableAlias condition : Sql) : ∃ before,
    d.delete table tableAlias condition = before ++ .text " WHERE " :: condition := by
  cases d with
  | sqlServer => exact ⟨_, rfl⟩
  | oracle => exact ⟨_, rfl⟩

namespace Builder

variable {b : Builder} {e : Entity} {sql : Sql} {s : Statement} {links : Links}

/-- A select of one row ends in its condition, as it has no order. -/
theorem exists_plainSelect (projection source condition : Sql) : ∃ before,
    plainSelect ⟨projection, source, some condition, []⟩ =
      before ++ .text " WHERE " :: condition := by
  refine ⟨.text "SELECT " :: projection ++ .text " " :: source, ?_⟩
  simp [plainSelect, Sql.whereSuffix]

/-- Ends in the condition on the only key: its variable if it is linked, and else its value. -/
def EndsInKey (e : Entity) (links : Links) (sql : Sql) : Prop :=
  ∃ key before, e.OnlyKey key ∧
    ((∃ name, links.lookup key.name = some name ∧
        sql = before ++ keyTail key (.variable name)) ∨
      (links.lookup key.name = none ∧ ∃ value, e.KeyValue key value ∧
        sql = before ++ keyTail key (.bind (.input value key.dataType))))

theorem endsInKey_keyCondition {condition before : Sql} (hc : e.check = .ok ())
    (h : keyCondition e (keyLink? e links) = .ok condition) :
    EndsInKey e links (before ++ .text " WHERE " :: condition) := by
  obtain ⟨key, hkey, hcondition⟩ := keyCondition_eq_ok.1 h
  have honly := Entity.onlyKey_of_key? hc hkey
  rw [keyLink?, hkey, Option.bind_some] at hcondition
  refine ⟨key, before, honly, ?_⟩
  rcases hcondition with ⟨name, hname, rfl⟩ | ⟨hnone, json, hjson, value, hvalue, rfl⟩
  · exact .inl ⟨name, hname, rfl⟩
  · exact .inr ⟨hnone, value, ⟨honly, json, hjson, hvalue⟩, rfl⟩

theorem endsInKey_updateBody {names : Option (List String)} (hc : e.check = .ok ())
    (h : b.updateBody e names links = .ok sql) : EndsInKey e links sql := by
  obtain ⟨_, assignments, _, _, condition, hcondition, rfl⟩ := updateBody_eq_ok.1 h
  obtain ⟨before, hbefore⟩ := b.dialect.exists_update (Sql.table e.table)
    [.text TableAlias.root.text] assignments condition
  rw [hbefore]
  exact endsInKey_keyCondition hc hcondition

theorem endsInKey_deleteBody (hc : e.check = .ok ()) (h : b.deleteBody e links = .ok sql) :
    EndsInKey e links sql := by
  obtain ⟨condition, hcondition, rfl⟩ := deleteBody_eq_ok.1 h
  obtain ⟨before, hbefore⟩ := b.dialect.exists_delete (Sql.table e.table)
    [.text TableAlias.root.text] condition
  rw [hbefore]
  exact endsInKey_keyCondition hc hcondition

/-- Without links the key has no variable. -/
theorem keyLink?_nil (e : Entity) : keyLink? e [] = none := by
  rw [keyLink?]
  cases e.key? with
  | none => rfl
  | some key => rfl

theorem endsInKey_selectByKeyBody (hc : e.check = .ok ()) (h : b.selectByKeyBody e = .ok sql) :
    EndsInKey e [] sql := by
  obtain ⟨items, _, source, _, condition, hcondition, rfl⟩ := selectByKeyBody_eq_ok.1 h
  obtain ⟨before, hbefore⟩ := exists_plainSelect (Sql.items items) source condition
  rw [hbefore]
  refine endsInKey_keyCondition hc ?_
  rw [keyLink?_nil]
  exact hcondition

/-- **A statement about one row ends in the condition on its key.** -/
theorem endsInKey_body {r : Request} (hr : r.picked? = some e) (hc : e.check = .ok ())
    (h : b.body r = .ok sql) : EndsInKey e [] sql := by
  cases r with
  | selectByKey e' =>
    obtain rfl := Option.some.inj hr
    exact endsInKey_selectByKeyBody hc h
  | update e' =>
    obtain rfl := Option.some.inj hr
    exact endsInKey_updateBody hc h
  | updateProperties e' names =>
    obtain rfl := Option.some.inj hr
    exact endsInKey_updateBody hc h
  | delete e' =>
    obtain rfl := Option.some.inj hr
    exact endsInKey_deleteBody hc h
  | _ => exact absurd hr (by simp [Request.picked?])

/-! ## The text -/

/-- What stands around a statement: nothing, or what opens and closes the key of the settings. -/
def Wraps (b : Builder) (opening closing : String) : Prop :=
  (opening = "" ∧ closing = "") ∨
    ∃ keys, b.config.encryption = some keys ∧ opening = Dialect.keyOpening keys ∧
      closing = s!";\nCLOSE SYMMETRIC KEY {Dialect.sqlServer.quote keys.keyName};"

/-- A statement that ends in a bound value has no semicolons to shed. -/
theorem text_finish_bound {before : Sql} {x : Binding}
    (h : b.finish (before ++ [.bind x]) = .ok s) :
    ∃ opening closing, b.Wraps opening closing ∧
      s.text.toList =
        opening.toList ++ Sql.charsFrom b.style 0 (before ++ [.bind x]) ++ closing.toList := by
  rcases finish_cases h with ⟨_, rfl⟩ | ⟨_, _, keys, hkeys, rfl⟩
  · refine ⟨"", "", .inl ⟨rfl, rfl⟩, ?_⟩
    exact String.toList_ofList.trans (List.append_nil _).symm
  · refine ⟨_, _, .inr ⟨keys, hkeys, rfl, rfl⟩, ?_⟩
    rw [Sql.withoutSemicolons_of_ne_text before (by simp), Statement.text, Sql.write,
      String.toList_ofList, Sql.charsFrom_wrapped, ← List.append_assoc]
    rfl

/-- The text of a statement ends in the condition on a key, inside what opens and closes the
symmetric key. The key is compared with the last parameter, which is input and has this value. -/
structure PinnedTo (b : Builder) (key : Field) (value : Value) (s : Statement) : Prop where
  /-- Nothing stands between the condition and the closing. -/
  text : ∃ opening before closing, b.Wraps opening closing ∧
    s.text = opening ++ before ++
      keyText b.style key (b.dialect.placeholder (parameterName (s.parameters.length - 1))) ++
      closing
  /-- The parameter behind the placeholder. -/
  parameter : s.parameters.getLast? =
    some ⟨.input value key.dataType, parameterName (s.parameters.length - 1)⟩

theorem pinnedTo_finish {before : Sql} {key : Field} {value : Value}
    (h : b.finish (before ++ keyTail key (.bind (.input value key.dataType))) = .ok s) :
    b.PinnedTo key value s := by
  have hbindings : s.sql.bindings = before.bindings ++ [.input value key.dataType] :=
    (filterMap_finish passes_binding? h).trans (Sql.bindings_append _ _)
  have hlength : s.parameters.length - 1 = before.bindings.length := by
    rw [Statement.length_parameters, hbindings, List.length_append]
    rfl
  constructor
  · rw [hlength]
    have hsplit : before ++ keyTail key (.bind (.input value key.dataType)) =
        (before ++ [.text " WHERE ", .column .root key.columnName, .text " = "]) ++
          [.bind (.input value key.dataType)] := by
      rw [List.append_assoc]
      rfl
    rw [hsplit] at h
    obtain ⟨opening, closing, hwraps, htext⟩ := text_finish_bound h
    refine ⟨opening, String.ofList (Sql.charsFrom b.style 0 before), closing, hwraps, ?_⟩
    rw [← hsplit, charsFrom_append_keyTail, Nat.zero_add] at htext
    rw [← String.toList_inj, htext, String.toList_append, String.toList_append,
      String.toList_append, String.toList_ofList]
    simp only [List.append_assoc]
    rfl
  · rw [List.getLast?_eq_getElem?, Statement.getElem?_parameters, hlength, hbindings,
      List.getElem?_append_right (Nat.le_refl _), Nat.sub_self]
    rfl

/-! ## Refusals -/

/-- What a condition on a key is refused for lies with the entity. -/
theorem refuses_keyCondition {P : QueryError → Prop} (hP : ∀ fault, P (.invalidEntity fault))
    (replacement : Option String) : Refuses P (keyCondition e replacement) := by
  refine .bind (.of_entity hP) fun key _ => ?_
  cases replacement with
  | some name => exact .ok _
  | none => exact .bind (.of_entity hP) fun _ _ => .bind (.of_entity hP) fun _ _ => .ok _

/-- An update under these links is refused for what lies with the entity, or with what it sets; it
does not come to its end when it has no condition. -/
theorem refuses_updateBody {P : QueryError → Prop} {names : Option (List String)}
    (hP : ∀ fault, P (.invalidEntity fault))
    (hset : ∀ err, (updateFields e names).mapM (b.assignment e links) = .error err → P err) :
    Refuses P (b.updateBody e names links) := by
  refine .bind (.of_entity hP) fun _ _ => .bind hset fun assignments _ => ?_
  cases assignments with
  | nil => exact .error (hP _)
  | cons a rest => exact .bind (refuses_keyCondition hP _) fun _ _ => .ok _

theorem refuses_deleteBody {P : QueryError → Prop} (hP : ∀ fault, P (.invalidEntity fault)) :
    Refuses P (b.deleteBody e links) :=
  .bind (refuses_keyCondition hP _) fun _ _ => .ok _

/-- A refusal that comes before the value of the key is looked at: of what is selected, or of what
is set. -/
inductive EarlierRefusal (b : Builder) : Request → QueryError → Prop where
  | selected {e : Entity} {err : QueryError} :
      b.projection e = .error err → EarlierRefusal b (.selectByKey e) err
  | set {e : Entity} {err : QueryError} :
      (updateFields e none).mapM (b.assignment e []) = .error err → EarlierRefusal b (.update e) err
  | setSome {e : Entity} {names : List String} {err : QueryError} :
      (updateFields e (some names)).mapM (b.assignment e []) = .error err →
        EarlierRefusal b (.updateProperties e names) err

/-- What a refusal is for when there is no key to pick the row by. -/
def KeyRefusal (b : Builder) (r : Request) (err : QueryError) : Prop :=
  (∃ fault, err = .invalidEntity fault) ∨ b.EarlierRefusal r err

theorem refuses_body {r : Request} (hr : r.picked? = some e) :
    Refuses (b.KeyRefusal r) (b.body r) := by
  have hP : ∀ fault, b.KeyRefusal r (.invalidEntity fault) := fun fault => .inl ⟨fault, rfl⟩
  cases r with
  | selectByKey e' =>
    refine .bind (fun err h => .inr (.selected h)) fun items _ => ?_
    refine .bind (.bind (.of_entity hP) fun _ _ => .ok _) fun source _ => ?_
    exact .bind (refuses_keyCondition hP _) fun _ _ => .ok _
  | update e' => exact refuses_updateBody hP fun err h => .inr (.set h)
  | updateProperties e' names => exact refuses_updateBody hP fun err h => .inr (.setSome h)
  | delete e' => exact refuses_deleteBody hP
  | _ => exact absurd hr (by simp [Request.picked?])

theorem run_eq_build {r : Request} (hr : r.picked? = some e) :
    b.run r = b.build e (b.body r) := by
  cases r with
  | selectByKey e' =>
    obtain rfl := Option.some.inj hr
    rfl
  | update e' =>
    obtain rfl := Option.some.inj hr
    rfl
  | updateProperties e' names =>
    obtain rfl := Option.some.inj hr
    rfl
  | delete e' =>
    obtain rfl := Option.some.inj hr
    rfl
  | _ => exact absurd hr (by simp [Request.picked?])

/-- Without a value of the key there is no body to finish. -/
theorem run_refused {r : Request} (hr : r.picked? = some e)
    (hkey : ¬ ∃ key value, e.KeyValue key value) :
    ∃ err, b.run r = .error err ∧ b.KeyRefusal r err := by
  have hP : ∀ fault, b.KeyRefusal r (.invalidEntity fault) := fun fault => .inl ⟨fault, rfl⟩
  have hno : ∀ sql, e.check = .ok () → b.body r ≠ .ok sql := by
    intro sql hc hbody
    obtain ⟨key, _, _, ⟨_, hname, _⟩ | ⟨_, value, hvalue, _⟩⟩ := endsInKey_body hr hc hbody
    · exact absurd hname (by simp)
    · exact hkey ⟨key, value, hvalue⟩
  have hrefuses : Refuses (b.KeyRefusal r) (b.run r) := by
    rw [run_eq_build hr]
    refine .bind (.of_entity hP) fun _ hc => .bind (refuses_body hr) fun sql hbody => ?_
    exact absurd hbody (hno sql (ofEntity_eq_ok.1 hc))
  cases hrun : b.run r with
  | error err => exact ⟨err, rfl, hrefuses err hrun⟩
  | ok s =>
    obtain ⟨hc, sql, hbody, _⟩ := build_eq_ok.1 ((run_eq_build hr).symm.trans hrun)
    exact absurd hbody (hno sql hc)

/-! ## Batches -/

variable {steps : List BatchStep} {step : BatchStep} {i : Nat}

theorem endsInKey_stepBody (hback : ∀ link ∈ step.links, LeadsBack steps i link)
    (hop : step.operation ≠ .insert) (h : b.stepBody (b.keyVariables steps) step i = .ok sql) :
    EndsInKey step.entity (b.stepLinks steps step) sql := by
  obtain ⟨hc, _, h⟩ := (stepBody_linked hback).1 h
  split at h
  · next hinsert => exact absurd hinsert hop
  · exact endsInKey_updateBody hc h
  · exact endsInKey_deleteBody hc h

/-- What a step compares a key with: the variable of its last link to the key, or else the parameter
of a number, which is input and has the value of the key. -/
inductive KeyPlace (b : Builder) (steps : List BatchStep) (step : BatchStep) (s : Statement)
    (n : Nat) (key : Field) : String → Prop where
  | linked {link : KeyLink} : step.lastLink? key.name = some link →
      KeyPlace b steps step s n key (b.variableOf steps link.step)
  | bound {value : Value} : step.lastLink? key.name = none → step.entity.KeyValue key value →
      value ≠ .null → s.parameters[n]? = some ⟨.input value key.dataType, parameterName n⟩ →
        KeyPlace b steps step s n key (b.dialect.placeholder (parameterName n))

/-- The number of the last parameter that is bound by a step or one before it. -/
def lastBound (fragments : List Sql) (i : Nat) : Nat :=
  ((fragments.take (i + 1)).flatMap Sql.bindings).length - 1

/-- The text of the step `i` ends in the condition on its key. -/
theorem keyPlace_of_fragment {fragments : List Sql} {text : List Char}
    (hfinish : b.finish (b.dialect.batch ⟨b.templateVariables steps, fragments⟩) = .ok s)
    (hends : ∀ fragment, fragments[i]? = some fragment →
      EndsInKey step.entity (b.stepLinks steps step) fragment)
    (ht : (Sql.textsFrom b.style 0 fragments)[i]? = some text) :
    ∃ key before place, step.entity.OnlyKey key ∧
      text = before ++ (keyText b.style key place).toList ∧
      b.KeyPlace steps step s (lastBound fragments i) key place := by
  rw [Sql.getElem?_textsFrom, Nat.zero_add, Option.map_eq_some_iff] at ht
  obtain ⟨fragment, hfragment, rfl⟩ := ht
  have hsplit : fragments.take (i + 1) = fragments.take i ++ [fragment] := by
    rw [List.take_add_one, hfragment]
    rfl
  obtain ⟨key, before, honly, hplace⟩ := hends fragment hfragment
  rw [lookup_stepLinks] at hplace
  rcases hplace with ⟨name, hname, rfl⟩ | ⟨hnone, value, hvalue, rfl⟩
  · obtain ⟨link, hlink, rfl⟩ := Option.map_eq_some_iff.1 hname
    exact ⟨key, _, _, honly, charsFrom_append_keyTail before _, .linked hlink⟩
  · -- the value of the key is the last thing that the fragment binds
    have hlast : lastBound fragments i =
        ((fragments.take i).flatMap Sql.bindings).length + before.bindings.length := by
      rw [lastBound, hsplit, List.flatMap_append, List.flatMap_singleton, Sql.bindings_append,
        List.length_append, List.length_append]
      rfl
    have htext : Sql.charsFrom b.style ((fragments.take i).flatMap Sql.bindings).length
        (before ++ keyTail key (.bind (.input value key.dataType))) =
          Sql.charsFrom b.style ((fragments.take i).flatMap Sql.bindings).length before ++
            (keyText b.style key (b.dialect.placeholder
              (parameterName (lastBound fragments i)))).toList := by
      rw [hlast]
      exact charsFrom_append_keyTail before _
    refine ⟨key, _, _, honly, htext,
      .bound (Option.map_eq_none_iff.1 hnone) hvalue hvalue.ne_null ?_⟩
    · have hall : fragments.flatMap Sql.bindings =
          ((fragments.take i).flatMap Sql.bindings ++ before.bindings) ++
            .input value key.dataType :: (fragments.drop (i + 1)).flatMap Sql.bindings := by
        conv_lhs => rw [← List.take_append_drop (i + 1) fragments, hsplit]
        rw [List.flatMap_append, List.flatMap_append, List.flatMap_singleton, Sql.bindings_append,
          List.append_assoc, List.append_assoc, List.append_assoc]
        rfl
      rw [Statement.getElem?_parameters, bindings_finish hfinish, hall, hlast,
        ← List.length_append, List.append_assoc, List.getElem?_append_right (Nat.le_refl _),
        Nat.sub_self]
      rfl

/-- A refusal of a batch that comes before the value of the key of the step `i` is looked at: of a
step before it, or of what it sets itself. -/
inductive EarlierStepRefusal (b : Builder) (steps : List BatchStep) (i : Nat) :
    QueryError → Prop where
  | step {j : Nat} {step : BatchStep} {err : QueryError} :
      j < i → steps[j]? = some step → b.stepBody (b.keyVariables steps) step j = .error err →
        EarlierStepRefusal b steps i err
  | set {step : BatchStep} {err : QueryError} :
      steps[i]? = some step → step.operation = .update →
        (updateFields step.entity none).mapM (b.assignment step.entity (b.stepLinks steps step)) =
          .error err → EarlierStepRefusal b steps i err

/-- What a batch is refused for when a step has nothing to pick its row by. -/
def StepKeyRefusal (b : Builder) (steps : List BatchStep) (i : Nat) (err : QueryError) : Prop :=
  (∃ fault, err = .invalidEntity fault) ∨ b.EarlierStepRefusal steps i err

theorem refuses_stepBody (hi : steps[i]? = some step)
    (hback : ∀ link ∈ step.links, LeadsBack steps i link) (hop : step.operation ≠ .insert) :
    Refuses (b.StepKeyRefusal steps i) (b.stepBody (b.keyVariables steps) step i) := by
  have hP : ∀ fault, b.StepKeyRefusal steps i (.invalidEntity fault) := fun fault =>
    .inl ⟨fault, rfl⟩
  refine .bind (.of_entity hP) fun _ _ => .bind (.of_entity hP) fun links hlinks => ?_
  obtain rfl := eq_stepLinks step hback hlinks
  cases hstep : step.operation with
  | insert => exact absurd hstep hop
  | update => exact refuses_updateBody hP fun err h => .inr (.set hi hstep h)
  | delete => exact refuses_deleteBody hP

/-- A step without anything to pick its row by has no fragment. -/
theorem stepBody_ne_ok (hback : ∀ link ∈ step.links, LeadsBack steps i link)
    (hop : step.operation ≠ .insert) (hkey : ¬ step.PicksRow) :
    b.stepBody (b.keyVariables steps) step i ≠ .ok sql := by
  intro h
  obtain ⟨key, _, honly, hplace⟩ := endsInKey_stepBody hback hop h
  rw [lookup_stepLinks] at hplace
  rcases hplace with ⟨name, hname, _⟩ | ⟨_, value, hvalue, _⟩
  · obtain ⟨link, hlink, _⟩ := Option.map_eq_some_iff.1 hname
    exact hkey ⟨key, honly, .inl ⟨link, BatchStep.mem_of_lastLink? hlink⟩⟩
  · exact hkey ⟨key, honly, .inr ⟨value, hvalue⟩⟩

/-- The first step that is refused stands no later than a step that is. -/
theorem refuses_steps (hi : steps[i]? = some step)
    (hback : ∀ link ∈ step.links, LeadsBack steps i link) (hop : step.operation ≠ .insert)
    (hkey : ¬ step.PicksRow) :
    Refuses (b.StepKeyRefusal steps i)
      (steps.zipIdx.mapM fun p => b.stepBody (b.keyVariables steps) p.1 p.2) := by
  intro err herr
  obtain ⟨before, ⟨step', j⟩, after, hsplit, hbefore, hstep⟩ := mapM_eq_error.1 herr
  have hget : ∀ k : Nat, steps.zipIdx[k]? = steps[k]?.map fun step => (step, k) := by
    intro k
    rw [List.getElem?_zipIdx]
    cases steps[k]? with
    | none => rfl
    | some step => simp
  -- the place of the first refused step is the number of steps in front of it
  have hplace : steps[before.length]? = some step' ∧ before.length = j := by
    have hmiddle := hget before.length
    rw [hsplit, List.getElem?_append_right (Nat.le_refl _), Nat.sub_self,
      List.getElem?_cons_zero, eq_comm, Option.map_eq_some_iff] at hmiddle
    obtain ⟨found, hfound, hpair⟩ := hmiddle
    obtain ⟨rfl, hj⟩ := Prod.mk.inj hpair
    exact ⟨hfound, hj⟩
  obtain ⟨hstep', rfl⟩ := hplace
  rcases Nat.lt_trichotomy before.length i with hlt | heq | hlt
  · exact .inr (.step hlt hstep' hstep)
  · rw [heq] at hstep hstep'
    obtain rfl := Option.some.inj (hi.symm.trans hstep')
    exact refuses_stepBody hi hback hop err hstep
  · -- the step itself would stand among those that are written
    have hpair : before[i]? = some (step, i) := by
      have hithis := hget i
      rw [hsplit, List.getElem?_append_left hlt, hi] at hithis
      exact hithis
    obtain ⟨fragment, hfragment⟩ := hbefore _ (List.mem_of_getElem? hpair)
    exact absurd hfragment (stepBody_ne_ok hback hop hkey)

/-- Without anything to pick its row by, a step refuses the batch. -/
theorem batch_refused_key (hi : steps[i]? = some step) (hop : step.operation ≠ .insert)
    (hkey : ¬ step.PicksRow) :
    ∃ err, b.batch steps = .error err ∧ b.StepKeyRefusal steps i err := by
  by_cases hlinks : LinksBack steps
  · have hback := hlinks i step hi
    have hP : ∀ fault, b.StepKeyRefusal steps i (.invalidEntity fault) := fun fault =>
      .inl ⟨fault, rfl⟩
    have hno : ∀ sql, b.batchBody steps ≠ .ok sql := by
      intro sql hbody
      obtain ⟨_, _, fragments, hfragments, _⟩ := batchBody_eq_ok.1 hbody
      obtain ⟨fragment, _, hstep⟩ := exists_of_mapM_mem hfragments
        (List.mk_mem_zipIdx_iff_getElem?.2 hi)
      exact stepBody_ne_ok hback hop hkey hstep
    have hbody : Refuses (b.StepKeyRefusal steps i) (b.batchBody steps) := by
      unfold batchBody
      cases steps with
      | nil => exact .error (hP _)
      | cons first rest =>
        exact .bind (.of_entity hP) fun _ _ =>
          .bind (refuses_steps hi hback hop hkey) fun _ _ => .ok _
    have hbatch : Refuses (b.StepKeyRefusal steps i) (b.batch steps) :=
      .bind hbody fun sql h => absurd h (hno sql)
    cases hrun : b.batch steps with
    | error err => exact ⟨err, rfl, hbatch err hrun⟩
    | ok s =>
      obtain ⟨sql, hsql, _⟩ := batch_eq_ok.1 hrun
      exact absurd hsql (hno sql)
  · obtain ⟨fault, hfault⟩ := batch_refused hlinks
    exact ⟨_, hfault, .inl ⟨fault, rfl⟩⟩

/-! ## Every answer -/

/-- **A row is picked by one value of its key.** The text of a select by key, of an update and of a
delete ends in the condition on the only key of the entity, which is compared with the last
parameter, and that holds the value of the key, never a null. In a batch the text of an update and
of a delete ends in the same condition; a linked key is compared with the variable of its last link.

Without a value of the only key, or a link to it, there is no answer: the refusal lies with the
entity, or with something that is looked at before the value of the key is. -/
theorem pinned_run (b : Builder) :
    (∀ r e, r.picked? = some e →
      (∀ s, b.run r = .ok s → ∃ key value, e.KeyValue key value ∧ value ≠ .null ∧
        b.PinnedTo key value s) ∧
      ((¬ ∃ key value, e.KeyValue key value) →
        ∃ err, b.run r = .error err ∧ b.KeyRefusal r err)) ∧
    ∀ steps,
      (∀ s, b.run (.batch steps) = .ok s → ∃ fragments, fragments.length = steps.length ∧
        b.finish (b.dialect.batch ⟨b.templateVariables steps, fragments⟩) = .ok s ∧
        b.Laid steps (Sql.textsFrom b.style 0 fragments) s.text.toList ∧
        ∀ (i : Nat) step text, steps[i]? = some step → step.operation ≠ .insert →
          (Sql.textsFrom b.style 0 fragments)[i]? = some text →
            ∃ key before place, step.entity.OnlyKey key ∧
              text = before ++ (keyText b.style key place).toList ∧
              b.KeyPlace steps step s (lastBound fragments i) key place) ∧
      ∀ (i : Nat) step, steps[i]? = some step → step.operation ≠ .insert → ¬ step.PicksRow →
        ∃ err, b.run (.batch steps) = .error err ∧ b.StepKeyRefusal steps i err := by
  refine ⟨fun r e hr => ⟨fun s hs => ?_, run_refused hr⟩, fun steps => ⟨fun s hs => ?_, ?_⟩⟩
  · obtain ⟨hc, sql, hbody, hfinish⟩ := build_eq_ok.1 ((run_eq_build hr).symm.trans hs)
    obtain ⟨key, before, _, ⟨_, hname, _⟩ | ⟨_, value, hvalue, rfl⟩⟩ := endsInKey_body hr hc hbody
    · exact absurd hname (by simp)
    · exact ⟨key, value, hvalue, hvalue.ne_null, pinnedTo_finish hfinish⟩
  · obtain ⟨hlinks, fragments, hlength, hfinish, hsteps⟩ := batch_fragments hs
    refine ⟨fragments, hlength, hfinish, laid_finish hfinish, ?_⟩
    intro i step text hi hop ht
    refine keyPlace_of_fragment hfinish (fun fragment hfragment => ?_) ht
    exact endsInKey_stepBody (hlinks i step hi) hop (hsteps i step fragment hi hfragment)
  · exact fun i step hi hop hkey => batch_refused_key hi hop hkey

/-- The order of the first step, taken back. -/
def orderBack : BatchStep := ⟨.delete, order.entity, [⟨"Id", 0⟩]⟩

theorem pinned_run_orderBack :
    (∃ s key value, Builder.default.run (.delete departments) = .ok s ∧
      departments.KeyValue key value ∧ value ≠ .null ∧ Builder.default.PinnedTo key value s) ∧
    (∃ err, Builder.default.run (.update order.entity) = .error err ∧
      Builder.default.KeyRefusal (.update order.entity) err) ∧
    (∃ s n key before place text, Builder.default.run (.batch [order, orderBack]) = .ok s ∧
      orderBack.entity.OnlyKey key ∧
      text = before ++ (keyText Builder.default.style key place).toList ∧
      Builder.default.KeyPlace [order, orderBack] orderBack s n key place) ∧
    ∃ err, Builder.default.run (.batch [⟨.delete, order.entity, []⟩]) = .error err ∧
      Builder.default.StepKeyRefusal [⟨.delete, order.entity, []⟩] 0 err := by
  -- an order has a key and no value for it
  have hnone : order.entity.present? "Id" = none := rfl
  have hno : ∀ key value, ¬ order.entity.KeyValue key value := by
    rintro key value ⟨honly, json, hpresent, _⟩
    obtain ⟨rfl, _⟩ := List.cons.inj honly
    exact absurd (hnone.symm.trans hpresent) (by simp)
  refine ⟨?_, ?_, ?_, ?_⟩
  · obtain ⟨s, hs⟩ : ∃ s, Builder.default.run (.delete departments) = .ok s := ⟨_, rfl⟩
    obtain ⟨key, value, h⟩ := ((pinned_run .default).1 _ _ rfl).1 s hs
    exact ⟨s, key, value, hs, h⟩
  · exact ((pinned_run .default).1 _ _ rfl).2 fun ⟨key, value, h⟩ => hno key value h
  · obtain ⟨s, hs⟩ : ∃ s, Builder.default.run (.batch [order, orderBack]) = .ok s := ⟨_, rfl⟩
    obtain ⟨fragments, hlength, _, _, hsteps⟩ := ((pinned_run .default).2 _).1 s hs
    have hone : 1 < (Sql.textsFrom Builder.default.style 0 fragments).length := by
      rw [Sql.length_textsFrom, hlength]
      decide
    obtain ⟨key, before, place, honly, htext, hplace⟩ :=
      hsteps 1 orderBack _ rfl (by decide) (List.getElem?_eq_getElem hone)
    exact ⟨s, _, key, before, place, _, hs, honly, htext, hplace⟩
  · refine ((pinned_run .default).2 _).2 0 _ rfl (by decide) ?_
    rintro ⟨key, _, ⟨link, hlink, _⟩ | ⟨value, hvalue⟩⟩
    · exact absurd hlink List.not_mem_nil
    · exact hno key value hvalue

end Builder

end RecordSql
