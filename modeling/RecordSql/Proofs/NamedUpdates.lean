import RecordSql.Proofs.InsertedValues

/-!
# An update of named properties is a part of the whole update

An update sets every field that may be updated, and an update of properties sets those of them that
are named. What a field is given depends on the field and the record alone: its value, or a null
where it has none. So the row of the named fields is the row of all fields with the others left out,
and the parameters are numbered anew.

* A field that is not named is not looked at. It cannot fail the update, whatever its value is.
* Names are only ever compared with the names of the fields that may be set. Their order, their
  repetition and names of anything else change nothing, in an answer or in a refusal.
* When all fields are named the update is the whole one. When none is, there is nothing to set.
-/

namespace RecordSql

open Checked

namespace Entity

/-- The fields that an update may set: those that may be updated, and are no key. -/
def settableFields (e : Entity) : List Field :=
  e.fields.filter fun f => f.updatable && !f.isKey

/-- The fields among them that are named. -/
def namedFields (e : Entity) (names : List String) : List Field :=
  e.settableFields.filter fun f => f.name ∈ names

end Entity

namespace Entry

/-- The assignment of an entry, when the next parameter has the number `n`. -/
def assignment (style : Style) (n : Nat) (x : Entry) : String :=
  style.qualified .root x.field.columnName ++ " = " ++ x.cell.text style n

/-- The assignments of a row, its first parameter having the number `n`. -/
def assignments (style : Style) (n : Nat) (row : List Entry) : List String :=
  (numbered n row).map fun p => p.2.assignment style p.1

end Entry

namespace Builder

variable {b : Builder} {e : Entity} {row : List Entry} {s : Statement} {names names' : List String}

theorem updateFields_none (e : Entity) : updateFields e none = e.settableFields :=
  List.filter_true _

theorem updateFields_some (e : Entity) (names : List String) :
    updateFields e (some names) = e.namedFields names :=
  List.filter_congr fun f _ => List.contains_eq_mem f.name names

/-! ## What a field is set to -/

/-- What an update gives a field: its value, or a null where it has none. A default plays no
part. -/
inductive Sets (b : Builder) (e : Entity) (f : Field) : Cell → Prop where
  | value {json : Json} {c : Cell} : e.present? f.name = some json → b.Expresses f json c →
      Sets b e f c
  | null : e.present? f.name = none → Sets b e f (.bound .null f.dataType)

/-- A field is set to one thing only. -/
theorem Sets.unique {f : Field} {c c' : Cell} (h : b.Sets e f c) (h' : b.Sets e f c') : c = c' := by
  cases h with
  | value hj hc =>
    cases h' with
    | value hj' hc' =>
      obtain rfl := Option.some.inj (hj.symm.trans hj')
      exact hc.unique hc'
    | null hnone => exact absurd (hj.symm.trans hnone) (by simp)
  | null hnone =>
    cases h' with
    | value hj _ => exact absurd (hj.symm.trans hnone) (by simp)
    | null _ => rfl

/-- Two rows of the same fields are the same row. -/
theorem eq_of_sets {row row' : List Entry} (hf : row.map Entry.field = row'.map Entry.field)
    (h : ∀ x ∈ row, b.Sets e x.field x.cell) (h' : ∀ x ∈ row', b.Sets e x.field x.cell) :
    row = row' := by
  induction row generalizing row' with
  | nil => exact (List.map_eq_nil_iff.1 hf.symm).symm
  | cons x rest ih =>
    cases row' with
    | nil => exact absurd hf (by simp)
    | cons y rest' =>
      obtain ⟨hxy, hrest⟩ := List.cons.inj hf
      obtain ⟨hx, hxs⟩ := List.forall_mem_cons.1 h
      obtain ⟨hy, hys⟩ := List.forall_mem_cons.1 h'
      obtain ⟨f, c⟩ := x
      obtain ⟨g, c'⟩ := y
      obtain rfl : f = g := hxy
      obtain rfl : c = c' := hx.unique hy
      rw [ih hrest hxs hys]

/-- The assignment of an entry as SQL. -/
def assignmentSql (b : Builder) (x : Entry) : Sql :=
  [.target .root x.field.columnName, .text " = "] ++ x.cell.sql b.dialect

theorem assignment_eq_ok_iff {f : Field} {sql : Sql} :
    b.assignment e [] f = .ok sql ↔ ∃ c, b.Sets e f c ∧ b.assignmentSql ⟨f, c⟩ = sql := by
  rw [assignment_eq_ok]
  constructor
  · rintro ⟨value, ⟨_, hlink, _⟩ | ⟨_, ⟨json, hj, hv⟩ | ⟨hnone, rfl⟩⟩, rfl⟩
    · exact absurd hlink (by simp)
    · obtain ⟨c, hc, rfl⟩ := valueExpression_eq_ok_iff.1 hv
      exact ⟨c, .value hj hc, rfl⟩
    · exact ⟨_, .null hnone, rfl⟩
  · rintro ⟨c, hc, rfl⟩
    refine ⟨_, .inr ⟨rfl, ?_⟩, rfl⟩
    cases hc with
    | value hj hc => exact .inl ⟨_, hj, valueExpression_eq_ok_iff.2 ⟨c, hc, rfl⟩⟩
    | null hnone => exact .inr ⟨hnone, rfl⟩

/-- The assignments of fields are those of a row of them. -/
theorem exists_entries_of_assignments {fields : List Field} {assignments : List Sql}
    (h : fields.mapM (b.assignment e []) = .ok assignments) :
    ∃ row : List Entry, row.map Entry.field = fields ∧ (∀ x ∈ row, b.Sets e x.field x.cell) ∧
      assignments = row.map b.assignmentSql := by
  induction mapM_eq_ok.1 h with
  | nil => exact ⟨[], rfl, List.forall_mem_nil _, rfl⟩
  | @cons f a fields assignments hf hrest ih =>
    obtain ⟨row, rfl, hsets, rfl⟩ := ih (mapM_eq_ok.2 hrest)
    obtain ⟨c, hc, rfl⟩ := assignment_eq_ok_iff.1 hf
    exact ⟨⟨f, c⟩ :: row, rfl, List.forall_mem_cons.2 ⟨hc, hsets⟩, rfl⟩

/-! ## The text -/

/-- The text of an update of a row that the key picks. -/
def updateText (b : Builder) (e : Entity) (row : List Entry) (key : Field) : String :=
  let assignments := ", ".intercalate (Entry.assignments b.style 0 row)
  let condition := keyText b.style key
    (b.dialect.placeholder (parameterName (Entry.bindings row).length))
  match b.dialect with
  | .sqlServer =>
    "UPDATE t0 SET " ++ assignments ++ " FROM " ++ b.style.tableText e.table ++ " t0" ++ condition
  | .oracle =>
    "UPDATE " ++ b.style.tableText e.table ++ " t0 SET " ++ assignments ++ condition

theorem bindings_assignmentSql (x : Entry) : (b.assignmentSql x).bindings = x.binding?.toList :=
  x.cell.bindings_sql b.dialect

theorem charsFrom_assignmentSql (n : Nat) (x : Entry) :
    Sql.charsFrom b.style n (b.assignmentSql x) = (x.assignment b.style n).toList := by
  have hcell : Sql.charsFrom b.style n (x.cell.sql b.dialect) = (x.cell.text b.style n).toList :=
    x.cell.charsFrom_sql b.style n
  rw [Entry.assignment, String.toList_append, String.toList_append, List.append_assoc, ← hcell]
  rfl

theorem write_assignments :
    (Sql.list (row.map b.assignmentSql)).write b.style =
      ", ".intercalate (Entry.assignments b.style 0 row) := by
  have hlist : Sql.charsFrom b.style 0 (Sql.list (row.map b.assignmentSql)) =
      (", ".intercalate (Entry.assignments b.style 0 row)).toList :=
    Entry.charsFrom_list bindings_assignmentSql charsFrom_assignmentSql 0
  rw [Sql.write, hlist, String.ofList_toList]

theorem bindings_assignments :
    (Sql.list (row.map b.assignmentSql)).bindings = Entry.bindings row :=
  (Sql.filterMap_list passes_binding? _).trans (Entry.flatMap_bindings bindings_assignmentSql)

/-- The assignments of a row and the comparison with its key, with what binds nothing around
them. -/
theorem write_assigned (b : Builder) (row : List Entry) (key : Field) (value : Value)
    {front back : Sql} (hfront : front.bindings = []) (hback : back.bindings = []) :
    Sql.write b.style (front ++ Sql.list (row.map b.assignmentSql) ++ back ++
        keyTail key (.bind (.input value key.dataType))) =
      front.write b.style ++ ", ".intercalate (Entry.assignments b.style 0 row) ++
        back.write b.style ++ keyText b.style key
          (b.dialect.placeholder (parameterName (Entry.bindings row).length)) := by
  have hbound : Sql.bindings (front ++ Sql.list (row.map b.assignmentSql) ++ back) =
      Entry.bindings row := by
    rw [Sql.bindings_append, Sql.bindings_append, hfront, hback, bindings_assignments,
      List.nil_append, List.append_nil]
  rw [Sql.write, charsFrom_append_keyTail, hbound, Nat.zero_add, String.ofList_append,
    String.ofList_toList, ← Sql.write, Sql.write_append_unbound hback,
    Sql.write_append_of_unbound hfront, write_assignments]
  rfl

/-- **An update of a row is written as its text.** -/
theorem write_update {key : Field} {value : Value} :
    (b.dialect.update (Sql.table e.table) [.text TableAlias.root.text] (row.map b.assignmentSql)
        [.column .root key.columnName, .text " = ",
          .bind (.input value key.dataType)]).write b.style =
      b.updateText e row key := by
  have htable : ∀ s, Sql.bindings (.text s :: Sql.table e.table) = [] := fun _ =>
    Sql.filterMap_table passes_binding? e.table
  unfold updateText
  cases hd : b.dialect with
  | sqlServer =>
    have hfront : Sql.write b.style [.text "UPDATE ", .text "t0", .text " SET "] =
        "UPDATE t0 SET " := by
      rw [Sql.write_text, Sql.write_text, Sql.write_text, Sql.write_nil]
      rfl
    have hback : Sql.write b.style (.text " FROM " :: Sql.table e.table ++
        [.text " ", .text "t0"]) = " FROM " ++ b.style.tableText e.table ++ " t0" := by
      rw [Sql.write_append_of_unbound (htable _), Sql.write_text, Sql.write_table, Sql.write_text,
        Sql.write_text, Sql.write_nil]
      rfl
    have hbound : Sql.bindings (.text " FROM " :: Sql.table e.table ++
        [.text " ", .text "t0"]) = [] := by
      rw [Sql.bindings_append, htable]
      rfl
    have hwording : Sql.bindings [.text "UPDATE ", .text "t0", .text " SET "] = [] := rfl
    have hsql := write_assigned b row key value hwording hbound
    rw [hfront, hback, hd, ← String.append_assoc, ← String.append_assoc] at hsql
    refine Eq.trans (congrArg (Sql.write b.style) ?_) hsql
    simp [Dialect.update, keyTail, TableAlias.text]
  | oracle =>
    have hfront : Sql.write b.style (.text "UPDATE " :: Sql.table e.table ++
        [.text " ", .text "t0", .text " SET "]) =
          "UPDATE " ++ b.style.tableText e.table ++ " t0 SET " := by
      rw [Sql.write_append_of_unbound (htable _), Sql.write_text, Sql.write_table, Sql.write_text,
        Sql.write_text, Sql.write_text, Sql.write_nil]
      rfl
    have hbound : Sql.bindings (.text "UPDATE " :: Sql.table e.table ++
        [.text " ", .text "t0", .text " SET "]) = [] := by
      rw [Sql.bindings_append, htable]
      rfl
    have hnothing : Sql.bindings [] = [] := rfl
    have hsql := write_assigned b row key value hbound hnothing
    rw [hfront, hd, Sql.write_nil, String.append_empty] at hsql
    refine Eq.trans (congrArg (Sql.write b.style) ?_) hsql
    simp [Dialect.update, keyTail, TableAlias.text]

/-! ## The row -/

/-- The statement sets a row of these fields, where the value of the only key picks it. -/
structure SetsRow (b : Builder) (e : Entity) (fields : List Field) (row : List Entry)
    (s : Statement) : Prop where
  /-- The fields are set in the order of their declaration. -/
  fields : row.map Entry.field = fields
  filled : row ≠ []
  cells : ∀ x ∈ row, b.Sets e x.field x.cell
  /-- The parameter of the key comes behind those of the row. -/
  statement : ∃ key value, e.KeyValue key value ∧ b.Encloses s (b.updateText e row key) ∧
    s.parameters = Entry.parameters 0 row ++
      [⟨.input value key.dataType, parameterName (Entry.bindings row).length⟩]

/-- The request for an update, of all fields or of those that are named. -/
def updateRequest (e : Entity) : Option (List String) → Request
  | none => .update e
  | some names => .updateProperties e names

/-- **An update that is answered sets a row.** -/
theorem exists_setsRow (chosen : Option (List String))
    (h : b.run (updateRequest e chosen) = .ok s) :
    ∃ row, b.SetsRow e (updateFields e chosen) row s := by
  obtain ⟨hcheck, sql, hbody, hfinish⟩ := run_eq_ok h
  have hbody' : b.updateBody e chosen [] = .ok sql := by
    cases chosen with
    | none => exact hbody
    | some names => exact hbody
  have hc : e.check = .ok () := by
    cases chosen with
    | none => exact hcheck e List.mem_cons_self
    | some names => exact hcheck e List.mem_cons_self
  have hrequest : ∀ steps, updateRequest e chosen ≠ .batch steps := by
    cases chosen <;> simp [updateRequest]
  obtain ⟨_, assignments, hassignments, hne, condition, hcondition, rfl⟩ :=
    updateBody_eq_ok.1 hbody'
  obtain ⟨row, hfields, hcells, rfl⟩ := exists_entries_of_assignments hassignments
  rw [keyLink?_nil] at hcondition
  obtain ⟨key, hkey, ⟨_, hnone, _⟩ | ⟨_, json, hjson, value, hvalue, rfl⟩⟩ :=
    keyCondition_eq_ok.1 hcondition
  · exact absurd hnone (by simp)
  · refine ⟨row, hfields, mt (fun hnil => by rw [hnil]; rfl) hne, hcells, key, value,
      ⟨Entity.onlyKey_of_key? hc hkey, json, hjson, hvalue⟩, ?_, ?_⟩
    · have henclosed := encloses_finish hrequest hbody hfinish
      rwa [write_update] at henclosed
    · have hbindings : s.sql.bindings = Entry.bindings row ++ [.input value key.dataType] := by
        refine (filterMap_finish passes_binding? hfinish).trans ?_
        refine (Dialect.filterMap_update passes_binding? (Sql.filterMap_table passes_binding? _)
          rfl).trans ?_
        exact congrArg (· ++ _) (Entry.flatMap_bindings bindings_assignmentSql)
      rw [Statement.parameters, Sql.parameters, hbindings, List.zipIdx_append, List.map_append,
        Nat.zero_add, Entry.parameters_eq]
      rfl

/-! ## Names -/

/-- Of a list of names only those of fields that may be set count. -/
theorem namedFields_congr (h : ∀ f ∈ e.settableFields, f.name ∈ names ↔ f.name ∈ names') :
    e.namedFields names = e.namedFields names' :=
  List.filter_congr fun f hf => decide_eq_decide.2 (h f hf)

theorem namedFields_eq_settable (h : ∀ f ∈ e.settableFields, f.name ∈ names) :
    e.namedFields names = e.settableFields :=
  List.filter_eq_self.2 fun f hf => decide_eq_true (h f hf)

/-- What an update is depends on the fields that it sets. -/
theorem updateBody_congr {chosen chosen' : Option (List String)} {links : Links}
    (h : updateFields e chosen = updateFields e chosen') :
    b.updateBody e chosen links = b.updateBody e chosen' links := by
  unfold updateBody
  rw [h]

/-- An update is answered just when the entity is right, its key has a value, and every field that
is named can be set; one has to be. -/
theorem exists_updateProperties_iff :
    (∃ s, b.updateProperties e names = .ok s) ↔
      e.check = .ok () ∧ (∃ key value, e.KeyValue key value) ∧ e.namedFields names ≠ [] ∧
        ∀ f ∈ e.namedFields names, ∃ c, b.Sets e f c := by
  constructor
  · rintro ⟨s, h⟩
    obtain ⟨hc, _⟩ := build_eq_ok.1 h
    obtain ⟨row, hrow⟩ := exists_setsRow (some names) h
    obtain ⟨key, value, hkey, _⟩ := hrow.statement
    rw [updateFields_some] at hrow
    refine ⟨hc, ⟨key, value, hkey⟩, ?_, ?_⟩
    · rw [← hrow.fields]
      exact mt List.map_eq_nil_iff.1 hrow.filled
    · rw [← hrow.fields]
      exact List.forall_mem_map.2 fun x hx => ⟨_, hrow.cells x hx⟩
  · rintro ⟨hc, ⟨key, value, honly, json, hjson, hvalue⟩, hne, hsets⟩
    obtain ⟨assignments, hassignments⟩ : ∃ assignments,
        (e.namedFields names).mapM (b.assignment e []) = .ok assignments := by
      refine exists_mapM_eq_ok.2 fun f hf => ?_
      obtain ⟨c, hset⟩ := hsets f hf
      exact ⟨_, assignment_eq_ok_iff.2 ⟨c, hset, rfl⟩⟩
    have hnonempty : assignments ≠ [] := by
      rintro rfl
      exact hne (List.forall₂_nil_right_iff.1 (mapM_eq_ok.1 hassignments))
    have hcondition : keyCondition e (keyLink? e []) =
        .ok [.column .root key.columnName, .text " = ", .bind (.input value key.dataType)] := by
      rw [keyLink?_nil]
      exact keyCondition_eq_ok.2
        ⟨key, honly.key?, .inr ⟨rfl, json, hjson, value, hvalue, rfl⟩⟩
    rw [← updateFields_some] at hassignments
    have hbody := updateBody_eq_ok.2
      ⟨⟨key, honly.key?⟩, assignments, hassignments, hnonempty, _, hcondition, rfl⟩
    obtain ⟨s, hs⟩ := exists_finish_body (r := .updateProperties e names) hbody
    exact ⟨s, build_eq_ok.2 ⟨hc, _, hbody, hs⟩⟩

/-- Without a field to set there is no update. -/
theorem updateProperties_of_none_named (hc : e.check = .ok ()) (hk : e.key?.isSome)
    (hnone : e.namedFields names = []) :
    b.updateProperties e names = .error (.invalidEntity (.nothingToUpdate e.table)) := by
  obtain ⟨key, hkey⟩ := Option.isSome_iff_exists.1 hk
  unfold updateProperties build updateBody
  rw [updateFields_some, hnone, hc, Entity.requireKey_eq_ok.2 hkey]
  rfl

/-- **An update of named properties is a part of the whole update.** It sets, in the order of their
declaration, the fields that may be set and are named. Each has the cell that the field and the
record decide, which is the one that it has in the whole update, if that is answered as well.

It is answered just when the entity is right, its key has a value, and the named fields, of which
there has to be one, have their cells: nothing else is looked at. Only names of fields that may be
set count, as a set; when all are named, the answer or the refusal is that of the whole update, and
when none is, there is nothing to update. -/
theorem named_updates (b : Builder) (e : Entity) (names : List String) :
    (∀ s, b.updateProperties e names = .ok s → ∃ row,
      b.SetsRow e (e.namedFields names) row s ∧
      ∀ whole, b.update e = .ok whole → ∃ all, b.SetsRow e e.settableFields all whole ∧
        row = all.filter fun x => x.field.name ∈ names) ∧
    ((∃ s, b.updateProperties e names = .ok s) ↔
      e.check = .ok () ∧ (∃ key value, e.KeyValue key value) ∧ e.namedFields names ≠ [] ∧
        ∀ f ∈ e.namedFields names, ∃ c, b.Sets e f c) ∧
    (∀ names', (∀ f ∈ e.settableFields, f.name ∈ names ↔ f.name ∈ names') →
      b.updateProperties e names = b.updateProperties e names') ∧
    ((∀ f ∈ e.settableFields, f.name ∈ names) → b.updateProperties e names = b.update e) ∧
    (e.check = .ok () → e.key?.isSome → (∀ f ∈ e.settableFields, f.name ∉ names) →
      b.updateProperties e names = .error (.invalidEntity (.nothingToUpdate e.table))) := by
  refine ⟨fun s h => ?_, exists_updateProperties_iff, fun names' hnames => ?_, fun hall => ?_,
    fun hc hk hnone => ?_⟩
  · obtain ⟨row, hrow⟩ := exists_setsRow (some names) h
    rw [updateFields_some] at hrow
    refine ⟨row, hrow, fun whole hwhole => ?_⟩
    obtain ⟨all, hall⟩ := exists_setsRow none hwhole
    rw [updateFields_none] at hall
    refine ⟨all, hall, eq_of_sets ?_ hrow.cells fun x hx =>
      hall.cells x (List.mem_of_mem_filter hx)⟩
    -- leaving out entries leaves out their fields
    rw [hrow.fields, Entity.namedFields, ← hall.fields, List.filter_map]
    rfl
  · refine congrArg (b.build e) (updateBody_congr ?_)
    rw [updateFields_some, updateFields_some, namedFields_congr hnames]
  · refine congrArg (b.build e) (updateBody_congr ?_)
    rw [updateFields_some, updateFields_none, namedFields_eq_settable hall]
  · refine updateProperties_of_none_named hc hk (List.filter_eq_nil_iff.2 fun f hf => ?_)
    exact fun hmem => hnone f hf (of_decide_eq_true hmem)

/-- A member of the staff with a salary that could not be written, and no manager. -/
def staffMember : Entity where
  table := "Staff"
  fields :=
    [{ Field.new "Id" .integer with isKey := true },
     .new "Salary" .decimal,
     .new "Name" .text,
     { Field.new "Manager" .text with
       dbName := some "manager", default := some (.string "nobody") }]
  properties :=
    ⟨[("Id", .number (.ofUInt64 7)), ("Salary", .string "enough"), ("Name", .string "Ada")],
      by decide⟩

theorem named_updates_staffMember :
    (∃ s row, Builder.default.updateProperties staffMember ["Manager", "Name", "Age", "Name"] =
        .ok s ∧
      Builder.default.SetsRow staffMember
        (staffMember.namedFields ["Manager", "Name", "Age", "Name"]) row s ∧
      s.text = "UPDATE t0 SET t0.Name = @p0, t0.manager = @p1 FROM Staff t0 WHERE t0.Id = @p2" ∧
      s.bindValues = [.text "Ada", .null, .integer 7]) ∧
    Builder.default.updateProperties staffMember ["Name", "Manager"] =
      Builder.default.updateProperties staffMember ["Manager", "Name", "Age", "Name"] ∧
    (∃ err, Builder.default.update staffMember = .error err ∧
      Builder.default.updateProperties staffMember ["Name", "Salary", "Manager"] = .error err) ∧
    Builder.default.updateProperties staffMember ["Age"] =
      .error (.invalidEntity (.nothingToUpdate "Staff")) ∧
    ∃ s whole all, Builder.default.updateProperties departments ["Name"] = .ok s ∧
      Builder.default.update departments = .ok whole ∧
      Builder.default.SetsRow departments departments.settableFields all whole ∧
      Builder.default.SetsRow departments (departments.namedFields ["Name"])
        (all.filter fun x => x.field.name ∈ ["Name"]) s := by
  refine ⟨?_, ?_, ?_, ?_, ?_⟩
  · obtain ⟨s, hs⟩ : ∃ s, Builder.default.updateProperties staffMember
        ["Manager", "Name", "Age", "Name"] = .ok s := ⟨_, rfl⟩
    obtain ⟨row, hrow, _⟩ := (named_updates Builder.default staffMember _).1 s hs
    refine ⟨s, row, hs, hrow, ?_, ?_⟩
    · obtain rfl := Except.ok.inj hs
      decide +kernel
    · obtain rfl := Except.ok.inj hs
      decide +kernel
  · exact (named_updates Builder.default staffMember _).2.2.1 _ (by decide)
  · obtain ⟨err, herr⟩ : ∃ err, Builder.default.update staffMember = .error err := ⟨_, rfl⟩
    exact ⟨err, herr,
      ((named_updates Builder.default staffMember _).2.2.2.1 (by decide)).trans herr⟩
  · exact (named_updates Builder.default staffMember _).2.2.2.2 rfl rfl (by decide)
  · obtain ⟨s, hs⟩ : ∃ s, Builder.default.updateProperties departments ["Name"] = .ok s := ⟨_, rfl⟩
    obtain ⟨whole, hwhole⟩ : ∃ whole, Builder.default.update departments = .ok whole := ⟨_, rfl⟩
    obtain ⟨row, hrow, hpart⟩ := (named_updates Builder.default departments _).1 s hs
    obtain ⟨all, hall, rfl⟩ := hpart whole hwhole
    exact ⟨s, whole, all, hs, hwhole, hall, hrow⟩

end Builder

end RecordSql
