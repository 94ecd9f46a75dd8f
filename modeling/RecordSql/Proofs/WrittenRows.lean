import RecordSql.Proofs.BatchSteps

/-!
# What is written into an encrypted column

Inserts and updates write a row: a column and an expression for each of some fields of the entity.
There are three ways to come by the expression.

* The value of the property, or the default: the current time, or a parameter, which an encrypted
  field encrypts.
* The null of an update whose field has no value, which is a parameter and never encrypted.
* The variable of a link, which is looked up before the type of the field is.

The first two keep an encrypted column **sealed**: it is given a null, or what the dialect encrypts
under the keys of the settings. So a statement on its own seals every encrypted column, and a step
of a batch seals those that it does not link. A link writes its variable in clear.
-/

namespace RecordSql

open Checked

/-! ## Rows -/

/-- What a statement writes into the column of a field. -/
structure Written where
  field : Field
  value : Sql

namespace Written

/-- The column among those of an insert. -/
def column (w : Written) : Sql := [.name w.field.columnName]

/-- The assignment of an update. -/
def assignment (w : Written) : Sql := [.target .root w.field.columnName, .text " = "] ++ w.value

end Written

/-- The entity that a request writes a row of with a statement of its own. -/
def Request.written? : Request → Option Entity
  | .insert e | .update e | .updateProperties e _ => some e
  | _ => none

namespace Builder

variable {b : Builder} {e : Entity} {links : Links} {sql : Sql} {s : Statement}

/-- A statement that writes a row of an entity, all of it; a delete writes nothing. -/
inductive Writes (b : Builder) (e : Entity) : List Written → Sql → Prop where
  | insert {row : List Written} (key : KeyReturn) :
      Writes b e row (b.dialect.insert
        ⟨Sql.table e.table, row.map Written.column, row.map Written.value⟩ key)
  | update {row : List Written} (condition : Sql) :
      Writes b e row (b.dialect.update (Sql.table e.table) [.text TableAlias.root.text]
        (row.map Written.assignment) condition)
  | delete (condition : Sql) :
      Writes b e []
        (b.dialect.delete (Sql.table e.table) [.text TableAlias.root.text] condition)

/-- How a field comes by what is written into its column, when `stated` gives the values of fields:
by its link, by its value, or by being filled with a null. -/
inductive Gives (b : Builder) (e : Entity) (links : Links) (stated : Field → Option Json) :
    Written → Prop where
  | linked {f : Field} {name : String} :
      links.lookup f.name = some name → Gives b e links stated ⟨f, [.variable name]⟩
  | stated {f : Field} {json : Json} {value : Sql} :
      links.lookup f.name = none → stated f = some json → b.valueExpression e f json = .ok value →
        Gives b e links stated ⟨f, value⟩
  | filled {f : Field} :
      links.lookup f.name = none → stated f = none →
        Gives b e links stated ⟨f, [.bind (.input .null f.dataType)]⟩

/-- The value that an update gives a field. -/
def updateValue? (e : Entity) (f : Field) : Option Json := e.present? f.name

theorem gives_of_insertEntry {f : Field} {entry : Sql × Sql}
    (h : b.insertEntry e links f = .ok (some entry)) :
    entry.1 = [.name f.columnName] ∧ b.Gives e links (insertValue? e) ⟨f, entry.2⟩ := by
  rcases insertEntry_eq_ok.1 h with ⟨name, hl, he⟩ | ⟨hl, ⟨_, he⟩ | ⟨json, hj, value, hv, he⟩⟩
  · rw [← Option.some.inj he]
    exact ⟨rfl, .linked hl⟩
  · exact absurd he (by simp)
  · rw [← Option.some.inj he]
    exact ⟨rfl, .stated hl hj hv⟩

/-- The entries of an insert are a row, with all of the fields that are linked. -/
theorem row_of_insertEntries {fields : List Field} {entries : List (Option (Sql × Sql))}
    (h : fields.mapM (b.insertEntry e links) = .ok entries) :
    ∃ row : List Written,
      (entries.filterMap id).map Prod.fst = row.map Written.column ∧
      (entries.filterMap id).map Prod.snd = row.map Written.value ∧
      (∀ w ∈ row, w.field ∈ fields ∧ b.Gives e links (insertValue? e) w) ∧
      ∀ f ∈ fields, ∀ name, links.lookup f.name = some name → ⟨f, [.variable name]⟩ ∈ row := by
  induction mapM_eq_ok.1 h with
  | nil => exact ⟨[], rfl, rfl, List.forall_mem_nil _, List.forall_mem_nil _⟩
  | @cons f o fields entries hf hrest ih =>
    obtain ⟨row, hcolumns, hvalues, hrow, hlinked⟩ := ih (mapM_eq_ok.2 hrest)
    have hmem : ∀ w ∈ row, w.field ∈ f :: fields ∧ b.Gives e links (insertValue? e) w :=
      fun w hw => ⟨List.mem_cons_of_mem _ (hrow w hw).1, (hrow w hw).2⟩
    have hentry : ∀ name, links.lookup f.name = some name →
        o = some ([.name f.columnName], [.variable name]) := by
      intro name hl
      rw [insertEntry, hl] at hf
      exact (Except.ok.inj hf).symm
    -- a field without a value has no part in the row
    cases o with
    | none =>
      refine ⟨row, hcolumns, hvalues, hmem, List.forall_mem_cons.2 ⟨fun name hl => ?_, hlinked⟩⟩
      exact absurd (hentry name hl) (by simp)
    | some entry =>
      obtain ⟨hcolumn, hgives⟩ := gives_of_insertEntry hf
      refine ⟨⟨f, entry.2⟩ :: row, ?_, ?_, ?_, List.forall_mem_cons.2 ⟨fun name hl => ?_, ?_⟩⟩
      · exact congrArg₂ List.cons hcolumn hcolumns
      · exact congrArg (List.cons entry.2) hvalues
      · exact List.forall_mem_cons.2 ⟨⟨List.mem_cons_self, hgives⟩, hmem⟩
      · rw [Option.some.inj (hentry name hl)]
        exact List.mem_cons_self
      · exact fun g hg name hl => List.mem_cons_of_mem _ (hlinked g hg name hl)

/-- So are the assignments of an update. -/
theorem row_of_assignments {fields : List Field} {assignments : List Sql}
    (h : fields.mapM (b.assignment e links) = .ok assignments) :
    ∃ row : List Written, assignments = row.map Written.assignment ∧
      (∀ w ∈ row, w.field ∈ fields ∧ b.Gives e links (updateValue? e) w) ∧
      ∀ f ∈ fields, ∀ name, links.lookup f.name = some name → ⟨f, [.variable name]⟩ ∈ row := by
  induction mapM_eq_ok.1 h with
  | nil => exact ⟨[], rfl, List.forall_mem_nil _, List.forall_mem_nil _⟩
  | @cons f a fields assignments hf hrest ih =>
    obtain ⟨row, hrow, hgives, hlinked⟩ := ih (mapM_eq_ok.2 hrest)
    obtain ⟨value, hvalue, rfl⟩ := assignment_eq_ok.1 hf
    refine ⟨⟨f, value⟩ :: row, congrArg (List.cons _) hrow, ?_,
      List.forall_mem_cons.2 ⟨fun name hl => ?_, ?_⟩⟩
    · refine List.forall_mem_cons.2 ⟨⟨List.mem_cons_self, ?_⟩, fun w hw =>
        ⟨List.mem_cons_of_mem _ (hgives w hw).1, (hgives w hw).2⟩⟩
      rcases hvalue with ⟨name, hl, rfl⟩ | ⟨hl, ⟨json, hj, hv⟩ | ⟨hn, rfl⟩⟩
      · exact .linked hl
      · exact .stated hl hj hv
      · exact .filled hl hn
    · rcases hvalue with ⟨name', hl', rfl⟩ | ⟨hl', _⟩
      · rw [Option.some.inj (hl.symm.trans hl')]
        exact List.mem_cons_self
      · exact absurd (hl.symm.trans hl') (by simp)
    · exact fun g hg name hl => List.mem_cons_of_mem _ (hlinked g hg name hl)

theorem mem_of_mem_updateFields {names : Option (List String)} {f : Field}
    (h : f ∈ updateFields e names) : f ∈ e.fields :=
  List.mem_of_mem_filter (List.mem_of_mem_filter h)

/-- The row that an insert writes. -/
theorem writes_insertBody {handling : KeyHandling} (h : b.insertBody e links handling = .ok sql) :
    ∃ row, b.Writes e row sql ∧
      ∀ w ∈ row, w.field ∈ e.fields ∧ ∃ stated, b.Gives e links stated w := by
  obtain ⟨entries, he, _, rfl⟩ := insertBody_eq_ok.1 h
  obtain ⟨row, hcolumns, hvalues, hrow, _⟩ := row_of_insertEntries he
  refine ⟨row, ?_, fun w hw => ⟨List.mem_of_mem_filter (hrow w hw).1, _, (hrow w hw).2⟩⟩
  rw [hcolumns, hvalues]
  exact .insert _

/-- The row that an update writes. -/
theorem writes_updateBody {names : Option (List String)}
    (h : b.updateBody e names links = .ok sql) :
    ∃ row, b.Writes e row sql ∧
      ∀ w ∈ row, w.field ∈ e.fields ∧ ∃ stated, b.Gives e links stated w := by
  obtain ⟨_, assignments, ha, _, condition, _, rfl⟩ := updateBody_eq_ok.1 h
  obtain ⟨row, rfl, hrow, _⟩ := row_of_assignments ha
  exact ⟨row, .update condition, fun w hw =>
    ⟨mem_of_mem_updateFields (hrow w hw).1, _, (hrow w hw).2⟩⟩

theorem writes_deleteBody (h : b.deleteBody e links = .ok sql) : b.Writes e [] sql := by
  obtain ⟨condition, _, rfl⟩ := deleteBody_eq_ok.1 h
  exact .delete condition

/-- The row that a step of a batch writes. -/
theorem writes_stepBody {steps : List BatchStep} {step : BatchStep} {i : Nat}
    (hback : ∀ link ∈ step.links, LeadsBack steps i link)
    (h : b.stepBody (b.keyVariables steps) step i = .ok sql) :
    ∃ row, b.Writes step.entity row sql ∧
      ∀ w ∈ row, w.field ∈ step.entity.fields ∧
        ∃ stated, b.Gives step.entity (b.stepLinks steps step) stated w := by
  obtain ⟨_, _, h⟩ := (stepBody_linked hback).1 h
  split at h
  · exact writes_insertBody h
  · exact writes_updateBody h
  · exact ⟨[], writes_deleteBody h, List.forall_mem_nil _⟩

/-! ## Sealed values -/

/-- What an encrypted column may be given: the null of a parameter, or what the dialect encrypts of
a parameter under the keys of the settings. -/
inductive Sealed (b : Builder) : Sql → Prop where
  | null {x : Binding} : x.value = .null → Sealed b [.bind x]
  | encrypted {x : Binding} {keys : EncryptionKeys} {value : Sql} :
      b.config.encryption = some keys → b.dialect.encrypt [.bind x] keys = .ok value →
        Sealed b value

/-- A variable is neither. -/
theorem not_sealed_variable {name : String} : ¬ b.Sealed [.variable name] := by
  intro h
  cases h with
  | encrypted _ hvalue =>
    cases hd : b.dialect with
    | sqlServer => simp [hd, Dialect.encrypt] at hvalue
    | oracle => simp [hd, Dialect.encrypt] at hvalue

/-- **What is not linked is sealed**, and what is linked is its variable. -/
theorem Gives.sealed_iff {w : Written} {stated : Field → Option Json}
    (h : b.Gives e links stated w)
    (hw : w.field.dataType = .encrypted) :
    (b.Sealed w.value ↔ links.lookup w.field.name = none) ∧
      ∀ name, links.lookup w.field.name = some name → w.value = [.variable name] := by
  cases h with
  | linked hl =>
    refine ⟨iff_of_false not_sealed_variable (by simp [hl]), ?_⟩
    intro name hname
    rw [Option.some.inj (hl.symm.trans hname)]
  | stated hl _ hv =>
    refine ⟨iff_of_true ?_ hl, fun name hname => absurd (hl.symm.trans hname) (by simp)⟩
    -- an encrypted field is no date, so it takes no current time
    rcases valueExpression_eq_ok.1 hv with ⟨ht, _⟩ | ⟨_, typed, _, ⟨_, keys, hk, hv⟩ | ⟨hne, _⟩⟩
    · rw [hw] at ht
      exact absurd ht (by simp [DataType.isTemporal])
    · exact .encrypted (keysFor_eq_ok.1 hk).2 hv
    · exact absurd hw hne
  | filled hl _ =>
    exact ⟨iff_of_true (.null rfl) hl, fun name hname => absurd (hl.symm.trans hname) (by simp)⟩

/-! ## Statements -/

/-- The row that a request writes, which has no links. -/
theorem writes_body {r : Request} (hr : r.written? = some e) (h : b.body r = .ok sql) :
    ∃ row, b.Writes e row sql ∧
      ∀ w ∈ row, w.field ∈ e.fields ∧ ∃ stated, b.Gives e [] stated w := by
  cases r with
  | insert e' =>
    obtain rfl := Option.some.inj hr
    exact writes_insertBody h
  | update e' =>
    obtain rfl := Option.some.inj hr
    exact writes_updateBody h
  | updateProperties e' names =>
    obtain rfl := Option.some.inj hr
    exact writes_updateBody h
  | _ => exact absurd hr (by simp [Request.written?])

/-- **A written encrypted column is sealed, unless a link fills it.** An insert and an update of one
row give every encrypted column a null, or what the dialect encrypts of a parameter. In a batch that
is so of every column that its step does not link; a linked one is given the variable of its last
link, encrypted or not. -/
theorem seals_run {r : Request} (h : b.run r = .ok s) :
    (∀ e, r.written? = some e → ∃ row sql, b.Writes e row sql ∧ b.finish sql = .ok s ∧
      ∀ w ∈ row, w.field ∈ e.fields ∧ (w.field.dataType = .encrypted → b.Sealed w.value)) ∧
    ∀ steps, r = .batch steps → ∃ fragments, fragments.length = steps.length ∧
      b.finish (b.dialect.batch ⟨b.templateVariables steps, fragments⟩) = .ok s ∧
      ∀ (i : Nat) step fragment, steps[i]? = some step → fragments[i]? = some fragment →
        ∃ row, b.Writes step.entity row fragment ∧
          ∀ w ∈ row, w.field ∈ step.entity.fields ∧ (w.field.dataType = .encrypted →
            (b.Sealed w.value ↔ ∀ link ∈ step.links, link.field ≠ w.field.name) ∧
            ∀ link, step.lastLink? w.field.name = some link →
              w.value = [.variable (b.variableOf steps link.step)]) := by
  constructor
  · intro e hr
    obtain ⟨_, sql, hbody, hfinish⟩ := run_eq_ok h
    obtain ⟨row, hwrites, hrow⟩ := writes_body hr hbody
    refine ⟨row, sql, hwrites, hfinish, fun w hw => ⟨(hrow w hw).1, fun hencrypted => ?_⟩⟩
    obtain ⟨_, hgives⟩ := (hrow w hw).2
    exact (hgives.sealed_iff hencrypted).1.2 rfl
  · rintro steps rfl
    obtain ⟨hlinks, fragments, hlength, hfinish, hstep⟩ := batch_fragments h
    refine ⟨fragments, hlength, hfinish, fun i step fragment hi hf => ?_⟩
    obtain ⟨row, hwrites, hrow⟩ := writes_stepBody (hlinks i step hi) (hstep i step fragment hi hf)
    refine ⟨row, hwrites, fun w hw => ⟨(hrow w hw).1, fun hencrypted => ?_⟩⟩
    obtain ⟨_, hgives⟩ := (hrow w hw).2
    obtain ⟨hsealed, hlinked⟩ := hgives.sealed_iff hencrypted
    refine ⟨hsealed.trans lookup_stepLinks_eq_none, fun link hlink => hlinked _ ?_⟩
    rw [lookup_stepLinks, hlink]
    rfl

/-- A builder with the key that notes are encrypted with. -/
def noteBuilder : Builder := ofConfig ⟨.sqlServer, false, some ⟨"NoteKey", "NoteCertificate"⟩⟩

/-- A note on an order, which is encrypted with its text. -/
def note : Entity where
  table := "Notes"
  fields := [.new "OrderId" .encrypted, .new "Body" .encrypted]
  properties := ⟨[("Body", .string "call back")], by decide⟩

theorem seals_run_note :
    (∃ s, noteBuilder.run (.insert note) = .ok s ∧ ∃ row sql, noteBuilder.Writes note row sql ∧
      noteBuilder.finish sql = .ok s ∧
      ∀ w ∈ row, w.field ∈ note.fields ∧
        (w.field.dataType = .encrypted → noteBuilder.Sealed w.value)) ∧
    ∃ s, noteBuilder.run (.batch [order, ⟨.insert, note, [⟨"OrderId", 0⟩]⟩]) = .ok s ∧
      ∃ fragment row, noteBuilder.Writes note row fragment ∧ ∀ w ∈ row,
        w.field.dataType = .encrypted →
          (noteBuilder.Sealed w.value ↔ "OrderId" ≠ w.field.name) := by
  constructor
  · obtain ⟨s, hs⟩ : ∃ s, noteBuilder.run (.insert note) = .ok s := ⟨_, rfl⟩
    exact ⟨s, hs, (seals_run hs).1 note rfl⟩
  · obtain ⟨s, hs⟩ : ∃ s, noteBuilder.run
        (.batch [order, ⟨.insert, note, [⟨"OrderId", 0⟩]⟩]) = .ok s := ⟨_, rfl⟩
    obtain ⟨fragments, hlength, _, hrows⟩ := (seals_run hs).2 _ rfl
    have hone : 1 < fragments.length := by rw [hlength]; decide
    obtain ⟨row, hwrites, hrow⟩ := hrows 1 _ _ rfl (List.getElem?_eq_getElem hone)
    refine ⟨s, hs, _, row, hwrites, fun w hw hencrypted => ?_⟩
    exact ((hrow w hw).2 hencrypted).1.trans (List.forall_mem_singleton)

/-- A note that holds an order and nothing else. -/
def plainNote : BatchStep where
  operation := .insert
  entity := ⟨"Notes", [.new "OrderId" .encrypted], .empty⟩
  links := [⟨"OrderId", 0⟩]

/-- **A linked encrypted column is written in clear**, even where there is no key to encrypt with:
the batch is answered, and gives the column the variable of the order. -/
theorem seals_plainNote_clear :
    ∃ s fragment row, Builder.default.run (.batch [order, plainNote]) = .ok s ∧
      Builder.default.stepBody (Builder.default.keyVariables [order, plainNote]) plainNote 1 =
        .ok fragment ∧
      Builder.default.Writes plainNote.entity row fragment ∧
      (∃ w ∈ row, w.field ∈ plainNote.entity.fields ∧ w.field.dataType = .encrypted ∧
        w.value = [.variable "@id0"] ∧ ¬ Builder.default.Sealed w.value) ∧
      s.text = "SET XACT_ABORT ON;\nBEGIN TRANSACTION;\nDECLARE @id0 BIGINT;\n" ++
        "INSERT INTO Orders (Ref) VALUES (@p0); SET @id0 = SCOPE_IDENTITY();\n" ++
        "INSERT INTO Notes (OrderId) VALUES (@id0);\nCOMMIT TRANSACTION;\n" ++
        "SELECT @id0 AS id0;" := by
  let w : Written := ⟨.new "OrderId" .encrypted, [.variable "@id0"]⟩
  refine ⟨_, _, [w], rfl, rfl, .insert .omit, ⟨w, ?_, ?_, rfl, rfl, not_sealed_variable⟩, ?_⟩
  · exact List.mem_singleton_self w
  · exact List.mem_singleton_self _
  · decide +kernel

end Builder

end RecordSql
