import RecordSql.Proofs.SinkAggregates
import RecordSql.Proofs.SinkBatches
import RecordSql.Proofs.StatementEnds
import RecordSql.Writer.Request

/-!
# Answers come out of the sink as they stand in pieces

Every statement is written along a sink, and what the sink has at the end is put into the answer.
The body of the request says in pieces what the text should be.

**Bound in the order of the text.** The values in the sink are those of the pieces, in their order
and numbered from the first. So the parameters of an answer go with the placeholders in its text,
although they were bound by the clauses and the clauses were put together in an order of their own.

**Marked for what stands in the text.** The sink is marked just if a piece needs the key. So a
column that was read is also there, and one that is there was read along the sink.

**Finished alike.** A wrapped text sheds its semicolons as its pieces do, and what is bound stays.

Answers are therefore the texts and parameters of statements in pieces, refusals included, and
whatever is shown of pieces holds of them.
-/

namespace RecordSql

open Checked Text

/-- A statement in pieces as an answer. -/
def Statement.answer (s : Statement) : Answer := ⟨s.text, s.parameters⟩

namespace Builder

variable {b : Builder} {r : Request} {sql : Sql}

theorem renders_writeAbout {e : Entity} {body : Checked Sql} {writer : Writing String}
    (h : Renders b.dialect (.ofSql b.style) body writer) :
    Renders b.dialect (.ofSql b.style) (bodyAbout e body) (writeAbout e writer) :=
  fun σ hσ => Writing.check_bind_run fun _ _ => h σ hσ

/-- **The statement of every request renders its body.** -/
theorem renders_writeBody (r : Request) :
    Renders b.dialect (.ofSql b.style) (b.checkedBody r) (b.writeBody r) := by
  cases r with
  | select e l => exact renders_writeAbout (renders_writeSelect l)
  | count e l => exact renders_writeAbout (renders_writeCount l)
  | selectByKey e => exact renders_writeAbout renders_writeSelectByKey
  | selectByExample e combinator =>
    exact renders_writeAbout (renders_writeSelectByExample combinator)
  | insert e => exact renders_writeAbout (renders_writeInsert [] .return)
  | update e => exact renders_writeAbout (renders_writeUpdate none [])
  | updateProperties e names => exact renders_writeAbout (renders_writeUpdate (some names) [])
  | delete e => exact renders_writeAbout (renders_writeDelete [])
  | aggregate e a source => exact renders_writeAbout (renders_writeAggregate a source)
  | batch steps => exact renders_writeBatch

/-- What comes out of an empty sink: the text of the body, its parameters, and a mark if a piece of
it needs the key. -/
theorem run_writeBody (r : Request) :
    (b.writeBody r).run (.new b.dialect) = (b.checkedBody r).map fun sql =>
      (sql.write b.style, ⟨b.dialect, sql.parameters, sql.needsKey⟩) := by
  have h := renders_writeBody (b := b) r
  cases hbody : b.checkedBody r with
  | ok sql =>
    rw [hbody] at h
    have hrun := h.run_eq (Eq.refl (Sink.new b.dialect).dialect)
    rw [hrun, Sink.after_new]
    rfl
  | error fault =>
    rw [hbody] at h
    exact h.run_error (Eq.refl (Sink.new b.dialect).dialect)

/-- A text that sheds its semicolons as its pieces do is wrapped as they are. -/
theorem writeWithKeys_eq (keys : EncryptionKeys)
    (h : b.dialect = .sqlServer →
      Sql.dropSemicolons (sql.write b.style) = sql.withoutSemicolons.write b.style) :
    b.dialect.writeWithKeys (sql.write b.style) keys =
      (b.dialect.withKeys sql keys).map (Sql.write b.style) := by
  cases hd : b.dialect with
  | oracle => rfl
  | sqlServer =>
    rw [Dialect.writeWithKeys, h hd]
    exact congrArg Except.ok (Sql.writeFrom_wrapped _ _ _).symm

theorem parameters_withKeys {d : Dialect} {keys : EncryptionKeys} {wrapped : Sql}
    (h : d.withKeys sql keys = .ok wrapped) : wrapped.parameters = sql.parameters := by
  cases d with
  | oracle => exact absurd h (by simp [Dialect.withKeys])
  | sqlServer =>
    obtain rfl := Except.ok.inj h
    rw [Sql.parameters, Sql.bindings, Sql.filterMap_wrapped passes_binding?,
      Sql.filterMap_withoutSemicolons passes_binding?]
    rfl

/-- A text is finished as its pieces are. -/
theorem finishText_eq (h : b.checkedBody r = .ok sql) :
    b.finishText (sql.write b.style) ⟨b.dialect, sql.parameters, sql.needsKey⟩ =
      (b.finish sql).map Statement.answer := by
  obtain ⟨hc, hbody⟩ := body_of_checkedBody h
  have hwrap := fun keys => writeWithKeys_eq keys fun hd => dropSemicolons_body (b := b) hd hc hbody
  unfold finishText finish
  dsimp only
  split
  · cases b.config.encryption with
    | none => rfl
    | some keys =>
      dsimp only
      rw [hwrap keys]
      cases hwrapped : b.dialect.withKeys sql keys with
      | error fault => rfl
      | ok wrapped =>
        rw [← parameters_withKeys hwrapped]
        rfl
  · rfl

/-- **An answer is the text and the parameters of the statement in pieces.** -/
theorem answer_eq (b : Builder) (r : Request) :
    b.answer r = (b.run r).map Statement.answer := by
  rw [answer, run_writeBody, run_eq_finish]
  cases hbody : b.checkedBody r with
  | error fault => rfl
  | ok sql => exact finishText_eq hbody

theorem answer_eq_ok {a : Answer} :
    b.answer r = .ok a ↔ ∃ s, b.run r = .ok s ∧ s.answer = a := by
  rw [answer_eq]
  cases b.run r with
  | ok s => simp [Except.map]
  | error fault => simp [Except.map]

theorem answer_eq_error {fault : QueryError} :
    b.answer r = .error fault ↔ b.run r = .error fault := by
  rw [answer_eq]
  cases b.run r with
  | ok s => simp [Except.map]
  | error fault => simp [Except.map]

/-- Behind an answer there are a body, what is written for it, and the statement that it is finished
to. -/
theorem written_of_answer {a : Answer} (h : b.answer r = .ok a) :
    ∃ sql s, (∀ e ∈ r.entities, e.check = .ok ()) ∧ b.body r = .ok sql ∧
      (b.writeBody r).run (.new b.dialect) =
        .ok (sql.write b.style, ⟨b.dialect, sql.parameters, sql.needsKey⟩) ∧
      b.finish sql = .ok s ∧ s.answer = a := by
  obtain ⟨s, hs, ha⟩ := answer_eq_ok.1 h
  rw [run_eq_finish, bind_eq_ok] at hs
  obtain ⟨sql, hsql, hfinish⟩ := hs
  obtain ⟨hc, hbody⟩ := body_of_checkedBody hsql
  refine ⟨sql, s, hc, hbody, ?_, hfinish, ha⟩
  rw [run_writeBody, hsql]
  rfl

/-! ## Placeholders -/

/--
**Placeholders stand in the order in which their values were bound.**

A reader of the text of any answer finds the placeholders of `p0`, `p1` and so on from left to
right, each once and as many as the sink has parameters; the parameters have these names in the
same order, and each is found under its name.

The names of the key have to be identifiers, as checked settings make sure, and the aliases of
functions have to leave the two marks out, as no check does.
-/
theorem placeholders_answer {a : Answer} (hc : b.config.check = .ok ())
    (hl : ∀ label ∈ r.functionAliases, '@' ∉ label.toList ∧ ':' ∉ label.toList)
    (h : b.answer r = .ok a) :
    placeholders b.dialect.mark a.text.toList =
        (List.range a.parameters.length).map (fun i => b.dialect.placeholder (parameterName i)) ∧
      (placeholders b.dialect.mark a.text.toList).Nodup ∧
      a.parameters.map Parameter.name = (List.range a.parameters.length).map parameterName ∧
      ∀ i (hi : i < a.parameters.length),
        a.parameter? (parameterName i) = some a.parameters[i] := by
  obtain ⟨s, hs, rfl⟩ := answer_eq_ok.1 h
  exact placeholders_run hc hl hs

theorem placeholders_answer_departmentCount :
    ∃ a, Builder.default.answer departmentCount = .ok a ∧
      placeholders '@' a.text.toList = ["@p0", "@p1", "@p2", "@p3"] := by
  obtain ⟨s, hs, hfour⟩ : ∃ s, Builder.default.run departmentCount = .ok s ∧
      s.parameters.length = 4 := ⟨_, rfl, rfl⟩
  have ha := answer_eq_ok.2 ⟨s, hs, rfl⟩
  refine ⟨_, ha, (placeholders_answer rfl (by decide) ha).1.trans ?_⟩
  rw [Statement.answer, hfour]
  rfl

end Builder

end RecordSql
