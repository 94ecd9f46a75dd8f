import RecordSql.Proofs.Carrying
import RecordSql.Proofs.KeyCalls
import RecordSql.Proofs.KeyRestriction
import RecordSql.Proofs.WrittenRows

/-!
# What a request is refused for

A host tells refusals apart by their kind, so each kind has to mean one thing.

* What lies with an entity may stop any request.
* What lies with a filter stops only requests with conditions of their own: an example, an
  aggregation or a listing.
* Encryption stops a request at an encrypted field of one of its entities: on Oracle because there
  is none, on SQL Server when the settings have no keys. The refusal names the field.

Each step of a builder is refused for one of these. A field is the only thing that keys are asked
for, and nothing that is done with keys is refused once they are given. What is marked in a body was
written with keys that a field was given, so finishing a body is never refused.
-/

namespace RecordSql

open Checked

/-- The request has conditions of its own. -/
def Request.Filters : Request → Prop
  | .select _ l | .count _ l => l.isSome
  | .selectByExample .. | .aggregate .. => True
  | _ => False

/-- What a request may be refused for, by the kind of the refusal. -/
inductive Request.Warrants (b : Builder) (r : Request) : QueryError → Prop where
  | entity (fault : EntityFault) : Warrants b r (.invalidEntity fault)
  | filter {fault : FilterFault} : r.Filters → Warrants b r (.invalidFilter fault)
  | dialect {e : Entity} {f : Field} : e ∈ r.entities → f ∈ e.fields → f.dataType = .encrypted →
      b.dialect = .oracle → Warrants b r (.unsupported .oracle (.column f.name))
  | keys {e : Entity} {f : Field} : e ∈ r.entities → f ∈ e.fields → f.dataType = .encrypted →
      b.dialect = .sqlServer → b.config.encryption = none →
      Warrants b r (.keysMissing (some f.name))

namespace Builder

variable {b : Builder} {e : Entity} {P : QueryError → Prop} {links : Links}

/-! ## Keys that were given -/

/-- Nothing that is done with the keys is refused. -/
structure Equipped (b : Builder) (keys : EncryptionKeys) : Prop where
  decrypt : ∀ column, ∃ sql, b.dialect.decrypt column = .ok sql
  encrypt : ∀ value, ∃ sql, b.dialect.encrypt value keys = .ok sql
  withKeys : ∀ sql, ∃ wrapped, b.dialect.withKeys sql keys = .ok wrapped
  finish : ∀ sql, ∃ s, b.finish sql = .ok s

/-- SQL Server can do all that is done with keys, so its settings only have to hold some. -/
theorem equipped_of_encryption {keys : EncryptionKeys} (hd : b.dialect = .sqlServer)
    (hk : b.config.encryption = some keys) : b.Equipped keys := by
  have hwith : ∀ sql, ∃ wrapped, b.dialect.withKeys sql keys = .ok wrapped := by
    rw [hd]
    exact fun sql => ⟨_, rfl⟩
  refine ⟨?_, ?_, hwith, fun sql => ?_⟩
  · rw [hd]
    exact fun column => ⟨_, rfl⟩
  · rw [hd]
    exact fun value => ⟨_, rfl⟩
  · cases hn : sql.needsKey with
    | false => exact ⟨_, finish_eq_ok.2 (.inl ⟨hn, rfl⟩)⟩
    | true =>
      obtain ⟨wrapped, hwrapped⟩ := hwith sql
      exact ⟨_, finish_eq_ok.2 (.inr ⟨hn, keys, hk, wrapped, hwrapped, rfl⟩)⟩

theorem equipped_of_keysFor {f : Field} {keys : EncryptionKeys} (h : b.keysFor f = .ok keys) :
    b.Equipped keys := by
  obtain ⟨hd, hk⟩ := keysFor_eq_ok.1 h
  exact equipped_of_encryption hd hk

/-! ## Requests for names

The column that a name stands for is asked for in the same two steps by all of them. So they are
refused for the filter, or for a column that cannot be read.
-/

section Named

variable (ho : ∀ target, e.Reaches target → Refuses P (b.operand target))
  (hp : ∀ fault, P (.invalidFilter fault))

include hp in
/-- What is made of the column of a name is refused for the name or for the column. -/
theorem refuses_named {α : Type} {name : String} {use : Target → Checked α}
    (huse : ∀ target, e.Reaches target → Refuses P (use target)) :
    Refuses P (Checked.ofFilter (e.resolve name) >>= use) :=
  .bind (.of_filter hp) fun target ht =>
    huse target (Entity.reaches_of_resolve? (Entity.resolve_eq_ok.1 (ofFilter_eq_ok.1 ht)))

include ho hp

theorem refuses_columnCondition (name : String) (search : Predicate) :
    Refuses P (b.columnCondition e name search) :=
  refuses_named hp fun target ht =>
    .bind (.of_filter hp) fun _ _ => .bind (ho target ht) fun _ _ => .ok _

theorem refuses_searchCondition (search : Predicate) (name : String) :
    Refuses P (b.searchCondition e search name) := by
  refine refuses_named hp fun target ht => ?_
  cases search.coerce target.dataType with
  | error _ => exact .ok _
  | ok condition => exact .bind (ho target ht) fun _ _ => .ok _

theorem refuses_searchConditions (l : Listing) : Refuses P (b.searchConditions e l) := by
  unfold Builder.searchConditions
  cases l.search with
  | none => exact .ok _
  | some search =>
    exact .bind (.mapM fun name _ => refuses_searchCondition ho hp search name) fun _ _ => .ok _

theorem refuses_filterClause (l : Listing) : Refuses P (b.filterClause e l) := by
  refine .bind (.mapM ?_) fun _ _ => .bind (refuses_searchConditions ho hp l) fun _ _ => .ok _
  rintro ⟨name, search⟩ _
  exact refuses_columnCondition ho hp name search

theorem refuses_exampleCondition {f : Field} (hf : f ∈ e.fields) :
    Refuses P (b.exampleCondition e f) := by
  refine .bind (.of_filter hp) fun search _ => ?_
  cases search with
  | none => exact .ok _
  | some search =>
    exact .bind (.of_filter hp) fun _ _ => .bind (ho (.field f) (.field hf)) fun _ _ => .ok _

theorem refuses_exampleClause (combinator : Combinator) :
    Refuses P (b.exampleClause e combinator) := by
  refine .bind (.mapM fun f hf => refuses_exampleCondition ho hp hf) fun conditions _ => ?_
  split <;> exact .ok _

theorem refuses_sortTerms (l : Listing) : Refuses P (b.sortTerms e l) := by
  refine .bind (.of_filter hp) fun targets _ => .mapM ?_
  rintro ⟨column, direction⟩ _
  exact refuses_named hp fun target ht => .bind (ho target ht) fun _ _ => .ok _

theorem refuses_groupTerm (name : String) : Refuses P (b.groupTerm e name) :=
  refuses_named hp fun target ht => .bind (ho target ht) fun _ _ => .ok _

theorem refuses_rollupItems (rollup : Option String) : Refuses P (b.rollupItems e rollup) := by
  cases rollup with
  | none => exact .ok _
  | some name => exact refuses_named hp fun target ht => .bind (ho target ht) fun _ _ => .ok _

theorem refuses_aggregateCall (c : AggregateColumn) : Refuses P (b.aggregateCall e c) := by
  unfold Builder.aggregateCall
  cases c.field with
  | none =>
    dsimp only
    split
    · exact .ok _
    · exact .error (hp _)
  | some name => exact refuses_named hp fun target ht => .bind (ho target ht) fun _ _ => .ok _

theorem refuses_sourceClause (source : AggregateSource) :
    Refuses P (b.sourceClause e source) := by
  cases source with
  | «example» combinator => exact refuses_exampleClause ho hp combinator
  | listing l => exact refuses_filterClause ho hp l

end Named

/-! ## Steps -/

/-- What a statement about the entity may be refused for, its filter apart: anything that lies with
the entity, and whatever the keys of its encrypted fields are refused for. -/
structure Admits (b : Builder) (e : Entity) (P : QueryError → Prop) : Prop where
  entity : ∀ fault, P (.invalidEntity fault)
  keys : ∀ f ∈ e.fields, f.dataType = .encrypted → Refuses P (b.keysFor f)

namespace Admits

theorem readField (h : b.Admits e P) {f : Field} (hf : f ∈ e.fields) :
    Refuses P (b.readField f) := by
  unfold Builder.readField
  split
  · next hencrypted =>
    refine .bind (h.keys f hf hencrypted) fun keys hkeys => ?_
    obtain ⟨sql, hsql⟩ := (equipped_of_keysFor hkeys).decrypt [.column .root f.columnName]
    rw [hsql]
    exact .ok sql
  · exact .ok _

theorem operand (h : b.Admits e P) (target : Target) (ht : e.Reaches target) :
    Refuses P (b.operand target) := by
  cases ht with
  | field hf => exact h.readField hf
  | joined _ _ => exact .ok _

/-! ### Reading -/

theorem fieldItem (h : b.Admits e P) {f : Field} (hf : f ∈ e.fields) :
    Refuses P (b.fieldItem f) := by
  unfold Builder.fieldItem
  split
  · exact .ok _
  · exact .bind (h.readField hf) fun _ _ => .ok _
  · split <;> exact .ok _

theorem projection (h : b.Admits e P) : Refuses P (b.projection e) := by
  refine .bind (.mapM fun f hf => h.fieldItem (List.mem_of_mem_filter hf)) fun fields _ => ?_
  split
  · exact .error (h.entity _)
  · exact .ok _

theorem fromClause (h : b.Admits e P) : Refuses P (RecordSql.fromClause e) :=
  .bind (.of_entity h.entity) fun _ _ => .ok _

/-- A listing that is not there has no filter, no order and no window. -/
theorem selectBody (h : b.Admits e P) {l : Option Listing}
    (hp : l.isSome → ∀ fault, P (.invalidFilter fault)) : Refuses P (b.selectBody e l) := by
  refine .bind h.projection fun _ _ => .bind h.fromClause fun _ _ => ?_
  cases l with
  | none => exact .bind (.ok _) fun _ _ => .bind (.ok _) fun _ _ => .ok _
  | some l =>
    exact .bind (refuses_filterClause h.operand (hp rfl) l) fun _ _ =>
      .bind (refuses_sortTerms h.operand (hp rfl) l) fun _ _ => .of_filter (hp rfl)

theorem countBody (h : b.Admits e P) {l : Option Listing}
    (hp : l.isSome → ∀ fault, P (.invalidFilter fault)) : Refuses P (b.countBody e l) := by
  refine .bind h.fromClause fun _ _ => ?_
  cases l with
  | none => exact .bind (.ok _) fun _ _ => .ok _
  | some l => exact .bind (refuses_filterClause h.operand (hp rfl) l) fun _ _ => .ok _

theorem selectByKeyBody (h : b.Admits e P) : Refuses P (b.selectByKeyBody e) :=
  .bind h.projection fun _ _ => .bind h.fromClause fun _ _ =>
    .bind (refuses_keyCondition h.entity _) fun _ _ => .ok _

theorem selectByExampleBody (h : b.Admits e P) (hp : ∀ fault, P (.invalidFilter fault))
    (combinator : Combinator) : Refuses P (b.selectByExampleBody e combinator) :=
  .bind h.projection fun _ _ => .bind h.fromClause fun _ _ =>
    .bind (refuses_exampleClause h.operand hp combinator) fun _ _ => .ok _

theorem aggregateBody (h : b.Admits e P) (hp : ∀ fault, P (.invalidFilter fault)) (a : Aggregation)
    (source : AggregateSource) : Refuses P (b.aggregateBody e a source) := by
  unfold Builder.aggregateBody
  split
  · exact .bind (.error (hp _)) fun _ hgiven => absurd hgiven (by simp)
  · refine .bind (.mapM fun name _ => refuses_groupTerm h.operand hp name) fun _ _ => ?_
    refine .bind (refuses_rollupItems h.operand hp _) fun _ _ => ?_
    refine .bind (.mapM fun c _ => refuses_aggregateCall h.operand hp c) fun _ _ => ?_
    refine .bind (refuses_sourceClause h.operand hp source) fun _ _ =>
      .bind (.of_filter hp) fun _ _ => ?_
    exact .bind h.fromClause fun _ _ => .ok _

/-! ### Writing -/

theorem valueExpression (h : b.Admits e P) {f : Field} (hf : f ∈ e.fields) (value : Json) :
    Refuses P (b.valueExpression e f value) := by
  unfold Builder.valueExpression
  split
  · exact .ok _
  · refine .bind (.of_entity h.entity) fun typed _ => ?_
    split
    · next hencrypted =>
      refine .bind (h.keys f hf hencrypted) fun keys hkeys => ?_
      obtain ⟨sql, hsql⟩ := (equipped_of_keysFor hkeys).encrypt [.bind (.input typed f.dataType)]
      rw [hsql]
      exact .ok sql
    · exact .ok _

theorem insertEntry (h : b.Admits e P) {f : Field} (hf : f ∈ e.fields) :
    Refuses P (b.insertEntry e links f) := by
  unfold Builder.insertEntry
  split
  · exact .ok _
  · split
    · exact .ok _
    · exact .bind (h.valueExpression hf _) fun _ _ => .ok _

theorem insertBody (h : b.Admits e P) (handling : KeyHandling) :
    Refuses P (b.insertBody e links handling) := by
  refine .bind (.mapM fun f hf => h.insertEntry (List.mem_of_mem_filter hf)) fun entries _ => ?_
  split
  · exact .error (h.entity _)
  · exact .ok _

theorem assignment (h : b.Admits e P) {f : Field} (hf : f ∈ e.fields) :
    Refuses P (b.assignment e links f) := by
  unfold Builder.assignment
  split
  · exact .bind (.ok _) fun _ _ => .ok _
  · split
    · exact .bind (h.valueExpression hf _) fun _ _ => .ok _
    · exact .bind (.ok _) fun _ _ => .ok _

theorem updateBody (h : b.Admits e P) (names : Option (List String)) :
    Refuses P (b.updateBody e names links) := by
  have hset : Refuses P ((updateFields e names).mapM (b.assignment e links)) :=
    .mapM fun _ hf => h.assignment (List.mem_of_mem_filter (List.mem_of_mem_filter hf))
  exact refuses_updateBody h.entity hset

/-! ### Batches -/

theorem stepBody {step : BatchStep} {keyed : KeyVariables} {index : Nat}
    (h : b.Admits step.entity P) : Refuses P (b.stepBody keyed step index) := by
  refine .bind (.of_entity h.entity) fun _ _ => .bind (.of_entity h.entity) fun links _ => ?_
  cases step.operation with
  | insert => exact h.insertBody _
  | update => exact h.updateBody _
  | delete => exact refuses_deleteBody h.entity

theorem batchBody {steps : List BatchStep} (hentity : ∀ fault, P (.invalidEntity fault))
    (h : ∀ step ∈ steps, b.Admits step.entity P) : Refuses P (b.batchBody steps) := by
  have hsteps : Refuses P (steps.zipIdx.mapM fun p =>
      b.stepBody (b.keyVariables steps) p.1 p.2) :=
    .mapM fun _ hm => (h _ (List.fst_mem_of_mem_zipIdx hm)).stepBody
  unfold Builder.batchBody
  split
  · exact .bind (.error (hentity _)) fun _ hgiven => absurd hgiven (by simp)
  · exact .bind (.of_entity hentity) fun _ _ => .bind hsteps fun _ _ => .ok _

end Admits

/-! ## Requests -/

/-- **What is marked in a body was written with keys that a field was given.** -/
theorem exists_keysFor {r : Request} {sql : Sql} (h : b.body r = .ok sql)
    (hn : sql.needsKey = true) : ∃ f keys, b.keysFor f = .ok keys := by
  obtain ⟨_, _, _, f, hf, ⟨hreads, _, _⟩ | ⟨keys, _, hk, _, _⟩⟩ := exists_keyed_infix h hn
  · -- a field that is read was given keys before its column was decrypted
    obtain ⟨operand, hoperand, _⟩ := reads_body hreads h
    rcases readField_eq_ok.1 hoperand with ⟨hplain, _⟩ | ⟨_, hd, hk, _⟩
    · exact absurd hf hplain
    · obtain ⟨keys, hk⟩ := Option.isSome_iff_exists.1 hk
      exact ⟨f, keys, keysFor_eq_ok.2 ⟨hd, hk⟩⟩
  · exact ⟨f, keys, hk⟩

/-- **A body can always be finished.** -/
theorem exists_finish_body {r : Request} {sql : Sql} (h : b.body r = .ok sql) :
    ∃ s, b.finish sql = .ok s := by
  cases hn : sql.needsKey with
  | false => exact ⟨_, finish_eq_ok.2 (.inl ⟨hn, rfl⟩)⟩
  | true =>
    obtain ⟨f, keys, hk⟩ := exists_keysFor h hn
    exact (equipped_of_keysFor hk).finish sql

variable {r : Request}

/-- The kinds of refusals admit all that goes wrong with one of the entities. -/
theorem admits_warrants (he : e ∈ r.entities) : b.Admits e (r.Warrants b) := by
  refine ⟨.entity, fun f hf hencrypted => ?_⟩
  unfold keysFor
  cases hd : b.dialect with
  | oracle => exact .error (.dialect he hf hencrypted hd)
  | sqlServer =>
    cases hk : b.config.encryption with
    | none => exact .error (.keys he hf hencrypted hd hk)
    | some keys => exact .ok keys

theorem refuses_warranted_body : Refuses (r.Warrants b) (b.body r) := by
  have hone : ∀ {e : Entity}, e ∈ r.entities → b.Admits e (r.Warrants b) := admits_warrants
  cases r with
  | select e l =>
    exact (hone (List.mem_singleton_self e)).selectBody fun hl _ => .filter hl
  | count e l =>
    exact (hone (List.mem_singleton_self e)).countBody fun hl _ => .filter hl
  | selectByKey e => exact (hone (List.mem_singleton_self e)).selectByKeyBody
  | selectByExample e combinator =>
    exact (hone (List.mem_singleton_self e)).selectByExampleBody (fun _ => .filter trivial) _
  | insert e => exact (hone (List.mem_singleton_self e)).insertBody _
  | update e => exact (hone (List.mem_singleton_self e)).updateBody _
  | updateProperties e names => exact (hone (List.mem_singleton_self e)).updateBody _
  | delete e => exact refuses_deleteBody .entity
  | aggregate e a source =>
    exact (hone (List.mem_singleton_self e)).aggregateBody (fun _ => .filter trivial) a source
  | batch steps => exact Admits.batchBody .entity fun step hm => hone (List.mem_map_of_mem hm)

/-- **Every refusal is of a kind that its request gives reason for.** Requests without conditions
of their own are never refused for a filter. Encryption stops a request at an encrypted field of one
of its entities, which the refusal names: on Oracle because there is none, on SQL Server when the
settings have no keys. Once a field was given keys, nothing that is done with them is refused, and
every body can be finished. -/
theorem refused_run (b : Builder) (r : Request) :
    (∀ err, b.run r = .error err → r.Warrants b err) ∧
      (∀ f keys, b.keysFor f = .ok keys → b.Equipped keys) ∧
      ∀ sql, b.body r = .ok sql → ∃ s, b.finish sql = .ok s := by
  have hfinished : ∀ sql, b.body r = .ok sql → Refuses (r.Warrants b) (b.finish sql) := by
    intro sql hbody
    obtain ⟨s, hs⟩ := exists_finish_body hbody
    rw [hs]
    exact .ok s
  have hbuild : ∀ e, Refuses (r.Warrants b) (b.build e (b.body r)) := fun e =>
    .bind (.of_entity .entity) fun _ _ => .bind refuses_warranted_body hfinished
  have hrun : Refuses (r.Warrants b) (b.run r) := by
    cases r with
    | batch steps => exact .bind refuses_warranted_body hfinished
    | select e _ | count e _ | selectByKey e | selectByExample e _ | insert e | update e
    | updateProperties e _ | delete e | aggregate e _ _ => exact hbuild e
  exact ⟨hrun, fun _ _ => equipped_of_keysFor, fun _ => exists_finish_body⟩

theorem refused_run_note :
    (ofConfig (.new .oracle)).run (.insert note) =
        .error (.unsupported .oracle (.column "Body")) ∧
      (Request.insert note).Warrants (ofConfig (.new .oracle))
        (.unsupported .oracle (.column "Body")) ∧
      Builder.default.run (.insert note) = .error (.keysMissing (some "Body")) ∧
      (Request.insert note).Warrants Builder.default (.keysMissing (some "Body")) ∧
      noteBuilder.Equipped ⟨"NoteKey", "NoteCertificate"⟩ ∧
      ∃ sql s, noteBuilder.body (.insert note) = .ok sql ∧ sql.needsKey = true ∧
        noteBuilder.finish sql = .ok s := by
  have horacle : (ofConfig (.new .oracle)).run (.insert note) =
      .error (.unsupported .oracle (.column "Body")) := rfl
  have hdefault : Builder.default.run (.insert note) = .error (.keysMissing (some "Body")) := rfl
  obtain ⟨sql, hbody, hneeds⟩ :
      ∃ sql, noteBuilder.body (.insert note) = .ok sql ∧ sql.needsKey = true := ⟨_, rfl, rfl⟩
  obtain ⟨_, hkeys, hfinish⟩ := refused_run noteBuilder (.insert note)
  obtain ⟨s, hs⟩ := hfinish sql hbody
  exact ⟨horacle, (refused_run _ _).1 _ horacle, hdefault, (refused_run _ _).1 _ hdefault,
    hkeys (.new "Body" .encrypted) _ rfl, sql, s, hbody, hneeds, hs⟩

end Builder

end RecordSql
