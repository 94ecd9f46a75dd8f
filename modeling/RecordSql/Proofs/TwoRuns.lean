import RecordSql.Proofs.SideBySide

/-!
# Values never reach the text

The guarantee against injection relates two runs. Take two requests about the same metadata whose
values differ in any way that keeps their **shape**: a value where there was one, the current time
where it was asked for, a search of the same form. If both are answered, the answers have the same
text, and parameters that differ in nothing but their values.

The shape is all that a builder looks at before it binds a value. So requests of one shape are
paired, under a likeness that lets values differ: what is written on both sides is the same under
the mask.
-/

namespace RecordSql

open Checked

/-! ## Requests of one shape -/

namespace Entity

/-- Values that are written in the same way. The value of a key is not looked at. -/
structure WritesAlike (e e' : Entity) : Prop extends SameTable e e' where
  present : ∀ f ∈ e.fields, f.isKey = false →
    (e.present? f.name).isSome = (e'.present? f.name).isSome
  currentTime : ∀ f ∈ e.fields, f.isKey = false → f.dataType.isTemporal = true →
    (e.present? f.name).any isCurrentTime = (e'.present? f.name).any isCurrentTime

/-- Values that ask for searches of the same shape. -/
structure SearchesAlike (e e' : Entity) : Prop extends SameTable e e' where
  shape : ∀ f ∈ e.fields, ∀ p p', Builder.examplePredicate e f = .ok p →
    Builder.examplePredicate e' f = .ok p' → p.map Predicate.shape = p'.map Predicate.shape

end Entity

/-- Sources of an aggregate with searches of one shape. -/
inductive AggregateSource.Alike (e e' : Entity) : AggregateSource → AggregateSource → Prop where
  | values (combinator : Combinator) : e.SearchesAlike e' →
      Alike e e' (.example combinator) (.example combinator)
  | listing {l l' : Listing} : e.SameTable e' → l.Alike e l' →
      Alike e e' (.listing l) (.listing l')

/-- Steps of a batch that write in the same way; a delete looks at no value but the key's. -/
structure BatchStep.Alike (step step' : BatchStep) : Prop where
  operation : step.operation = step'.operation
  links : step.links = step'.links
  table : step.entity.SameTable step'.entity
  values : step.operation ≠ .delete → step.entity.WritesAlike step'.entity

/-- Requests of one shape. -/
inductive Request.Alike : Request → Request → Prop where
  | select {e e' : Entity} {l l' : Option Listing} : e.SameTable e' →
      Option.Rel (Listing.Alike e) l l' → Alike (.select e l) (.select e' l')
  | count {e e' : Entity} {l l' : Option Listing} : e.SameTable e' →
      Option.Rel (Listing.Alike e) l l' → Alike (.count e l) (.count e' l')
  | selectByKey {e e' : Entity} : e.SameTable e' → Alike (.selectByKey e) (.selectByKey e')
  | selectByExample {e e' : Entity} (combinator : Combinator) : e.SearchesAlike e' →
      Alike (.selectByExample e combinator) (.selectByExample e' combinator)
  | insert {e e' : Entity} : e.WritesAlike e' → Alike (.insert e) (.insert e')
  | update {e e' : Entity} : e.WritesAlike e' → Alike (.update e) (.update e')
  | updateProperties {e e' : Entity} (names : List String) : e.WritesAlike e' →
      Alike (.updateProperties e names) (.updateProperties e' names)
  | delete {e e' : Entity} : e.SameTable e' → Alike (.delete e) (.delete e')
  | aggregate {e e' : Entity} {a a' : Aggregation} {source source' : AggregateSource} :
      a.Alike a' → e.SameTable e' → source.Alike e e' source' →
      Alike (.aggregate e a source) (.aggregate e' a' source')
  | batch {steps steps' : List BatchStep} : List.Forall₂ BatchStep.Alike steps steps' →
      Alike (.batch steps) (.batch steps')

/-! ## Likeness under the mask -/

/-- Statements that are the same but for their values stay so when they are put together. -/
theorem Sql.congruence_masked : Sql.Congruence fun sql sql' => sql.masked = sql'.masked where
  refl _ := rfl
  append h hrest := by rw [masked_append, masked_append, h, hrest]

/-- A builder writes requests of one shape alike, if it writes them. -/
def Likeness.ofShape (b : Builder) : Likeness b b :=
  .ofCongruence b True Sql.congruence_masked fun _ _ _ h => h

section Values

variable {e e' : Entity} {f : Field}

/-- A field to write has no value in both runs, or one in both that asks for the current time in
both or in neither. -/
theorem Entity.WritesAlike.takes (h : e.WritesAlike e') (hf : f ∈ e.fields)
    (hk : f.isKey = false) :
    Option.Rel (f.Takes True) (e.present? f.name) (e'.present? f.name) := by
  have hp := h.present f hf hk
  have ht := h.currentTime f hf hk
  generalize e.present? f.name = o, e'.present? f.name = o' at hp ht
  cases o with
  | none =>
    cases o' with
    | none => exact .none
    | some v' => exact absurd hp (by simp)
  | some v =>
    cases o' with
    | none => exact absurd hp (by simp)
    | some v' => exact .some (.of_loose trivial ht)

/-- The default stands in for the value in both runs, or in neither. -/
theorem Entity.WritesAlike.insertsLike (h : e.WritesAlike e') (linked : List String) :
    e.InsertsLike True id linked e' := by
  intro f hf _
  obtain ⟨hm, hinsert⟩ := List.mem_filter.1 hf
  rw [Bool.and_eq_true, Bool.not_eq_true'] at hinsert
  have htakes := h.takes hm hinsert.2
  show Option.Rel _ ((e.present? f.name).or f.default) ((e'.present? f.name).or f.default)
  generalize e.present? f.name = o, e'.present? f.name = o' at htakes
  cases htakes with
  | some hv => exact .some hv
  | none =>
    cases f.default with
    | none => exact .none
    | some json => exact .some (.refl fun _ => rfl)

theorem Entity.WritesAlike.updatesLike (h : e.WritesAlike e') (names : Option (List String))
    (linked : List String) : e.UpdatesLike True names linked e' := by
  intro f hf _
  obtain ⟨hm, hupdate⟩ := List.mem_filter.1 (List.mem_of_mem_filter hf)
  rw [Bool.and_eq_true, Bool.not_eq_true'] at hupdate
  exact h.takes hm hupdate.2

theorem Entity.SearchesAlike.searchesLike (h : e.SearchesAlike e') : e.SearchesLike True e' :=
  fun f hf => .of_loose trivial fun _ _ hp hp' =>
    Varies.option (Predicate.oneShape_of_map (h.shape f hf _ _ hp hp')) fun hs => absurd trivial hs

end Values

/-- A delete looks at the value of its key, which may vary. -/
theorem BatchStep.Alike.stepLike {step step' : BatchStep} (h : step.Alike step') (b : Builder) :
    (Likeness.ofShape b).StepLike step step' := by
  obtain ⟨operation, e, links⟩ := step
  obtain ⟨operation', e', links'⟩ := step'
  obtain ⟨hoperation, hlinks, htable, hvalues⟩ := h
  dsimp only at hoperation hlinks htable hvalues
  subst hoperation hlinks
  obtain ⟨values, rfl⟩ := htable.exists_refilled
  refine .mk id values (.inl rfl) (fun ho => ?_) (fun ho => ?_) fun _ hs => absurd trivial hs
  · exact (hvalues fun hd => nomatch ho.symm.trans hd).insertsLike _
  · exact (hvalues fun hd => nomatch ho.symm.trans hd).updatesLike _ _

/-- Requests of one shape look at the same metadata, and at values that are written alike. -/
theorem Request.Alike.paired {r r' : Request} (h : r.Alike r') (b : Builder) :
    Request.Paired (.ofShape b) r r' := by
  have hr : ∀ e, b.ReadsAlike b e := fun _ => .inl rfl
  have hkey : ∀ e e' : Entity, e.KeyLike True [] e' := fun _ _ hs => absurd trivial hs
  have hlisting : ∀ {e : Entity} {l l' : Option Listing}, Option.Rel (Listing.Alike e) l l' →
      Option.Rel (Varies True (Listing.Alike e)) l l' := by
    intro e l l' hl
    cases hl with
    | none => exact .none
    | some hl => exact .some (.of_loose trivial hl)
  cases h with
  | select ht hl =>
    obtain ⟨values, rfl⟩ := ht.exists_refilled
    exact .select id values (hr _) (hlisting hl)
  | count ht hl =>
    obtain ⟨values, rfl⟩ := ht.exists_refilled
    exact .count id values (hr _) (hlisting hl)
  | selectByKey ht =>
    obtain ⟨values, rfl⟩ := ht.exists_refilled
    exact .selectByKey id values (hr _) (hkey _ _)
  | selectByExample combinator hs =>
    have hlike := hs.searchesLike
    obtain ⟨values, rfl⟩ := hs.toSameTable.exists_refilled
    exact .selectByExample id values combinator (hr _) hlike
  | insert hw =>
    have hlike := hw.insertsLike []
    obtain ⟨values, rfl⟩ := hw.toSameTable.exists_refilled
    exact .insert id values (hr _) hlike
  | update hw =>
    have hlike := hw.updatesLike none []
    obtain ⟨values, rfl⟩ := hw.toSameTable.exists_refilled
    exact .update id values (hr _) (hkey _ _) hlike
  | updateProperties names hw =>
    have hlike := hw.updatesLike (some names) []
    obtain ⟨values, rfl⟩ := hw.toSameTable.exists_refilled
    exact .updateProperties id values names (hr _) (hkey _ _) hlike
  | delete ht =>
    obtain ⟨values, rfl⟩ := ht.exists_refilled
    exact .delete id values (hkey _ _)
  | aggregate ha ht hs =>
    cases hs with
    | values combinator hs =>
      have hlike := hs.searchesLike
      obtain ⟨values, rfl⟩ := ht.exists_refilled
      exact .aggregate id values (hr _) (.of_loose trivial ha) (.example combinator hlike)
    | listing ht hl =>
      obtain ⟨values, rfl⟩ := ht.exists_refilled
      exact .aggregate id values (hr _) (.of_loose trivial ha)
        (.listing (.of_loose trivial hl))
  | batch hs => exact .batch (hs.imp fun _ _ hstep => hstep.stepLike b)

namespace Builder

variable {b : Builder} {sql sql' : Sql}

/-! ## Answers of one shape -/

/-- The key is opened in both runs or in neither, and with the same text. -/
theorem finish_alike {s s' : Statement} (hm : sql.masked = sql'.masked)
    (h : b.finish sql = .ok s) (h' : b.finish sql' = .ok s') :
    s.sql.masked = s'.sql.masked ∧ s.style = s'.style := by
  have hneeds : sql.needsKey = sql'.needsKey := by
    rw [← Sql.needsKey_masked, hm, Sql.needsKey_masked]
  rcases finish_eq_ok.1 h with ⟨hn, rfl⟩ | ⟨hn, keys, hk, wrapped, hw, rfl⟩
  · rcases finish_eq_ok.1 h' with ⟨_, rfl⟩ | ⟨hn', _⟩
    · exact ⟨hm, rfl⟩
    · rw [← hneeds, hn] at hn'
      exact absurd hn' (by simp)
  · rcases finish_eq_ok.1 h' with ⟨hn', _⟩ | ⟨_, keys', hk', wrapped', hw', rfl⟩
    · rw [← hneeds, hn] at hn'
      exact absurd hn' (by simp)
    · rw [← Option.some.inj (hk.symm.trans hk')] at hw'
      exact ⟨Dialect.masked_withKeys hm hw hw', rfl⟩

/--
**Values never reach the text.**

Two answered requests of one shape have the same text, and their parameters agree in number, in
name, in type, in being a search for a part and in direction.
-/
theorem run_alike {r r' : Request} {s s' : Statement} (ha : r.Alike r') (h : b.run r = .ok s)
    (h' : b.run r' = .ok s') :
    s.text = s'.text ∧
      s.parameters.map Parameter.outline = s'.parameters.map Parameter.outline := by
  rw [run_eq_finish, bind_eq_ok] at h h'
  obtain ⟨sql, hbody, hf⟩ := h
  obtain ⟨sql', hbody', hf'⟩ := h'
  have hlike := (Likeness.ofShape b).checkedBody_alike (ha.paired b)
  obtain ⟨hm, hstyle⟩ := finish_alike (hlike.related hbody hbody') hf hf'
  unfold Statement.text Statement.parameters
  rw [hstyle]
  exact Sql.write_eq_of_masked _ hm

/-- One record of a table, with a name to fill in. -/
def staffNamed (name : String) : Entity where
  table := "Staff"
  fields := [{ Field.new "Id" .integer with isKey := true }, Field.new "Name" .text]
  properties := ⟨[("Id", .number (.ofUInt64 7)), ("Name", .string name)], by simp⟩

theorem run_alike_staffNamed :
    ∃ s s', Builder.default.run (.update (staffNamed "Ann")) = .ok s ∧
      Builder.default.run (.update (staffNamed "' OR 1 = 1 --")) = .ok s' ∧ s.text = s'.text := by
  have ha : (Request.update (staffNamed "Ann")).Alike (.update (staffNamed "' OR 1 = 1 --")) :=
    .update ⟨⟨rfl, rfl⟩, by decide, by decide⟩
  exact ⟨_, _, rfl, rfl, (run_alike (b := .default) ha rfl rfl).1⟩

end Builder

end RecordSql
