import RecordSql.Proofs.SideBySide

/-!
# Who looks at the default of a field

A field has a default for inserts, and only for those: a listing, an update and a check of the
entity read names, types and flags, and never the default. So the defaults of an entity can be
changed in any way, and every request but an insert has the answer that it had.

An insert looks at the default of a field that may be inserted, is no key, is not linked and has no
value of its own. These fields are **defaulted**. A change that keeps their defaults goes unnoticed
by inserts as well, on their own and in batches.

Requests about changed entities are paired with those about the entities as they were, under any
likeness, so each builder writes the same for both.
-/

namespace RecordSql

open Checked

/-! ## Changed defaults -/

/-- The step with the defaults of its entity changed. -/
def BatchStep.mapDefaults (change : Option Json → Option Json) (step : BatchStep) : BatchStep :=
  { step with entity := step.entity.mapDefaults change }

/-- The request about entities with changed defaults. -/
def Request.mapDefaults (change : Option Json → Option Json) : Request → Request
  | .select e l => .select (e.mapDefaults change) l
  | .count e l => .count (e.mapDefaults change) l
  | .selectByKey e => .selectByKey (e.mapDefaults change)
  | .selectByExample e combinator => .selectByExample (e.mapDefaults change) combinator
  | .insert e => .insert (e.mapDefaults change)
  | .update e => .update (e.mapDefaults change)
  | .updateProperties e names => .updateProperties (e.mapDefaults change) names
  | .delete e => .delete (e.mapDefaults change)
  | .aggregate e a source => .aggregate (e.mapDefaults change) a source
  | .batch steps => .batch (steps.map (BatchStep.mapDefaults change))

/-- Defaults may stay as they are. -/
theorem Request.mapDefaults_id (r : Request) : r.mapDefaults id = r := by
  have hentity : ∀ e : Entity, e.mapDefaults id = e := fun e =>
    (e.mapDefaults_eq id).trans (e.refilled_id e.properties)
  have hstep : BatchStep.mapDefaults id = id := by
    funext step
    unfold BatchStep.mapDefaults
    rw [hentity, id]
  cases r with
  | batch steps => rw [mapDefaults, hstep, List.map_id]
  | _ => rw [mapDefaults, hentity]

/-! ## Defaulted fields -/

/-- The fields that an insert gives their defaults: those without a link and without a value. -/
def Entity.defaulted (e : Entity) (linked : List String) : List Field :=
  (Builder.insertFields e).filter fun f =>
    !linked.contains f.name && (e.present? f.name).isNone

/-- The fields that a step of a batch gives their defaults. -/
def BatchStep.defaulted (step : BatchStep) : List Field :=
  match step.operation with
  | .insert => step.entity.defaulted (step.links.map KeyLink.field)
  | _ => []

/-- The fields that a request gives their defaults. -/
def Request.defaulted : Request → List Field
  | .insert e => e.defaulted []
  | .batch steps => steps.flatMap BatchStep.defaulted
  | _ => []

theorem Entity.mem_defaulted {e : Entity} {linked : List String} {f : Field} :
    f ∈ e.defaulted linked ↔
      f ∈ Builder.insertFields e ∧ f.name ∉ linked ∧ e.present? f.name = none := by
  unfold defaulted
  simp [List.mem_filter]

/-! ## Answers under other defaults -/

variable (change : Option Json → Option Json)

/-- **An insert looks at the defaults of defaulted fields, and at no others.** -/
theorem Entity.insertsLike_mapDefaults {loose : Prop} {e : Entity} {linked : List String}
    (h : ∀ f ∈ e.defaulted linked, change f.default = f.default) :
    e.InsertsLike loose change linked (e.mapDefaults change) := by
  intro f hf hn
  have hvalue : Builder.insertValue? (e.mapDefaults change) (f.mapDefault change) =
      Builder.insertValue? e f := by
    show (e.present? f.name).or (change f.default) = (e.present? f.name).or f.default
    cases hp : e.present? f.name with
    | none => rw [h f (Entity.mem_defaulted.2 ⟨hf, hn, hp⟩)]
    | some json => rfl
  rw [hvalue]
  exact f.takes_refl _

variable {b b' : Builder} (L : Likeness b b')

theorem BatchStep.stepLike_mapDefaults {step : BatchStep} (hr : b.ReadsAlike b' step.entity)
    (h : ∀ f ∈ step.defaulted, change f.default = f.default) :
    L.StepLike step (step.mapDefaults change) := by
  obtain ⟨operation, e, links⟩ := step
  refine .mk change e.properties hr ?_ (fun _ f _ _ => f.takes_refl _) fun _ _ _ _ _ => rfl
  rintro rfl
  exact Entity.insertsLike_mapDefaults change h

/-- **A request is paired with the one about changed entities**, if the fields that it gives their
defaults keep them. -/
theorem Request.paired_mapDefaults {r : Request} (hr : ∀ e ∈ r.entities, b.ReadsAlike b' e)
    (h : ∀ f ∈ r.defaulted, change f.default = f.default) :
    Paired L r (r.mapDefaults change) := by
  have hkey : ∀ e : Entity, e.KeyLike L.loose [] (e.mapDefaults change) := fun _ _ _ _ _ => rfl
  have hsearches : ∀ e : Entity, e.SearchesLike L.loose (e.mapDefaults change) := fun _ =>
    Entity.searchesLike_of_value fun _ _ => rfl
  have hupdates : ∀ (e : Entity) (names : Option (List String)),
      e.UpdatesLike L.loose names [] (e.mapDefaults change) := fun _ _ f _ _ => f.takes_refl _
  cases r with
  | select e l =>
    exact .select change e.properties (hr e List.mem_cons_self) (Listing.varies_refl e l)
  | count e l =>
    exact .count change e.properties (hr e List.mem_cons_self) (Listing.varies_refl e l)
  | selectByKey e => exact .selectByKey change e.properties (hr e List.mem_cons_self) (hkey e)
  | selectByExample e combinator =>
    exact .selectByExample change e.properties combinator (hr e List.mem_cons_self) (hsearches e)
  | insert e =>
    exact .insert change e.properties (hr e List.mem_cons_self)
      (Entity.insertsLike_mapDefaults change h)
  | update e =>
    exact .update change e.properties (hr e List.mem_cons_self) (hkey e) (hupdates e none)
  | updateProperties e names =>
    exact .updateProperties change e.properties names (hr e List.mem_cons_self) (hkey e)
      (hupdates e (some names))
  | delete e => exact .delete change e.properties (hkey e)
  | aggregate e a source =>
    refine .aggregate change e.properties (hr e List.mem_cons_self) (.refl (.refl a)) ?_
    cases source with
    | «example» combinator => exact .example combinator (hsearches e)
    | listing l => exact .listing (.refl (.refl e l))
  | batch steps =>
    refine .batch (List.forall₂_map_right_iff.2 (List.forall₂_same.2 fun step hstep => ?_))
    exact step.stepLike_mapDefaults change L (hr _ (List.mem_map_of_mem hstep)) fun f hf =>
      h f (List.mem_flatMap.2 ⟨step, hstep, hf⟩)

namespace Builder

/-- A step has the same statement under other defaults, if its defaulted fields keep theirs. -/
theorem stepBody_mapDefaults {steps : List BatchStep} {step : BatchStep} {i : Nat}
    (hback : ∀ link ∈ step.links, LeadsBack steps i link)
    (h : ∀ f ∈ step.defaulted, change f.default = f.default) :
    b.stepBody (b.keyVariables steps) (step.mapDefaults change) i =
      b.stepBody (b.keyVariables steps) step i := by
  have hkeyed : KeyVariables.Like Eq (b.keyVariables steps) (b.keyVariables steps) :=
    List.forall₂_same.2 fun _ _ => ⟨rfl, rfl⟩
  have hlike := step.stepLike_mapDefaults change (.same b) (.inl rfl) h
  exact (((Likeness.same b).stepBody_alike hlike hkeyed hback).agree not_false).eq.symm

/-- **Only the defaults of defaulted fields are looked at.** A request about entities with other
defaults has the same answer, as long as the fields that it gives their defaults keep them. -/
theorem run_mapDefaults {r : Request} (h : ∀ f ∈ r.defaulted, change f.default = f.default) :
    b.run (r.mapDefaults change) = b.run r := by
  have hpaired := Request.paired_mapDefaults change (.same b) (fun _ _ => .inl rfl) h
  have hbody : b.checkedBody r = b.checkedBody (r.mapDefaults change) :=
    (((Likeness.same b).checkedBody_alike hpaired).agree not_false).eq
  rw [run_eq_finish, run_eq_finish, hbody]

end Builder

end RecordSql
