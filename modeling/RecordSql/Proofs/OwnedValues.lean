import RecordSql.Proofs.SideBySide

/-!
# The values that an operation owns

A record carries values for all of its fields, and for names that belong to no field at all. Every
operation **owns** some of them, and nothing else of the record can be seen in its answer: take two
records of one table whose values agree on the names that are owned, and they get the same statement
or the same refusal, whatever stands under the other names.

* A listing, a count and an aggregate over a listing own nothing.
* What picks a row by its key owns the value of the key.
* An insert owns the insertable fields, an update the key and the updatable ones that it is asked to
  set. Neither owns a key that it writes.
* An example owns every field.
* A step of a batch owns what its operation does, less the fields that it links.

A builder is compared with itself on the other record: under the likeness that allows no difference,
the two requests are paired, since what is owned is all that a builder looks at.
-/

namespace RecordSql

open Checked

/-! ## Owned names -/

namespace Entity

/-- Records of one table whose values agree on some names. -/
structure AgreesOn (e : Entity) (owned : String → Prop) (e' : Entity) : Prop
    extends SameTable e e' where
  value : ∀ name, owned name → e.value? name = e'.value? name

/-- The name of the key. -/
def NamesKey (e : Entity) (name : String) : Prop := ∃ key, e.key? = some key ∧ key.name = name

/-- The name of a field. -/
def NamesField (e : Entity) (name : String) : Prop := ∃ f ∈ e.fields, f.name = name

/-- The name of a field that an insert may fill. -/
def NamesInsertable (e : Entity) (name : String) : Prop :=
  ∃ f ∈ e.fields, f.insertable = true ∧ f.isKey = false ∧ f.name = name

/-- The name of a field that an update may set. -/
def NamesUpdatable (e : Entity) (name : String) : Prop :=
  ∃ f ∈ e.fields, f.updatable = true ∧ f.isKey = false ∧ f.name = name

/-- The names that an operation owns. -/
def Owns (e : Entity) : BatchOperation → String → Prop
  | .insert, name => e.NamesInsertable name
  | .update, name => e.NamesKey name ∨ e.NamesUpdatable name
  | .delete, name => e.NamesKey name

end Entity

/-- Steps of one kind with one set of links, whose records agree on what the operation owns and the
step does not link. -/
structure BatchStep.AgreesOnOwned (step step' : BatchStep) : Prop where
  operation : step.operation = step'.operation
  links : step.links = step'.links
  entity : step.entity.AgreesOn
    (fun name => step.entity.Owns step.operation name ∧ ∀ link ∈ step.links, link.field ≠ name)
    step'.entity

/-- Requests that are the same but for values that they do not own. -/
inductive Request.AgreesOnOwned : Request → Request → Prop where
  | select {e e' : Entity} (l : Option Listing) : e.SameTable e' →
      AgreesOnOwned (.select e l) (.select e' l)
  | count {e e' : Entity} (l : Option Listing) : e.SameTable e' →
      AgreesOnOwned (.count e l) (.count e' l)
  | selectByKey {e e' : Entity} : e.AgreesOn e.NamesKey e' →
      AgreesOnOwned (.selectByKey e) (.selectByKey e')
  | selectByExample {e e' : Entity} (combinator : Combinator) : e.AgreesOn e.NamesField e' →
      AgreesOnOwned (.selectByExample e combinator) (.selectByExample e' combinator)
  | insert {e e' : Entity} : e.AgreesOn (e.Owns .insert) e' →
      AgreesOnOwned (.insert e) (.insert e')
  | update {e e' : Entity} : e.AgreesOn (e.Owns .update) e' →
      AgreesOnOwned (.update e) (.update e')
  | updateProperties {e e' : Entity} (names : List String) :
      e.AgreesOn (fun name => e.NamesKey name ∨ (e.NamesUpdatable name ∧ name ∈ names)) e' →
      AgreesOnOwned (.updateProperties e names) (.updateProperties e' names)
  | delete {e e' : Entity} : e.AgreesOn (e.Owns .delete) e' →
      AgreesOnOwned (.delete e) (.delete e')
  | aggregateListing {e e' : Entity} (a : Aggregation) (l : Listing) : e.SameTable e' →
      AgreesOnOwned (.aggregate e a (.listing l)) (.aggregate e' a (.listing l))
  | aggregateExample {e e' : Entity} (a : Aggregation) (combinator : Combinator) :
      e.AgreesOn e.NamesField e' →
      AgreesOnOwned (.aggregate e a (.example combinator)) (.aggregate e' a (.example combinator))
  | batch {steps steps' : List BatchStep} : List.Forall₂ BatchStep.AgreesOnOwned steps steps' →
      AgreesOnOwned (.batch steps) (.batch steps')

/-- The request with one more property, or another value for it, in each of its records. -/
def Request.setProperty (name : String) (value : Json) : Request → Request
  | .select e l => .select (e.set name value) l
  | .count e l => .count (e.set name value) l
  | .selectByKey e => .selectByKey (e.set name value)
  | .selectByExample e combinator => .selectByExample (e.set name value) combinator
  | .insert e => .insert (e.set name value)
  | .update e => .update (e.set name value)
  | .updateProperties e names => .updateProperties (e.set name value) names
  | .delete e => .delete (e.set name value)
  | .aggregate e a source => .aggregate (e.set name value) a source
  | .batch steps =>
    .batch (steps.map fun step => { step with entity := step.entity.set name value })

/-! ## Properties -/

theorem lookup_setEntry_of_ne {name other : String} (hne : other ≠ name) (value : Json)
    (entries : List (String × Json)) :
    (setEntry name value entries).lookup other = entries.lookup other := by
  induction entries with
  | nil => simp [setEntry, List.lookup_cons, beq_false_of_ne hne]
  | cons entry rest ih =>
    obtain ⟨n, v⟩ := entry
    rw [setEntry]
    split
    · next hn =>
      subst hn
      rw [List.lookup_cons, List.lookup_cons, beq_false_of_ne hne]
    · rw [List.lookup_cons, List.lookup_cons, ih]

namespace Entity

variable {e e' : Entity} {owned : String → Prop}

theorem value?_set_of_ne {name other : String} (hne : other ≠ name) (value : Json) :
    (e.set name value).value? other = e.value? other :=
  lookup_setEntry_of_ne hne value e.properties.entries

theorem present?_congr {name : String} (h : e.value? name = e'.value? name) :
    e.present? name = e'.present? name := by
  rw [present?, h, present?]

/-- A record with another property in place agrees with itself on every other name. -/
theorem agreesOn_set {name : String} (value : Json) (h : ¬ owned name) :
    e.AgreesOn owned (e.set name value) :=
  { table := rfl
    fields := rfl
    value := fun other hother => by
      have hne : other ≠ name := fun he => h (he ▸ hother)
      exact (value?_set_of_ne hne value).symm }

/-- What is owned is the value of a field. -/
theorem namesField_of_key {name : String} (h : e.NamesKey name) : e.NamesField name := by
  obtain ⟨key, hkey, hname⟩ := h
  exact ⟨key, mem_fields_of_key? hkey, hname⟩

theorem namesField_of_owns {operation : BatchOperation} {name : String}
    (h : e.Owns operation name) : e.NamesField name := by
  have hinsert : e.NamesInsertable name → e.NamesField name := fun ⟨f, hf, _, _, hn⟩ => ⟨f, hf, hn⟩
  have hupdate : e.NamesUpdatable name → e.NamesField name := fun ⟨f, hf, _, _, hn⟩ => ⟨f, hf, hn⟩
  cases operation with
  | insert => exact hinsert h
  | update => exact h.elim namesField_of_key hupdate
  | delete => exact namesField_of_key h

theorem namesInsertable_of_mem {f : Field} (hf : f ∈ Builder.insertFields e) :
    e.NamesInsertable f.name := by
  obtain ⟨hf, hinsert⟩ := List.mem_filter.1 hf
  rw [Bool.and_eq_true, Bool.not_eq_true'] at hinsert
  exact ⟨f, hf, hinsert.1, hinsert.2, rfl⟩

theorem namesUpdatable_of_mem {names : Option (List String)} {f : Field}
    (hf : f ∈ Builder.updateFields e names) :
    e.NamesUpdatable f.name ∧ ∀ chosen, names = some chosen → f.name ∈ chosen := by
  obtain ⟨hf, hchosen⟩ := List.mem_filter.1 hf
  obtain ⟨hf, hupdate⟩ := List.mem_filter.1 hf
  rw [Bool.and_eq_true, Bool.not_eq_true'] at hupdate
  refine ⟨⟨f, hf, hupdate.1, hupdate.2, rfl⟩, ?_⟩
  rintro chosen rfl
  exact List.contains_iff_mem.1 hchosen

/-! ## Values alike -/

variable {linked : List String}

theorem keyLike_of_value (h : ∀ name, e.NamesKey name → name ∉ linked →
    e.value? name = e'.value? name) : e.KeyLike False linked e' :=
  fun _ key hkey hn => present?_congr (h key.name ⟨key, hkey, rfl⟩ hn)

theorem insertsLike_of_value (h : ∀ name, e.NamesInsertable name → name ∉ linked →
    e.value? name = e'.value? name) : e.InsertsLike False id linked e' := by
  intro f hf hn
  have hvalue : Builder.insertValue? e f = Builder.insertValue? e' (f.mapDefault id) := by
    unfold Builder.insertValue?
    rw [present?_congr (h f.name (namesInsertable_of_mem hf) hn)]
    rfl
  exact hvalue ▸ Field.takes_refl f _

theorem updatesLike_of_value {names : Option (List String)}
    (h : ∀ name, e.NamesUpdatable name → (∀ chosen, names = some chosen → name ∈ chosen) →
      name ∉ linked → e.value? name = e'.value? name) :
    e.UpdatesLike False names linked e' := by
  intro f hf hn
  obtain ⟨hupdate, hchosen⟩ := namesUpdatable_of_mem hf
  exact present?_congr (h f.name hupdate hchosen hn) ▸ Field.takes_refl f _

end Entity

/-- Steps that agree on what they own write like values to what they do not link. -/
theorem BatchStep.AgreesOnOwned.stepLike {step step' : BatchStep} (h : step.AgreesOnOwned step')
    (b : Builder) : (Likeness.same b).StepLike step step' := by
  obtain ⟨operation, e, links⟩ := step
  obtain ⟨operation', e', links'⟩ := step'
  obtain ⟨hoperation, hlinks, hentity⟩ := h
  dsimp only at hoperation hlinks hentity
  subst hoperation hlinks
  obtain ⟨values, rfl⟩ := hentity.toSameTable.exists_refilled
  have hvalue : ∀ name, e.Owns operation name → name ∉ links.map KeyLink.field →
      e.value? name = (e.refilled id values).value? name := fun name howned hn =>
    hentity.value name ⟨howned, fun link hlink hname => hn (List.mem_map.2 ⟨link, hlink, hname⟩)⟩
  refine .mk id values (.inl rfl) ?_ ?_ fun hop => Entity.keyLike_of_value fun name hkey =>
    hvalue name ?_
  · rintro rfl
    exact Entity.insertsLike_of_value hvalue
  · rintro rfl
    exact Entity.updatesLike_of_value fun name hupdate _ => hvalue name (.inr hupdate)
  · cases operation with
    | insert => exact absurd rfl hop
    | update => exact .inl hkey
    | delete => exact hkey

/-- **Requests that agree on what they own are paired**: a builder looks at nothing else. -/
theorem Request.AgreesOnOwned.paired {r r' : Request} (h : r.AgreesOnOwned r') (b : Builder) :
    Request.Paired (.same b) r r' := by
  have hr : ∀ e, b.ReadsAlike b e := fun _ => .inl rfl
  cases h with
  | select l ht =>
    obtain ⟨values, rfl⟩ := ht.exists_refilled
    exact .select id values (hr _) (Listing.varies_refl _ l)
  | count l ht =>
    obtain ⟨values, rfl⟩ := ht.exists_refilled
    exact .count id values (hr _) (Listing.varies_refl _ l)
  | selectByKey h =>
    obtain ⟨values, rfl⟩ := h.toSameTable.exists_refilled
    exact .selectByKey id values (hr _) (Entity.keyLike_of_value fun name hkey _ =>
      h.value name hkey)
  | selectByExample combinator h =>
    obtain ⟨values, rfl⟩ := h.toSameTable.exists_refilled
    exact .selectByExample id values combinator (hr _)
      (Entity.searchesLike_of_value fun f hf => h.value f.name ⟨f, hf, rfl⟩)
  | insert h =>
    obtain ⟨values, rfl⟩ := h.toSameTable.exists_refilled
    exact .insert id values (hr _) (Entity.insertsLike_of_value fun name hinsert _ =>
      h.value name hinsert)
  | update h =>
    obtain ⟨values, rfl⟩ := h.toSameTable.exists_refilled
    exact .update id values (hr _)
      (Entity.keyLike_of_value fun name hkey _ => h.value name (.inl hkey))
      (Entity.updatesLike_of_value fun name hupdate _ _ => h.value name (.inr hupdate))
  | updateProperties names h =>
    obtain ⟨values, rfl⟩ := h.toSameTable.exists_refilled
    exact .updateProperties id values names (hr _)
      (Entity.keyLike_of_value fun name hkey _ => h.value name (.inl hkey))
      (Entity.updatesLike_of_value fun name hupdate hchosen _ =>
        h.value name (.inr ⟨hupdate, hchosen names rfl⟩))
  | delete h =>
    obtain ⟨values, rfl⟩ := h.toSameTable.exists_refilled
    exact .delete id values (Entity.keyLike_of_value fun name hkey _ => h.value name hkey)
  | aggregateListing a l ht =>
    obtain ⟨values, rfl⟩ := ht.exists_refilled
    exact .aggregate id values (hr _) (.refl (.refl a)) (.listing (.refl (.refl _ l)))
  | aggregateExample a combinator h =>
    obtain ⟨values, rfl⟩ := h.toSameTable.exists_refilled
    exact .aggregate id values (hr _) (.refl (.refl a)) (.example combinator
      (Entity.searchesLike_of_value fun f hf => h.value f.name ⟨f, hf, rfl⟩))
  | batch h => exact .batch (h.imp fun _ _ hstep => hstep.stepLike b)

namespace Builder

variable {b : Builder}

/-! ## Answers under other values -/

/-- A request agrees with itself under another property, as long as no field has its name. -/
theorem agreesOnOwned_setProperty {r : Request} {name : String} (value : Json)
    (h : ∀ e ∈ r.entities, ¬ e.NamesField name) : r.AgreesOnOwned (r.setProperty name value) := by
  have hset : ∀ {e : Entity} {owned : String → Prop}, e ∈ r.entities →
      (owned name → e.NamesField name) → e.AgreesOn owned (e.set name value) :=
    fun he howned => Entity.agreesOn_set value fun hn => h _ he (howned hn)
  cases r with
  | select e l => exact .select l ⟨rfl, rfl⟩
  | count e l => exact .count l ⟨rfl, rfl⟩
  | selectByKey e =>
    exact .selectByKey (hset (List.mem_singleton_self e) Entity.namesField_of_key)
  | selectByExample e combinator =>
    exact .selectByExample combinator (hset (List.mem_singleton_self e) id)
  | insert e => exact .insert (hset (List.mem_singleton_self e) Entity.namesField_of_owns)
  | update e => exact .update (hset (List.mem_singleton_self e) Entity.namesField_of_owns)
  | updateProperties e names =>
    refine .updateProperties names (hset (List.mem_singleton_self e) fun hn => ?_)
    have howns : e.Owns .update name := hn.imp_right And.left
    exact Entity.namesField_of_owns howns
  | delete e => exact .delete (hset (List.mem_singleton_self e) Entity.namesField_of_owns)
  | aggregate e a source =>
    cases source with
    | «example» combinator =>
      exact .aggregateExample a combinator (hset (List.mem_singleton_self e) id)
    | listing l => exact .aggregateListing a l ⟨rfl, rfl⟩
  | batch steps =>
    refine .batch (List.forall₂_map_right_iff.2 (List.forall₂_same.2 fun step hstep => ?_))
    exact
      { operation := rfl
        links := rfl
        entity := hset (List.mem_map_of_mem hstep) fun hn => Entity.namesField_of_owns hn.1 }

/-- Requests that agree on what they own have one answer. -/
theorem run_congr {r r' : Request} (h : r.AgreesOnOwned r') : b.run r = b.run r' := by
  have hbody : b.checkedBody r = b.checkedBody r' :=
    (((Likeness.same b).checkedBody_alike (h.paired b)).agree not_false).eq
  rw [run_eq_finish, run_eq_finish, hbody]

/-- **Only the values that an operation owns reach its answer**, be it a statement or a refusal.
In particular a property of no field changes nothing. -/
theorem run_of_agreesOnOwned (b : Builder) :
    (∀ r r', Request.AgreesOnOwned r r' → b.run r = b.run r') ∧
    ∀ (r : Request) (name : String) (value : Json), (∀ e ∈ r.entities, ¬ e.NamesField name) →
      b.run (r.setProperty name value) = b.run r := by
  constructor
  · intro r r' h
    exact run_congr h
  · intro r name value h
    exact (run_congr (agreesOnOwned_setProperty value h)).symm

/-- A line that has an order of its own, which is no number. -/
def strayLine : BatchStep :=
  { orderLine with entity := orderLine.entity.set "OrderId" (.string "none") }

theorem run_of_agreesOnOwned_strayLine :
    (Request.AgreesOnOwned (.batch [order, orderLine]) (.batch [order, strayLine]) ∧
      ∃ s, Builder.default.run (.batch [order, orderLine]) = .ok s ∧
        Builder.default.run (.batch [order, strayLine]) = .ok s) ∧
    (∀ e ∈ (Request.insert strayLine.entity).entities, ¬ e.NamesField "Colour") ∧
      ∃ err, Builder.default.run (.insert strayLine.entity) = .error err ∧
        Builder.default.run ((Request.insert strayLine.entity).setProperty "Colour" .null) =
          .error err := by
  have hagree : Request.AgreesOnOwned (.batch [order, orderLine]) (.batch [order, strayLine]) := by
    refine .batch (.cons ⟨rfl, rfl, ⟨rfl, rfl⟩, fun _ _ => rfl⟩ (.cons ⟨rfl, rfl, ?_⟩ .nil))
    exact Entity.agreesOn_set _ fun h => h.2 ⟨"OrderId", 0⟩ (List.mem_singleton_self _) rfl
  have hforeign : ∀ e ∈ (Request.insert strayLine.entity).entities, ¬ e.NamesField "Colour" := by
    unfold Entity.NamesField
    decide
  refine ⟨⟨hagree, ?_⟩, hforeign, ?_⟩
  · obtain ⟨s, hs⟩ : ∃ s, Builder.default.run (.batch [order, orderLine]) = .ok s := ⟨_, rfl⟩
    exact ⟨s, hs, ((run_of_agreesOnOwned Builder.default).1 _ _ hagree).symm.trans hs⟩
  · obtain ⟨err, herr⟩ : ∃ err, Builder.default.run (.insert strayLine.entity) = .error err :=
      ⟨_, rfl⟩
    exact ⟨err, herr, ((run_of_agreesOnOwned _).2 _ "Colour" .null hforeign).trans herr⟩

end Builder

end RecordSql
