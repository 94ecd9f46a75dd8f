import RecordSql.Proofs.Cells
import RecordSql.Proofs.Defaults
import RecordSql.Proofs.StoredSearch
import RecordSql.Proofs.UnlinkedBatch

/-!
# Entities in stored metadata

An entity is stored as a value and read back from it. Every member that may be missing is left out
when it is none, and a missing member is read as none, so tables, fields, joins and properties come
back as they were, with one exception. A default may be null. Its member is written, since the
default is there, but a member that is null is read like a missing one: the default is none
afterwards.

Nothing but inserts looks at defaults. So all requests have the same answers about the entities that
were read back, but for inserts (on their own, or as steps of a batch) that give a field a null by
default: they lose its column and its parameter. Entities that were read once have no such defaults.

Both inserts are written entry by entry. A field whose default is null is one more entry, with one
more binding; every other field gives the same entry. The rest is counting, over the fields of an
insert and over the steps of a batch.
-/

namespace RecordSql

open Checked

/-! ## Stored metadata -/

/-- A default as it is read back: one that is null is none. -/
def storedDefault (default : Option Json) : Option Json := default.filter fun value => !value.isNull

/-- The field as it is read back. -/
def Field.stored (f : Field) : Field := f.mapDefault storedDefault

/-- The entity as it is read back. -/
def Entity.stored (e : Entity) : Entity := e.mapDefaults storedDefault

/-- The request about entities that were read back. -/
def Request.stored (r : Request) : Request := r.mapDefaults storedDefault

namespace Json

variable {α : Type}

theorem optional_string (s : Option String) : optional (s.map Json.string) string? = some s := by
  cases s <;> rfl

theorem optional_default (default : Option Json) :
    optional default some = some (storedDefault default) := by
  cases default with
  | none => rfl
  | some value => cases value <;> rfl

theorem list?_strings (texts : List String) :
    list? string? (.array (texts.map Json.string)) = some texts :=
  list?_array.2 (List.forall₂_same.2 fun _ _ => rfl)

end Json

theorem DataType.ofJson?_toJson (type : DataType) : ofJson? type.toJson = some type := by
  cases type <;> rfl

theorem JoinDirection.ofJson?_toJson (direction : JoinDirection) :
    ofJson? direction.toJson = some direction := by
  cases direction <;> rfl

/-- A join comes back as it was. -/
theorem Join.ofJson?_toJson (join : Join) : Join.ofJson? join.toJson = some join := by
  have hnames : (([("direction", join.direction.toJson), ("table", Json.string join.table),
      ("on_column", .string join.onColumn)] ++
      Json.optionalMember "local_column" .string join.localColumn ++
      [("join_fields", Json.array (join.declarations.map .string))]).map Prod.fst).Nodup := by
    have hall : memberNames = ["direction", "table", "on_column"] ++ ["local_column"] ++
        ["join_fields"] := rfl
    refine List.Sublist.nodup ?_ (show memberNames.Nodup by decide)
    rw [hall, List.map_append, List.map_append]
    exact ((List.Sublist.refl _).append (Json.optionalMember_names "local_column" _)).append
      (.refl _)
  rw [ofJson?, toJson, Json.record?_object hnames]
  simp only [List.lookup_append, Json.lookup_optionalMember, Option.bind_eq_bind]
  simp [List.lookup_cons, Json.needed, Json.orElse, Json.string?, JoinDirection.ofJson?_toJson,
    Json.optional_string, Json.list?_strings]

theorem Json.optional_join (join : Option Join) :
    optional (join.map Join.toJson) Join.ofJson? = some join := by
  cases join with
  | none => rfl
  | some join => exact congrArg (Option.map some) join.ofJson?_toJson

/-- **A field comes back without a default that is null.** -/
theorem Field.ofJson?_toJson (f : Field) : Field.ofJson? f.toJson = some f.stored := by
  have hnames : (([("name", Json.string f.name)] ++
      Json.optionalMember "db_name" .string f.dbName ++
      [("data_type", f.dataType.toJson), ("is_key", .bool f.isKey),
        ("insertable", .bool f.insertable), ("updatable", .bool f.updatable)] ++
      Json.optionalMember "default" id f.default ++
      Json.optionalMember "join" Join.toJson f.join).map Prod.fst).Nodup := by
    have hall : memberNames = ["name"] ++ ["db_name"] ++
        ["data_type", "is_key", "insertable", "updatable"] ++ ["default"] ++ ["join"] := rfl
    refine List.Sublist.nodup ?_ (show memberNames.Nodup by decide)
    rw [hall, List.map_append, List.map_append, List.map_append, List.map_append]
    refine List.Sublist.append ?_ (Json.optionalMember_names "join" _)
    refine List.Sublist.append ?_ (Json.optionalMember_names "default" _)
    refine List.Sublist.append ?_ (.refl _)
    exact (List.Sublist.refl _).append (Json.optionalMember_names "db_name" _)
  rw [ofJson?, toJson, Json.record?_object hnames]
  simp only [List.lookup_append, Json.lookup_optionalMember, Option.bind_eq_bind]
  simp [List.lookup_cons, Json.needed, Json.orElse, Json.string?, Json.bool?,
    DataType.ofJson?_toJson, Json.optional_string, Json.optional_default, Json.optional_join,
    Field.stored, Field.mapDefault]

theorem setEntry_of_not_mem {name : String} (value : Json) {entries : List (String × Json)}
    (h : name ∉ entries.map Prod.fst) :
    setEntry name value entries = entries ++ [(name, value)] := by
  induction entries with
  | nil => rfl
  | cons entry rest ih =>
    rw [List.map_cons, List.mem_cons, not_or] at h
    obtain ⟨n, v⟩ := entry
    rw [setEntry, if_neg fun hn => h.1 hn.symm, ih h.2]
    rfl

/-- Values that are set one after the other stay in order, when no name is set twice. -/
theorem Properties.ofMembers_entries (p : Properties) : ofMembers p.entries = p := by
  have hfold : ∀ (members : List (String × Json)) (q : Properties),
      ((q.entries ++ members).map Prod.fst).Nodup →
        (members.foldl (fun q member => q.set member.1 member.2) q).entries =
          q.entries ++ members := by
    intro members
    induction members with
    | nil => exact fun q _ => (List.append_nil _).symm
    | cons member rest ih =>
      intro q hq
      have hnew : member.1 ∉ q.entries.map Prod.fst := by
        rw [List.map_append, List.map_cons] at hq
        exact fun hm => (List.nodup_append.1 hq).2.2 _ hm _ List.mem_cons_self rfl
      have hset : (q.set member.1 member.2).entries = q.entries ++ [member] :=
        setEntry_of_not_mem member.2 hnew
      rw [List.foldl_cons, ih, hset, List.append_assoc, List.singleton_append]
      rw [hset, List.append_assoc, List.singleton_append]
      exact hq
  obtain ⟨entries, nodup⟩ := p
  have hentries := hfold entries .empty nodup
  unfold ofMembers
  cases hq : entries.foldl (fun q member => q.set member.1 member.2) empty with
  | mk entries' nodup' =>
    rw [hq] at hentries
    obtain rfl : entries' = entries := hentries
    rfl

/-- **An entity comes back without the defaults that are null**, and else as it was. -/
theorem Entity.ofJson?_toJson (e : Entity) : Entity.ofJson? e.toJson = some e.stored := by
  have hfields : Json.list? Field.ofJson? (.array (e.fields.map Field.toJson)) =
      some (e.fields.map Field.stored) :=
    Json.list?_array.2 (List.forall₂_map_right_iff.2 (List.forall₂_same.2 fun f _ =>
      f.ofJson?_toJson))
  have hnames : ([("table", Json.string e.table), ("fields", .array (e.fields.map Field.toJson)),
      ("properties", .object e.properties.entries)].map Prod.fst).Nodup :=
    show ["table", "fields", "properties"].Nodup by decide
  rw [ofJson?, toJson, Json.record?_object hnames]
  simp [List.lookup_cons, Json.needed, Json.orElse, Json.string?, Json.members?, hfields,
    Properties.ofMembers_entries]
  rfl

/-! ## Entities that were read -/

theorem storedDefault_optional {member default : Option Json}
    (h : Json.optional member some = some default) : storedDefault default = default := by
  unfold Json.optional at h
  split at h
  · obtain rfl := Option.some.inj h
    rfl
  · obtain rfl := Option.some.inj h
    rfl
  next value hnull =>
    obtain rfl := Option.some.inj h
    cases value with
    | null => exact absurd rfl hnull
    | _ => rfl

theorem Field.stored_of_ofJson? {value : Json} {f : Field} (h : ofJson? value = some f) :
    f.stored = f := by
  simp only [ofJson?, Option.bind_eq_bind, Option.bind_eq_some_iff] at h
  obtain ⟨member, _, name, _, dbName, _, dataType, _, isKey, _, insertable, _, updatable, _,
    default, hdefault, join, _, h⟩ := h
  obtain rfl := Option.some.inj h
  unfold stored mapDefault
  dsimp only
  rw [storedDefault_optional hdefault]

theorem Entity.stored_eq_self {e : Entity} (h : ∀ f ∈ e.fields, f.stored = f) : e.stored = e := by
  unfold stored mapDefaults
  have hfields : e.fields.map (Field.mapDefault storedDefault) = e.fields :=
    (List.map_congr_left h).trans (List.map_id' _)
  rw [hfields]

theorem Entity.stored_fields_of_ofJson? {value : Json} {e : Entity} (h : ofJson? value = some e) :
    ∀ f ∈ e.fields, f.stored = f := by
  simp only [ofJson?, Option.bind_eq_bind, Option.bind_eq_some_iff] at h
  obtain ⟨member, _, table, _, fields, hfields, properties, _, h⟩ := h
  obtain rfl := Option.some.inj h
  intro f hf
  cases hm : member "fields" with
  | none => exact absurd (hm ▸ hfields) (by simp [Json.needed])
  | some stored =>
    rw [hm] at hfields
    obtain ⟨item, hitem⟩ := Json.exists_of_mem_list? hfields hf
    exact Field.stored_of_ofJson? hitem

/-- **An entity that was read comes back as it was.** -/
theorem Entity.stored_of_ofJson? {value : Json} {e : Entity} (h : ofJson? value = some e) :
    e.stored = e :=
  Entity.stored_eq_self (Entity.stored_fields_of_ofJson? h)

/-- So does one that was read from a text: sorting the members of a value makes it no null. -/
theorem Entity.stored_of_ofText? {text : String} {e : Entity} (h : ofText? text = some e) :
    e.stored = e := by
  obtain ⟨read, hread, rfl⟩ := Option.map_eq_some_iff.1 h
  obtain ⟨value, _, hvalue⟩ := Option.bind_eq_some_iff.1 hread
  refine Entity.stored_eq_self (List.forall_mem_map.2 fun f hf => ?_)
  have hdefault : storedDefault f.default = f.default :=
    congrArg Field.default (Entity.stored_fields_of_ofJson? hvalue f hf)
  have hcanonical : storedDefault (f.default.map Json.canonical) =
      f.default.map Json.canonical := by
    cases hd : f.default with
    | none => rfl
    | some json =>
      cases json with
      | null => exact absurd (hd ▸ hdefault) (by simp [storedDefault, Json.isNull])
      | _ => rfl
  unfold Field.stored Field.mapDefault
  dsimp only
  rw [hcanonical]

/-! ## What inserts lose -/

namespace Checked

/-- Where each result outweighs another by what is lost, so do the lists of them. -/
theorem length_flatMap_of_mapM {ε α β γ δ : Type} {F F' : α → Except ε β} {weigh : β → List γ}
    {lost : α → List δ} {xs : List α} {ys ys' : List β}
    (h : ∀ a ∈ xs, ∀ y y', F a = .ok y → F' a = .ok y' →
      (weigh y).length = (weigh y').length + (lost a).length)
    (hF : xs.mapM F = .ok ys) (hF' : xs.mapM F' = .ok ys') :
    (ys.flatMap weigh).length = (ys'.flatMap weigh).length + (xs.flatMap lost).length := by
  have hys := mapM_eq_ok.1 hF
  have hys' := mapM_eq_ok.1 hF'
  clear hF hF'
  induction hys generalizing ys' with
  | nil =>
    cases hys'
    rfl
  | cons hy _ ih =>
    cases hys' with
    | cons hy' hrest' =>
      obtain ⟨ha, hrest⟩ := List.forall_mem_cons.1 h
      have hfirst := ha _ _ hy hy'
      have hothers := ih hrest hrest'
      simp only [List.flatMap_cons, List.length_append]
      omega

end Checked

/-- The default is there, and it is null. -/
def Field.NullDefault (f : Field) : Prop := f.default = some .null

instance (f : Field) : Decidable f.NullDefault :=
  decidable_of_iff (f.default.any Json.isNull = true) (by
    unfold Field.NullDefault
    cases f.default with
    | none => simp
    | some json => cases json <;> simp [Json.isNull])

theorem Request.entities_stored (r : Request) :
    r.stored.entities = r.entities.map Entity.stored := by
  cases r with
  | batch steps =>
    show (steps.map _).map _ = (steps.map _).map _
    rw [List.map_map, List.map_map]
    rfl
  | _ => rfl

/-- The fields that a request gives a null by default. -/
def Request.nulled (r : Request) : List Field := r.defaulted.filter fun f => f.NullDefault

theorem storedDefault_of_not_nullDefault {f : Field} (h : ¬ f.NullDefault) :
    storedDefault f.default = f.default := by
  unfold Field.NullDefault at h
  cases hd : f.default with
  | none => rfl
  | some json =>
    cases json with
    | null => exact absurd hd h
    | _ => rfl

/-- Whether an insert under links gives the field a null by default. -/
def Entity.nulls (e : Entity) (links : Links) (f : Field) : Bool :=
  (links.lookup f.name).isNone && (e.present? f.name).isNone && decide f.NullDefault

theorem Entity.nulls_iff {e : Entity} {links : Links} {f : Field} : e.nulls links f = true ↔
    links.lookup f.name = none ∧ e.present? f.name = none ∧ f.NullDefault := by
  unfold nulls
  rw [Bool.and_eq_true, Bool.and_eq_true, Option.isNone_iff_eq_none, Option.isNone_iff_eq_none,
    decide_eq_true_iff, and_assoc]

/-- What the expression of a field binds, if it has one. -/
def entryBindings : Option (Sql × Sql) → List Binding
  | none => []
  | some entry => entry.2.bindings

namespace Builder

variable {b : Builder} {e : Entity} {links : Links} {s : Statement}

/-- **Without fields that are given a null by default nothing changes.** -/
theorem run_stored {r : Request} (h : r.nulled = []) : b.run r.stored = b.run r := by
  refine run_mapDefaults storedDefault fun f hf => storedDefault_of_not_nullDefault fun hnull => ?_
  exact List.filter_eq_nil_iff.1 h f hf (decide_eq_true hnull)

/-- A null that is given by default is bound. -/
theorem insertEntry_nulled {f : Field} {o : Option (Sql × Sql)} (hn : e.nulls links f = true)
    (h : b.insertEntry e links f = .ok o) : (entryBindings o).length = 1 := by
  obtain ⟨hl, hp, hdefault⟩ := Entity.nulls_iff.1 hn
  have hvalue : insertValue? e f = some .null := by rw [insertValue?, hp, hdefault]; rfl
  rcases insertEntry_eq_ok.1 h with
    ⟨_, hlinked, _⟩ | ⟨_, ⟨hnone, _⟩ | ⟨json, hjson, value, hv, rfl⟩⟩
  · exact absurd (hl.symm.trans hlinked) (by simp)
  · exact absurd (hvalue.symm.trans hnone) (by simp)
  · obtain rfl := Option.some.inj (hvalue.symm.trans hjson)
    obtain ⟨c, hc, rfl⟩ := valueExpression_eq_ok_iff.1 hv
    show (c.sql b.dialect).bindings.length = 1
    rw [c.bindings_sql]
    cases hc with
    | now hnow => exact nomatch hnow.2
    | bound _ _ _ => rfl
    | sealed _ _ _ _ => rfl

/-- Read back, it is no column. -/
theorem insertEntry_nulled_stored {f : Field} {o : Option (Sql × Sql)}
    (hn : e.nulls links f = true) (h : b.insertEntry e.stored links f.stored = .ok o) :
    o = none := by
  obtain ⟨hl, hp, hdefault⟩ := Entity.nulls_iff.1 hn
  have hvalue : insertValue? e.stored f.stored = none := by
    show (e.present? f.name).or (storedDefault f.default) = none
    rw [hp, hdefault]
    rfl
  rcases insertEntry_eq_ok.1 h with ⟨_, hlinked, _⟩ | ⟨_, ⟨_, rfl⟩ | ⟨json, hjson, _⟩⟩
  · exact absurd (hl.symm.trans hlinked) (by simp)
  · rfl
  · exact absurd (hvalue.symm.trans hjson) (by simp)

/-- A field that is given no null by default binds the same as it does read back. -/
theorem insertEntry_kept {f : Field} {o o' : Option (Sql × Sql)} (hf : f ∈ e.fields)
    (hn : e.nulls links f = false) (h : b.insertEntry e links f = .ok o)
    (h' : b.insertEntry e.stored links f.stored = .ok o') : entryBindings o = entryBindings o' := by
  have hlinks : (Likeness.same b).LinksLike links links := fun _ => rel_refl (fun _ => rfl) _
  have hvalue : links.lookup f.name = none →
      insertValue? e.stored f.stored = insertValue? e f := by
    intro hl
    show (e.present? f.name).or (storedDefault f.default) = (e.present? f.name).or f.default
    cases hp : e.present? f.name with
    | some json => rfl
    | none =>
      have hdefault : ¬ f.NullDefault := fun hd =>
        absurd (Entity.nulls_iff.2 ⟨hl, hp, hd⟩) (by simp [hn])
      rw [storedDefault_of_not_nullDefault hdefault]
  have htakes : links.lookup f.name = none → Option.Rel (f.Takes False) (insertValue? e f)
      (insertValue? e.stored f.stored) := by
    intro hl
    rw [hvalue hl]
    exact f.takes_refl _
  have hbound := ((Likeness.same b).insertEntry_alike (.inl rfl) hf hlinks htakes).related h h'
  cases hbound with
  | none => rfl
  | some hbound => exact congrArg Sql.bindings hbound.value

/-- **A null that is given by default is one more binding**, and read back it is none. -/
theorem insertEntry_stored {f : Field} {o o' : Option (Sql × Sql)} (hf : f ∈ e.fields)
    (h : b.insertEntry e links f = .ok o)
    (h' : b.insertEntry e.stored links f.stored = .ok o') :
    (entryBindings o).length = (entryBindings o').length +
      ((Option.guard (e.nulls links) f).toList).length := by
  cases hn : e.nulls links f with
  | true =>
    obtain rfl := insertEntry_nulled_stored hn h'
    rw [Option.guard_eq_some_iff.2 ⟨rfl, hn⟩, insertEntry_nulled hn h]
    rfl
  | false =>
    rw [Option.guard_eq_none_iff.2 hn, insertEntry_kept hf hn h h']
    rfl

/-- An insert binds what its entries bind, and behind that what hands its key out. -/
theorem bindings_insertEntries {entries : List (Option (Sql × Sql))} {handling : KeyHandling}
    (h : (insertFields e).mapM (b.insertEntry e links) = .ok entries) :
    (b.dialect.insert ⟨Sql.table e.table, (entries.filterMap id).map Prod.fst,
      (entries.filterMap id).map Prod.snd⟩ (b.keyReturn e handling)).bindings =
        entries.flatMap entryBindings ++
          (b.dialect.handsOut (b.keyReturn e handling)).bindings := by
  have hcolumns : ∀ c ∈ (entries.filterMap id).map Prod.fst, Sql.bindings c = [] := by
    refine List.forall_mem_map.2 fun entry hentry => ?_
    obtain ⟨_, hm, rfl⟩ := List.mem_filterMap.1 hentry
    obtain ⟨f, _, hf⟩ := exists_of_mem_mapM h hm
    rcases insertEntry_eq_ok.1 hf with ⟨_, _, ho⟩ | ⟨_, ⟨_, ho⟩ | ⟨_, _, _, _, ho⟩⟩
    · obtain rfl := Option.some.inj ho
      rfl
    · exact absurd ho (by simp)
    · obtain rfl := Option.some.inj ho
      rfl
  have hvalues : ((entries.filterMap id).map Prod.snd).flatMap Sql.bindings =
      entries.flatMap entryBindings := by
    rw [List.flatMap_map, List.filterMap_eq_flatMap_toList, List.flatMap_assoc]
    refine List.flatMap_congr fun entry _ => ?_
    cases entry with
    | none => rfl
    | some entry => exact List.append_nil _
  rw [← hvalues]
  exact filterMap_insert_keyReturn passes_binding? hcolumns _ _

/-- Read back, an insert binds that much less. -/
theorem length_bindings_insertBody {linked : List String} {handling : KeyHandling} {sql sql' : Sql}
    (hl : ∀ name, links.lookup name = none ↔ name ∉ linked)
    (h : b.insertBody e links handling = .ok sql)
    (h' : b.insertBody e.stored links handling = .ok sql') :
    sql.bindings.length = sql'.bindings.length +
      ((e.defaulted linked).filter fun f => f.NullDefault).length := by
  obtain ⟨entries, hentries, _, rfl⟩ := insertBody_eq_ok.1 h
  obtain ⟨entries', hentries', _, rfl⟩ := insertBody_eq_ok.1 h'
  have hout : b.keyReturn e.stored handling = b.keyReturn e handling :=
    keyReturn_refilled storedDefault e.properties handling
  have hback : (insertFields e).mapM (fun f => b.insertEntry e.stored links f.stored) =
      .ok entries' := by
    have hfields : insertFields e.stored = (insertFields e).map Field.stored :=
      insertFields_refilled storedDefault e.properties
    rw [← hentries', hfields, List.mapM_map]
    rfl
  have hlost : ((insertFields e).flatMap fun f => (Option.guard (e.nulls links) f).toList) =
      (e.defaulted linked).filter fun f => f.NullDefault := by
    rw [← List.filterMap_eq_flatMap_toList, List.filterMap_eq_filter, Entity.defaulted,
      List.filter_filter]
    refine List.filter_congr fun f _ => ?_
    rw [Bool.eq_iff_iff, Entity.nulls_iff, hl]
    simp [and_comm, and_assoc]
  have hmem : ∀ f ∈ insertFields e, f ∈ e.fields := fun _ => List.mem_of_mem_filter
  have hlength := length_flatMap_of_mapM
    (fun f hf _ _ hy hy' => insertEntry_stored (hmem f hf) hy hy') hentries hback
  rw [hlost] at hlength
  rw [bindings_insertEntries hentries, bindings_insertEntries hentries', hout, List.length_append,
    List.length_append, hlength, Nat.add_right_comm]

variable {steps : List BatchStep} {step : BatchStep} {i : Nat} {sql sql' : Sql}

theorem length_bindings_stepBody (hback : ∀ link ∈ step.links, LeadsBack steps i link)
    (h : b.stepBody (b.keyVariables steps) step i = .ok sql)
    (h' : b.stepBody (b.keyVariables steps) (step.mapDefaults storedDefault) i = .ok sql') :
    sql.bindings.length = sql'.bindings.length +
      (step.defaulted.filter fun f => f.NullDefault).length := by
  by_cases hinsert : step.operation = .insert
  · obtain ⟨operation, e, added⟩ := step
    obtain rfl : operation = .insert := hinsert
    have hback' : ∀ link ∈ (BatchStep.mapDefaults storedDefault ⟨.insert, e, added⟩).links,
        LeadsBack steps i link := hback
    obtain ⟨_, _, h⟩ := (stepBody_linked hback).1 h
    obtain ⟨_, _, h'⟩ := (stepBody_linked hback').1 h'
    refine length_bindings_insertBody (fun name => ?_) h h'
    rw [lookup_stepLinks_eq_none]
    simp
  · -- a step of another kind gives no defaults, so it has the same statement
    have hnone : step.defaulted = [] := by
      unfold BatchStep.defaulted
      split
      · next hoperation => exact absurd hoperation hinsert
      · rfl
    have hsame := stepBody_mapDefaults (b := b) storedDefault hback fun f hf => by
      rw [hnone] at hf
      exact absurd hf List.not_mem_nil
    obtain rfl : sql = sql' := Except.ok.inj (h.symm.trans (hsame.symm.trans h'))
    rw [hnone]
    rfl

theorem length_bindings_batchBody (h : b.batchBody steps = .ok sql)
    (h' : b.batchBody (steps.map (BatchStep.mapDefaults storedDefault)) = .ok sql') :
    sql.bindings.length = sql'.bindings.length +
      ((steps.flatMap BatchStep.defaulted).filter fun f => f.NullDefault).length := by
  have hkeyed : b.keyVariables (steps.map (BatchStep.mapDefaults storedDefault)) =
      b.keyVariables steps :=
    ((Likeness.same b).keyVariables_like (List.forall₂_map_right_iff.2 (List.forall₂_same.2
      fun step _ => step.capturesKey_refilled storedDefault step.entity.properties))).eq.symm
  obtain ⟨_, hcheck, fragments, hfragments, rfl⟩ := batchBody_eq_ok.1 h
  obtain ⟨_, _, fragments', hfragments', rfl⟩ := batchBody_eq_ok.1 h'
  rw [hkeyed, List.zipIdx_map, List.mapM_map] at hfragments'
  have hlinks : LinksBack steps := checkLinks_eq_ok.1 hcheck
  have hlength := length_flatMap_of_mapM
    (fun p hp _ _ hy hy' => length_bindings_stepBody
      (hlinks p.2 p.1 (List.mem_zipIdx_iff_getElem?.1 hp)) hy hy') hfragments hfragments'
  have hlost : (steps.zipIdx.flatMap fun p => p.1.defaulted.filter fun f => f.NullDefault) =
      (steps.flatMap BatchStep.defaulted).filter fun f => f.NullDefault := by
    rw [List.filter_flatMap]
    conv_rhs => rw [← List.zipIdx_map_fst 0 steps, List.flatMap_map]
  rw [hlost] at hlength
  rw [hkeyed]
  have hbindings : ∀ parts : BatchParts, (b.dialect.batch parts).bindings =
      parts.fragments.flatMap Sql.bindings ++ (b.dialect.outputs parts.keyVariables).bindings :=
    Dialect.filterMap_batch passes_binding?
  rw [hbindings, hbindings, List.length_append, List.length_append, hlength, Nat.add_right_comm]

theorem length_parameters_finish (h : b.finish sql = .ok s) :
    s.parameters.length = sql.bindings.length := by
  rw [Statement.length_parameters]
  exact congrArg List.length (filterMap_finish passes_binding? h)

/-- **Every null that is given by default is one more parameter.** -/
theorem length_parameters_stored {r : Request} {s s' : Statement} (h : b.run r = .ok s)
    (h' : b.run r.stored = .ok s') :
    s.parameters.length = s'.parameters.length + r.nulled.length := by
  have hread : r.nulled = [] → s.parameters.length = s'.parameters.length + r.nulled.length := by
    intro hnone
    obtain rfl : s = s' := Except.ok.inj (h.symm.trans ((run_stored hnone).symm.trans h'))
    rw [hnone]
    rfl
  obtain ⟨_, sql, hbody, hfinish⟩ := run_eq_ok h
  obtain ⟨_, sql', hbody', hfinish'⟩ := run_eq_ok h'
  have hlength := length_parameters_finish hfinish
  have hlength' := length_parameters_finish hfinish'
  rw [hlength, hlength']
  cases r with
  | insert e => exact length_bindings_insertBody (fun _ => by simp) hbody hbody'
  | batch steps => exact length_bindings_batchBody hbody hbody'
  | _ => exact hlength ▸ hlength' ▸ hread rfl

/-- **Stored metadata gives the same statements, but for nulls that are given by default.** Every
entity is read back without the defaults that are null, and passes the same check; one that was read
before comes back as it was. A request that gives no null by default has the same answer about the
entities that were read back, and an answer stays the same in no other case: every such null is one
parameter of it, which is missing afterwards. -/
theorem stored_entities (b : Builder) (r : Request) :
    (∀ e : Entity, Entity.ofJson? e.toJson = some e.stored ∧ e.stored.check = e.check) ∧
    (∀ value e, Entity.ofJson? value = some e → e.stored = e) ∧
    (∀ text e, Entity.ofText? text = some e → e.stored = e) ∧
    r.stored.entities = r.entities.map Entity.stored ∧
    (r.nulled = [] → b.run r.stored = b.run r) ∧
    ∀ s, b.run r = .ok s → (b.run r.stored = .ok s ↔ r.nulled = []) ∧
      ∀ s', b.run r.stored = .ok s' →
        s.parameters.length = s'.parameters.length + r.nulled.length := by
  refine ⟨fun e => ⟨e.ofJson?_toJson, e.check_refilled storedDefault e.properties⟩,
    fun _ _ => Entity.stored_of_ofJson?, fun _ _ => Entity.stored_of_ofText?, r.entities_stored,
    run_stored, fun s h => ⟨⟨fun h' => ?_, fun hnone => (run_stored hnone).trans h⟩,
      fun s' => length_parameters_stored h⟩⟩
  have hlength := length_parameters_stored h h'
  exact List.eq_nil_of_length_eq_zero (by omega)

/-- A memo whose body is null by default. -/
def memo : Entity where
  table := "Memos"
  fields := [{ Field.new "Id" .integer with isKey := true }, .new "Title" .text,
    { Field.new "Body" .text with default := some .null }]
  properties := ⟨[("Title", .string "Plans")], by decide⟩

theorem stored_entities_memo :
    (Request.insert memo).nulled.map Field.name = ["Body"] ∧
    (∃ s s', Builder.default.run (.insert memo) = .ok s ∧
      Builder.default.run (Request.insert memo).stored = .ok s' ∧
      s.parameters.length = s'.parameters.length + 1) ∧
    Builder.default.run (Request.insert (memo.set "Body" (.string ""))).stored =
      Builder.default.run (.insert (memo.set "Body" (.string ""))) := by
  obtain ⟨_, _, _, _, _, hanswers⟩ := stored_entities Builder.default (.insert memo)
  obtain ⟨_, _, _, _, hsame, _⟩ :=
    stored_entities Builder.default (.insert (memo.set "Body" (.string "")))
  obtain ⟨s, hs⟩ : ∃ s, Builder.default.run (.insert memo) = .ok s := ⟨_, rfl⟩
  obtain ⟨s', hs'⟩ : ∃ s', Builder.default.run (Request.insert memo).stored = .ok s' := ⟨_, rfl⟩
  exact ⟨by decide, ⟨s, s', hs, hs', (hanswers s hs).2 s' hs'⟩, hsame (by decide)⟩

/-- **A memo is inserted with a null for its body, and without one once it was stored.** -/
theorem null_default_not_stored :
    ∃ e s s', Entity.ofJson? memo.toJson = some e ∧
      Builder.default.insert memo = .ok s ∧ Builder.default.insert e = .ok s' ∧
      s.text = "INSERT INTO Memos (Title, Body) OUTPUT INSERTED.Id VALUES (@p0, @p1)" ∧
      s'.text = "INSERT INTO Memos (Title) OUTPUT INSERTED.Id VALUES (@p0)" :=
  ⟨memo.stored, _, _, memo.ofJson?_toJson, rfl, rfl, by decide +kernel, by decide +kernel⟩

end Builder

end RecordSql
