import RecordSql.Proofs.Agreement

/-!
# Entities that are filled in another way

Two things about an entity are there to be written and for nothing else: the values of its record,
and the defaults of its fields. Everything else is metadata. So an entity that is **refilled**, with
other values and its defaults changed, passes the same check, and its names stand for what they
stood for: a name of a field for the field with its default changed, a name of a join for the same
column.
-/

namespace RecordSql

open Checked

/-! ## Changed defaults -/

/-- The field with its default changed. -/
def Field.mapDefault (change : Option Json → Option Json) (f : Field) : Field :=
  { f with default := change f.default }

/-- The entity with the default of every field changed. -/
def Entity.mapDefaults (change : Option Json → Option Json) (e : Entity) : Entity :=
  { e with fields := e.fields.map (Field.mapDefault change) }

/-- What a name stands for, once defaults have been changed. -/
def Target.mapDefault (change : Option Json → Option Json) : Target → Target
  | .field f => .field (f.mapDefault change)
  | .joined index column => .joined index column

/-- A joined table, the default of the field that carries it changed. -/
def JoinedTable.mapDefault (change : Option Json → Option Json) (t : JoinedTable) : JoinedTable :=
  { t with field := t.field.mapDefault change }

@[simp] theorem Target.dataType_mapDefault (change : Option Json → Option Json) (target : Target) :
    (target.mapDefault change).dataType = target.dataType := by
  cases target <;> rfl

@[simp] theorem Target.columnName_mapDefault (change : Option Json → Option Json)
    (target : Target) : (target.mapDefault change).columnName = target.columnName := by
  cases target <;> rfl

namespace Entity

/-- The entity with the defaults of its fields changed, and with the values of another record. -/
def refilled (change : Option Json → Option Json) (values : Properties) (e : Entity) : Entity :=
  { e.mapDefaults change with properties := values }

variable (change : Option Json → Option Json) (values : Properties) {e e' : Entity}

/-- Changed defaults alone leave the record as it is. -/
theorem mapDefaults_eq : e.mapDefaults change = e.refilled change e.properties := rfl

/-- Defaults may stay as they are. -/
theorem refilled_id : e.refilled id values = { e with properties := values } := by
  have hfields : e.fields.map (Field.mapDefault id) = e.fields := List.map_id _
  rw [refilled, mapDefaults, hfields]

/-- The same metadata, whatever the values. -/
structure SameTable (e e' : Entity) : Prop where
  table : e.table = e'.table
  fields : e.fields = e'.fields

theorem SameTable.exists_refilled (h : e.SameTable e') : ∃ values, e' = e.refilled id values := by
  obtain ⟨table, fields, values⟩ := e
  obtain ⟨table', fields', values'⟩ := e'
  obtain ⟨ht, hf⟩ := h
  dsimp only at ht hf
  subst ht hf
  refine ⟨values', ?_⟩
  rw [refilled_id]

/-! ## Looking fields up -/

/-- Fields are picked by what is no default. -/
theorem filter_fields_refilled {keep : Field → Bool}
    (hkeep : ∀ f, keep (f.mapDefault change) = keep f) :
    (e.refilled change values).fields.filter keep =
      (e.fields.filter keep).map (Field.mapDefault change) := by
  have hcomp : keep ∘ Field.mapDefault change = keep := funext hkeep
  show (e.fields.map _).filter keep = _
  rw [List.filter_map, hcomp]

theorem field?_refilled (name : String) :
    (e.refilled change values).field? name = (e.field? name).map (Field.mapDefault change) :=
  List.find?_map ..

theorem key?_refilled :
    (e.refilled change values).key? = e.key?.map (Field.mapDefault change) :=
  List.find?_map ..

theorem joinedTables_refilled :
    (e.refilled change values).joinedTables =
      e.joinedTables.map (JoinedTable.mapDefault change) := by
  have hfields : (e.refilled change values).joinedFields =
      e.joinedFields.map fun p => (p.1.mapDefault change, p.2) := by
    unfold joinedFields refilled mapDefaults
    rw [List.filterMap_map, List.map_filterMap]
    refine List.filterMap_congr fun f _ => ?_
    rw [Option.map_map]
    rfl
  unfold joinedTables
  rw [hfields, List.zipIdx_map, List.map_map, List.map_map]
  rfl

theorem findJoined?_mapDefault (tables : List JoinedTable) (accept : JoinColumn → Bool) :
    findJoined? (tables.map (JoinedTable.mapDefault change)) accept =
      (findJoined? tables accept).map (Target.mapDefault change) := by
  unfold findJoined?
  rw [List.findSome?_map, List.map_findSome?]
  refine congrArg (List.findSome? · tables) (funext fun t => ?_)
  exact (Option.map_map (Target.mapDefault change) (Target.joined t.index) _).symm

theorem resolveWithin?_refilled (tables : List JoinedTable) (name : String) :
    (e.refilled change values).resolveWithin? (tables.map (JoinedTable.mapDefault change)) name =
      (e.resolveWithin? tables name).map (Target.mapDefault change) := by
  unfold resolveWithin?
  rw [findJoined?_mapDefault, findJoined?_mapDefault, field?_refilled, Option.map_or,
    Option.map_or, Option.map_map, Option.map_map]
  rfl

/-- **A name stands for the changed field.** -/
theorem resolve_refilled (name : String) :
    (e.refilled change values).resolve name =
      (e.resolve name).map (Target.mapDefault change) := by
  have hfound : (e.refilled change values).resolve? name =
      (e.resolve? name).map (Target.mapDefault change) := by
    unfold resolve?
    rw [joinedTables_refilled, resolveWithin?_refilled]
  unfold resolve
  rw [hfound]
  cases e.resolve? name <;> rfl

theorem joinSource_refilled (t : JoinedTable) :
    (e.refilled change values).joinSource (t.mapDefault change) =
      (e.joinSource t).map (Target.mapDefault change) := by
  have hlocal : (t.mapDefault change).join.localColumn = t.join.localColumn := rfl
  unfold joinSource
  rw [hlocal]
  cases t.join.localColumn with
  | none => rfl
  | some name =>
    have hseen : (e.refilled change values).joinedTables.take t.index =
        (e.joinedTables.take t.index).map (JoinedTable.mapDefault change) := by
      rw [joinedTables_refilled, List.map_take]
    dsimp only
    rw [show (t.mapDefault change).index = t.index from rfl, hseen, resolveWithin?_refilled]
    cases e.resolveWithin? (e.joinedTables.take t.index) name <;> rfl

theorem requireKey_refilled :
    (e.refilled change values).requireKey = e.requireKey.map (Field.mapDefault change) := by
  unfold requireKey
  rw [key?_refilled]
  cases e.key? <;> rfl

/-- **The check of an entity looks at no value and at no default.** -/
theorem check_refilled : (e.refilled change values).check = e.check := by
  have hkeys : (e.refilled change values).fields.countP Field.isKey = e.fields.countP Field.isKey :=
    List.countP_map
  have hfields : (e.refilled change values).fields.forM checkField = e.fields.forM checkField :=
    List.forM_map
  have hexposed : (e.refilled change values).exposedNames = e.exposedNames := by
    unfold exposedNames
    rw [filter_fields_refilled change values fun _ => rfl, List.map_map]
    unfold refilled mapDefaults
    dsimp only
    rw [List.filterMap_map]
    rfl
  unfold check
  rw [hkeys, hfields, hexposed]
  rfl

end Entity

/-! ## What depends on metadata alone -/

/-- A step keeps the key of its entity for later, whatever that is filled with. -/
theorem BatchStep.capturesKey_refilled (change : Option Json → Option Json) (values : Properties)
    (step : BatchStep) :
    capturesKey { step with entity := step.entity.refilled change values } = step.capturesKey := by
  unfold capturesKey
  dsimp only
  rw [Entity.key?_refilled]
  cases step.entity.key? <;> rfl

namespace Builder

variable (change : Option Json → Option Json) (values : Properties) {b : Builder} {e : Entity}

/-- **The joins are the same**, whatever the entity is filled with. -/
theorem fromClause_refilled : fromClause (e.refilled change values) = fromClause e := by
  have hjoin : ∀ t, joinClause (e.refilled change values) (t.mapDefault change) =
      joinClause e t := by
    intro t
    unfold joinClause
    rw [Entity.joinSource_refilled]
    cases e.joinSource t with
    | ok target => cases target <;> rfl
    | error fault => rfl
  have hjoins : (e.refilled change values).joinedTables.mapM
      (joinClause (e.refilled change values)) = e.joinedTables.mapM (joinClause e) := by
    rw [Entity.joinedTables_refilled]
    exact mapM_congr_forall₂ (List.forall₂_map_left_iff.2 (List.forall₂_same.2 fun t _ => hjoin t))
  unfold fromClause
  rw [hjoins]
  rfl

theorem windowOrder_refilled (terms : List Sql) :
    windowOrder (e.refilled change values) terms = windowOrder e terms := by
  unfold windowOrder
  rw [Entity.key?_refilled]
  cases terms with
  | nil => cases e.key? <;> rfl
  | cons _ _ => rfl

theorem keyLink?_refilled (links : Links) :
    keyLink? (e.refilled change values) links = keyLink? e links := by
  unfold keyLink?
  rw [Entity.key?_refilled, Option.bind_map]
  rfl

theorem keyReturn_refilled (handling : KeyHandling) :
    b.keyReturn (e.refilled change values) handling = b.keyReturn e handling := by
  unfold keyReturn
  rw [Entity.key?_refilled]
  cases e.key? <;> cases handling <;> rfl

theorem insertFields_refilled : insertFields (e.refilled change values) =
    (insertFields e).map (Field.mapDefault change) :=
  e.filter_fields_refilled change values fun _ => rfl

theorem updateFields_refilled (names : Option (List String)) :
    updateFields (e.refilled change values) names =
      (updateFields e names).map (Field.mapDefault change) := by
  unfold updateFields
  rw [Entity.filter_fields_refilled change values fun _ => rfl, List.filter_map]
  rfl

end Builder

end RecordSql
