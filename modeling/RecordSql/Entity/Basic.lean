import RecordSql.Entity.Field

/-!
# Entities

A table described by its fields, together with the property values of one record of it. Properties
are looked up by name; one that belongs to no field is kept and never used.
-/

namespace RecordSql

/-! ## Properties -/

/-- Gives a name a value, in place of the one it had. -/
def setEntry (name : String) (value : Json) : List (String × Json) → List (String × Json)
  | [] => [(name, value)]
  | (n, v) :: rest =>
    if n = name then (name, value) :: rest else (n, v) :: setEntry name value rest

/-- Setting adds the name at the end unless it is there already. -/
theorem map_fst_setEntry (name : String) (value : Json) (entries : List (String × Json)) :
    (setEntry name value entries).map Prod.fst =
      if name ∈ entries.map Prod.fst then entries.map Prod.fst
      else entries.map Prod.fst ++ [name] := by
  induction entries with
  | nil => simp [setEntry]
  | cons entry rest ih =>
    obtain ⟨n, v⟩ := entry
    by_cases h : n = name
    · simp [setEntry, h]
    · have h' : ¬name = n := fun e => h e.symm
      simp only [setEntry, h, if_false, List.map_cons, ih, List.mem_cons, h', false_or]
      split <;> simp

/-- Property values by name; no name has two. -/
structure Properties where
  entries : List (String × Json)
  nodup : (entries.map Prod.fst).Nodup

namespace Properties

/-- No properties. -/
def empty : Properties := ⟨[], List.nodup_nil⟩

/-- The value of a name. -/
def get? (p : Properties) (name : String) : Option Json := p.entries.lookup name

/-- Gives a name a value. -/
def set (p : Properties) (name : String) (value : Json) : Properties :=
  ⟨setEntry name value p.entries, by
    rw [map_fst_setEntry]
    split
    · exact p.nodup
    · next h =>
      refine List.nodup_append.2 ⟨p.nodup, by simp, ?_⟩
      intro a ha b hb hab
      exact h (by rw [← List.mem_singleton.1 hb, ← hab]; exact ha)⟩

/-- The properties of a list of members, the last of each name winning. -/
def ofMembers (members : List (String × Json)) : Properties :=
  members.foldl (fun p member => p.set member.1 member.2) empty

/-- The properties with every value changed. -/
def mapValues (change : Json → Json) (p : Properties) : Properties :=
  ⟨p.entries.map fun entry => (entry.1, change entry.2), by
    rw [List.map_map]
    exact p.nodup⟩

end Properties

/-! ## Entities -/

/-- A table with its fields and the values of one record. -/
structure Entity where
  table : String
  fields : List Field
  properties : Properties

namespace Entity

/-- A table without fields and values. -/
def new (table : String) : Entity := ⟨table, [], .empty⟩

/-- Appends a field. -/
def withField (e : Entity) (f : Field) : Entity := { e with fields := e.fields ++ [f] }

/-- Gives a property a value. -/
def set (e : Entity) (name : String) (value : Json) : Entity :=
  { e with properties := e.properties.set name value }

/-- The value of a property. -/
def value? (e : Entity) (name : String) : Option Json := e.properties.get? name

/-- The value of a property unless it is `null`. -/
def present? (e : Entity) (name : String) : Option Json :=
  (e.value? name).filter fun value => !value.isNull

/-- The first field of a name. -/
def field? (e : Entity) (name : String) : Option Field := e.fields.find? fun f => f.name = name

/-- The first key field. -/
def key? (e : Entity) : Option Field := e.fields.find? fun f => f.isKey

/-! ## Stored form -/

/-- The names of the members of a stored entity. -/
def memberNames : List String := ["table", "fields", "properties"]

/-- The shape of a stored entity. -/
def shape : Json.Shape := .ofNames memberNames [("fields", .list Field.shape)]

/-- The entity as stored metadata. -/
def toJson (e : Entity) : Json :=
  .object
    [("table", .string e.table),
     ("fields", .array (e.fields.map Field.toJson)),
     ("properties", .object e.properties.entries)]

/-- The entity of stored metadata. -/
def ofJson? (value : Json) : Option Entity := do
  let member ← value.record? memberNames
  let table ← Json.needed (member "table") Json.string?
  let fields ← Json.needed (member "fields") (Json.list? Field.ofJson?)
  let properties ← Json.orElse [] (member "properties") Json.members?
  pure ⟨table, fields, .ofMembers properties⟩

/-- The entity with every loosely typed value in it changed. -/
def mapValues (change : Json → Json) (e : Entity) : Entity :=
  { e with
    fields := e.fields.map fun f => { f with default := f.default.map change }
    properties := e.properties.mapValues change }

/-- The entity of a text of stored metadata. A member of a record may not be given twice, while of
two properties of one name the last wins. -/
def ofText? (text : String) : Option Entity :=
  ((Json.asWritten? shape text).bind ofJson?).map (mapValues Json.canonical)

end Entity

end RecordSql
