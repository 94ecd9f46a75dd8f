import RecordSql.Json.Basic

/-!
# Records in JSON

How records, choices and their parts are read from JSON values.

* A **record** is an object with named members, or an array that gives the same members in their
  declared order. Unknown members are passed over; a known one given twice spoils the record.
* A **choice** is its name as a string, or an object whose only member has that name and no value.
* An **optional** member may be missing or `null`. A member with a **default** may be missing only.

Reading answers with an option: what is wrong with a record is nobody's business here.
-/

namespace RecordSql.Json

/-- How many members have a name. -/
def occurrences (name : String) (members : List (String × Json)) : Nat :=
  members.countP fun member => member.1 = name

/-- The members of a record by name, when the value has the form of a record of these names. -/
def record? (names : List String) : Json → Option (String → Option Json)
  | .object members =>
    if names.any fun name => 1 < occurrences name members then none
    else some fun name => members.lookup name
  | .array items =>
    if names.length < items.length then none
    else some fun name => (names.zip items).lookup name
  | _ => none

/-- A choice by its name in a table. -/
def choice? {α : Type} (table : List (String × α)) : Json → Option α
  | .string name => table.lookup name
  | .object [(name, .null)] => table.lookup name
  | _ => none

/-- A string. -/
def string? : Json → Option String
  | .string s => some s
  | _ => none

/-- A truth value. -/
def bool? : Json → Option Bool
  | .bool b => some b
  | _ => none

/-- A natural number of sixty-four bits. -/
def uint64? : Json → Option UInt64
  | .number n => n.toNat?.map UInt64.ofNat
  | _ => none

/-- An array, read item by item. -/
def list? {α : Type} (item? : Json → Option α) : Json → Option (List α)
  | .array items => items.mapM item?
  | _ => none

/-- The members of an object. -/
def members? : Json → Option (List (String × Json))
  | .object members => some members
  | _ => none

/-- A member that must be there. -/
def needed {α : Type} (member : Option Json) (read? : Json → Option α) : Option α :=
  member.bind read?

/-- A member with a default. -/
def orElse {α : Type} (default : α) (member : Option Json) (read? : Json → Option α) : Option α :=
  match member with
  | none => some default
  | some value => read? value

/-- An optional member, missing or `null` when there is none. -/
def optional {α : Type} (member : Option Json) (read? : Json → Option α) : Option (Option α) :=
  match member with
  | none => some none
  | some .null => some none
  | some value => (read? value).map some

/-- An optional member as it is written: left out when there is none. -/
def optionalMember {α : Type} (name : String) (write : α → Json) :
    Option α → List (String × Json)
  | none => []
  | some a => [(name, write a)]

end RecordSql.Json
