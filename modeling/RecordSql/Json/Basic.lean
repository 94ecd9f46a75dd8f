import RecordSql.Json.Number

/-!
# JSON values

Loosely typed data: property values, defaults, and the wire forms of everything else.

* An object is the list of its members. A text may give a name twice; `canonical` keeps the last of
  each name and sorts the members by code points, at every depth.
* Equality and order of members matter to nobody who reads a canonical value by name.
-/

namespace RecordSql

/-- A JSON value; the members of an object stand in the order they were given in. -/
inductive Json where
  | null
  | bool (b : Bool)
  | number (n : Json.Number)
  | string (s : String)
  | array (items : List Json)
  | object (members : List (String × Json))
  deriving Inhabited

namespace Json

/-- Whether a value is `null`. -/
def isNull : Json → Bool
  | .null => true
  | _ => false

/-- Puts a member into a list sorted by name, in place of one of the same name. -/
def insertMember (name : String) (value : Json) :
    List (String × Json) → List (String × Json)
  | [] => [(name, value)]
  | (n, v) :: rest =>
    if name = n then (name, value) :: rest
    else if name < n then (name, value) :: (n, v) :: rest
    else (n, v) :: insertMember name value rest

mutual

/-- The value with every object sorted by name and free of repeated names, the last one winning. -/
def canonical : Json → Json
  | .array items => .array (canonicalItems items)
  | .object members => .object (canonicalMembers [] members)
  | value => value

/-- The canonical forms of the items of an array. -/
def canonicalItems : List Json → List Json
  | [] => []
  | value :: rest => canonical value :: canonicalItems rest

/-- Inserts the canonical forms of the members one after the other. -/
def canonicalMembers (done : List (String × Json)) :
    List (String × Json) → List (String × Json)
  | [] => done
  | (name, value) :: rest =>
    canonicalMembers (insertMember name (canonical value) done) rest

end

end Json

end RecordSql
