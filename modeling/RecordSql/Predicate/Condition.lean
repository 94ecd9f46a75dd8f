import RecordSql.Predicate.Basic
import RecordSql.Value

/-!
# Typed conditions

A predicate whose values have the type of the column it is asked of. Every value of the predicate
is read as a string of that type; a search for a part stays text, whatever the column holds.
-/

namespace RecordSql

/-- A search predicate with typed values. -/
inductive Condition where
  | isNull
  | isNotNull
  | not (inner : Condition)
  | range (lower upper : Option Value)
  | oneOf (items : List Value)
  | like (text : String)
  | equals (value : Value)
  deriving DecidableEq

namespace Predicate

/-- A text of the predicate as a value. -/
def typed (type : DataType) (text : String) : Except CoerceFault Value :=
  Value.coerce (.string text) type

/-- A bound of a range as a value. -/
def typedBound (type : DataType) : Option String → Except CoerceFault (Option Value)
  | none => .ok none
  | some text => (typed type text).map some

/-- The items of a list as values, up to the first that is none. -/
def typedItems (type : DataType) : List String → Except CoerceFault (List Value)
  | [] => .ok []
  | text :: rest => do
    let value ← typed type text
    let values ← typedItems type rest
    pure (value :: values)

/-- Gives the values of a predicate the type of a column. -/
def coerce (type : DataType) : Predicate → Except CoerceFault Condition
  | .isNull => .ok .isNull
  | .isNotNull => .ok .isNotNull
  | .not inner => (inner.coerce type).map .not
  | .range none none => .error .unbounded
  | .range lower upper => do
    let lower ← typedBound type lower
    let upper ← typedBound type upper
    pure (.range lower upper)
  | .list items => (typedItems type items).map .oneOf
  | .like text => .ok (.like text)
  | .equals text => (typed type text).map .equals

end Predicate

end RecordSql
