import RecordSql.Proofs.Success

/-!
# Types of values

A value that is given a type has that type, whatever form it came in, and only `null` becomes a
null.
-/

namespace RecordSql

open Checked

namespace Value

/-- The type of a value; a null has them all. -/
def type? : Value → Option DataType
  | .null => none
  | .text _ => some .text
  | .integer _ => some .integer
  | .decimal _ => some .decimal
  | .date _ => some .date
  | .dateTime _ => some .dateTime
  | .boolean _ => some .boolean
  | .binary _ => some .binary

variable {json : Json} {value : Value} {type : DataType}

theorem type?_of_map {α : Type} {x : Except CoerceFault α} {f : α → Value}
    (hf : ∀ a, (f a).type? = some type) (h : x.map f = .ok value) : value.type? = some type := by
  obtain ⟨a, _, rfl⟩ := map_eq_ok.1 h
  exact hf a

/-- What is coerced to a type has that type; encrypted values are text. -/
theorem type?_of_coerce (hj : json.isNull = false) (h : coerce json type = .ok value) :
    value.type? = some type.parameterType := by
  simp only [coerce, hj, Bool.false_eq_true, if_false] at h
  cases type with
  | text | encrypted =>
    cases json with
    | string s | number n | bool t =>
      obtain rfl := Except.ok.inj h
      rfl
    | _ => exact absurd h (by simp [coerceText])
  | integer =>
    cases json with
    | string s | number n => exact type?_of_map (fun _ => rfl) h
    | _ => exact absurd h (by simp [coerceInteger])
  | decimal =>
    cases json with
    | string s => exact type?_of_map (fun _ => rfl) h
    | number n =>
      obtain rfl := Except.ok.inj h
      rfl
    | _ => exact absurd h (by simp [coerceDecimal])
  | boolean =>
    cases json with
    | string s | number n =>
      dsimp only [coerceBoolean] at h
      exact type?_of_map (fun _ => rfl) h
    | bool t =>
      obtain rfl := Except.ok.inj h
      rfl
    | _ => exact absurd h (by simp [coerceBoolean])
  | date =>
    cases json with
    | string s => exact type?_of_map (fun _ => rfl) h
    | _ => exact absurd h (by simp [coerceDate])
  | dateTime =>
    cases json with
    | string s => exact type?_of_map (fun _ => rfl) h
    | _ => exact absurd h (by simp [coerceDateTime])
  | binary =>
    cases json with
    | string s =>
      dsimp only [coerceBinary] at h
      split at h
      · obtain rfl := Except.ok.inj h
        rfl
      · exact absurd h (by simp)
    | array items => exact type?_of_map (fun _ => rfl) h
    | _ => exact absurd h (by simp [coerceBinary])

/-- Only `null` becomes a null, whatever the type. -/
theorem ne_null_of_coerce (hj : json.isNull = false) (h : coerce json type = .ok value) :
    value ≠ .null := by
  rintro rfl
  exact absurd (type?_of_coerce hj h) (by simp [type?])

/-- **Null comes from `null` alone.** -/
theorem coerce_eq_null_iff : coerce json type = .ok .null ↔ json = .null := by
  constructor
  · intro h
    cases json with
    | null => rfl
    | _ => exact absurd rfl (ne_null_of_coerce rfl h)
  · rintro rfl
    rfl

end Value

end RecordSql
