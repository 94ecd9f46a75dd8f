import RecordSql.Proofs.DateText
import RecordSql.Proofs.HexTexts

/-!
# Typed values are stable

A value that has been given a type is sent on as JSON, and read again at the other end under the
same type. It is the same value there. Each type has one JSON form that its values are written in,
and that form is one of the many that the type accepts:

* bytes are written in hexadecimal digits without a mark in front, and no mark can be taken for one,
  since an `x` is no digit;
* a decimal is written as a number that need not be read, because coercion only gives finite ones:
  rounding stops below infinity, and setting the sign changes neither exponent nor fraction;
* dates and times are read as they are printed.
-/

namespace RecordSql

open Text Checked

/-! ## Bytes -/

namespace Value

/-- The digits that bytes are printed with spell them, without a mark. -/
theorem coerceBinary_encode (bytes : List UInt8) :
    coerceBinary (.string (Hex.encode bytes)) = .ok (.binary bytes) := by
  have hspells := Hex.spells_encode bytes
  have htrim : trim (Hex.encode bytes).toList = (Hex.encode bytes).toList := by
    refine trim_of_not_blank fun c hc => ?_
    obtain ⟨n, hn⟩ := hspells.digits.2 c hc
    exact hn.not_blank
  refine coerceBinary_text.2 ⟨bytes, ?_, rfl⟩
  rwa [htrim, withoutHexMark_digits hspells.digits.2]

end Value

/-! ## Decimals -/

namespace Binary64

/-- A number that is not negative and lies below infinity. -/
def BelowInfinity (x : Binary64) : Prop := x.bits.toNat < infinityBits

theorem infinityBits_eq : infinityBits = 2047 * 4503599627370496 := rfl

theorem belowInfinity_ofUnits? {a b : Nat} {x : Binary64} (h : ofUnits? a b = some x) :
    x.BelowInfinity := by
  unfold ofUnits? at h
  simp only at h
  split at h
  next hlt =>
    obtain rfl := Option.some.inj h
    unfold BelowInfinity
    rw [infinityBits_eq] at hlt ⊢
    rw [UInt64.toNat_ofNat_of_lt' (by rw [UInt64.size]; omega)]
    exact hlt
  next => exact absurd h (by simp)

theorem belowInfinity_zero : zero.BelowInfinity := by
  unfold BelowInfinity
  decide

/-- A sign makes no number infinite. -/
theorem BelowInfinity.isFinite_withSign {x : Binary64} (h : x.BelowInfinity) (negative : Bool) :
    (x.withSign negative).isFinite = true := by
  have hpow : Nat.pow 2 52 = 4503599627370496 := by decide
  have hpow63 : Nat.pow 2 63 = 9223372036854775808 := by decide
  unfold BelowInfinity at h
  rw [infinityBits_eq] at h
  unfold isFinite exponentField
  rw [decide_eq_true_iff, hpow]
  cases negative with
  | false =>
    rw [withSign, if_neg Bool.false_ne_true]
    omega
  | true =>
    rw [withSign, if_pos rfl, hpow63, UInt64.toNat_ofNat_of_lt' (by rw [UInt64.size]; omega)]
    omega

end Binary64

namespace Decimal

open Binary64

theorem belowInfinity_nearestScaled? {n : Nat} {e : Int} {x : Binary64}
    (h : nearestScaled? n e = some x) : x.BelowInfinity := by
  unfold nearestScaled? at h
  simp only at h
  split at h
  · obtain rfl := Option.some.inj h
    exact belowInfinity_zero
  split at h
  · exact absurd h (by simp)
  split at h
  · exact belowInfinity_ofUnits? h
  · exact belowInfinity_ofUnits? h

/-- **What is read as a decimal is finite.** -/
theorem isFinite_of_readDecimal? {cs : List Char} {x : Binary64} (h : readDecimal? cs = some x) :
    x.isFinite = true := by
  -- with a point or without one, the digits are rounded and get their sign
  have hscaled : ∀ (negative : Bool) (whole fraction rest : List Char),
      (if whole = [] ∧ fraction = [] then none
        else do
          let e ← exponent? rest
          let y ← nearestScaled? (digitsValue 0 (whole ++ fraction)) (e - (fraction.length : Int))
          pure (y.withSign negative)) = some x → x.isFinite = true := by
    intro negative whole fraction rest hread
    split at hread
    next => exact absurd hread (by simp)
    next =>
      simp only [Option.bind_eq_bind, Option.bind_eq_some_iff] at hread
      obtain ⟨e, -, y, hy, hx⟩ := hread
      obtain rfl := Option.some.inj hx
      exact (belowInfinity_nearestScaled? hy).isFinite_withSign negative
  unfold readDecimal? at h
  simp only at h
  split at h
  · exact hscaled _ _ _ _ h
  · exact hscaled _ _ _ _ h

end Decimal

theorem Binary64.isFinite_of_ofInt? {n : Int} {x : Binary64} (h : ofInt? n = some x) :
    x.isFinite = true := by
  unfold ofInt? nearest? at h
  obtain ⟨y, hy, rfl⟩ := Option.map_eq_some_iff.1 h
  exact (belowInfinity_ofUnits? hy).isFinite_withSign _

/-- A number of a JSON text is finite as a floating point number. -/
theorem Json.Number.isFinite_toBinary64 (n : Json.Number) : n.toBinary64.isFinite = true := by
  cases n with
  | integer n inRange =>
    simp only [toBinary64]
    cases h : Binary64.ofInt? n with
    | none => decide
    | some x => exact Binary64.isFinite_of_ofInt? h
  | decimal x finite => exact finite

namespace Value

variable {json : Json} {value : Value} {type : DataType}

theorem orFault_eq_ok {α : Type} {fault : CoerceFault} {o : Option α} {a : α} :
    orFault fault o = .ok a ↔ o = some a := by
  cases o with
  | none => simp [orFault]
  | some b => simp [orFault]

/-! ## What each type gives -/

theorem coerceText_stable (h : coerceText type json = .ok value) :
    coerceText type value.toJson = .ok value := by
  cases json with
  | string s =>
    obtain rfl := Except.ok.inj h
    rfl
  | number n =>
    obtain rfl := Except.ok.inj h
    rfl
  | bool b =>
    obtain rfl := Except.ok.inj h
    rfl
  | null => exact absurd h (by simp [coerceText])
  | array items => exact absurd h (by simp [coerceText])
  | object members => exact absurd h (by simp [coerceText])

theorem coerceInteger_stable (h : coerceInteger json = .ok value) :
    coerceInteger value.toJson = .ok value := by
  have hread : ∀ n, (Json.Number.ofInt64 n).toInt64? = some n := by
    intro n
    have hlt := n.toInt_lt
    have hfits : n.toInt < 9223372036854775808 := by omega
    simp only [Json.Number.ofInt64, Json.Number.toInt64?, hfits, if_true, Int64.ofInt_toInt]
  have hinteger : ∃ n, value = .integer n := by
    unfold coerceInteger at h
    split at h
    · obtain ⟨n, -, rfl⟩ := map_eq_ok.1 h
      exact ⟨n, rfl⟩
    · obtain ⟨n, -, rfl⟩ := map_eq_ok.1 h
      exact ⟨n, rfl⟩
    · exact absurd h (by simp)
  obtain ⟨n, rfl⟩ := hinteger
  simp only [toJson, coerceInteger, hread, orFault, Except.map]

theorem coerceDecimal_stable (h : coerceDecimal json = .ok value) :
    coerceDecimal value.toJson = .ok value := by
  have hfinite : ∃ x, value = .decimal x ∧ x.isFinite = true := by
    unfold coerceDecimal at h
    split at h
    next n =>
      obtain rfl := Except.ok.inj h
      exact ⟨_, rfl, n.isFinite_toBinary64⟩
    next s =>
      obtain ⟨x, hx, rfl⟩ := map_eq_ok.1 h
      exact ⟨x, rfl, Decimal.isFinite_of_readDecimal? (orFault_eq_ok.1 hx)⟩
    · exact absurd h (by simp)
  obtain ⟨x, rfl, hx⟩ := hfinite
  have hnumber : Json.Number.ofBinary64? x = some (.decimal x hx) := dif_pos hx
  simp only [toJson, hnumber, Option.map_some, Option.getD_some, coerceDecimal,
    Json.Number.toBinary64]

theorem coerceBoolean_stable (h : coerceBoolean json = .ok value) :
    coerceBoolean value.toJson = .ok value := by
  have htruth : ∃ b, value = .boolean b := by
    unfold coerceBoolean at h
    split at h
    · exact ⟨_, (Except.ok.inj h).symm⟩
    · obtain ⟨b, -, rfl⟩ := map_eq_ok.1 h
      exact ⟨b, rfl⟩
    · obtain ⟨b, -, rfl⟩ := map_eq_ok.1 h
      exact ⟨b, rfl⟩
    · exact absurd h (by simp)
  obtain ⟨b, rfl⟩ := htruth
  rfl

theorem coerceDate_stable (h : coerceDate json = .ok value) :
    coerceDate value.toJson = .ok value := by
  have hdate : ∃ d, value = .date d := by
    unfold coerceDate at h
    split at h
    · obtain ⟨t, -, rfl⟩ := map_eq_ok.1 h
      exact ⟨t.date, rfl⟩
    · exact absurd h (by simp)
  obtain ⟨d, rfl⟩ := hdate
  simp only [toJson, coerceDate, DateTime.read?_dateText, orFault, Except.map]

theorem coerceDateTime_stable (h : coerceDateTime json = .ok value) :
    coerceDateTime value.toJson = .ok value := by
  have htime : ∃ t, value = .dateTime t := by
    unfold coerceDateTime at h
    split at h
    · obtain ⟨t, -, rfl⟩ := map_eq_ok.1 h
      exact ⟨t, rfl⟩
    · exact absurd h (by simp)
  obtain ⟨t, rfl⟩ := htime
  simp only [toJson, coerceDateTime, DateTime.read?_text, orFault, Except.map]

theorem coerceBinary_stable (h : coerceBinary json = .ok value) :
    coerceBinary value.toJson = .ok value := by
  have hbytes : ∃ bytes, value = .binary bytes := by
    unfold coerceBinary at h
    split at h
    · split at h
      · exact ⟨_, (Except.ok.inj h).symm⟩
      · exact absurd h (by simp)
    · obtain ⟨bytes, -, rfl⟩ := map_eq_ok.1 h
      exact ⟨bytes, rfl⟩
    · exact absurd h (by simp)
  obtain ⟨bytes, rfl⟩ := hbytes
  exact coerceBinary_encode bytes

/-! ## Every type -/

/-- A value that is read is not `null`, which no type reads as a value of its own. -/
theorem ite_isNull_eq_ok {read : Json → Except CoerceFault Value}
    (hnull : ∀ v, read .null ≠ .ok v) (h : read json = .ok value) :
    (if json.isNull = true then .ok .null else read json) = .ok value := by
  cases json with
  | null => exact absurd h (hnull value)
  | bool b => exact h
  | number n => exact h
  | string s => exact h
  | array items => exact h
  | object members => exact h

/-- **Typed values are stable.** A value that was given a type keeps it, and itself, through its
JSON form. -/
theorem coerce_toJson (h : coerce json type = .ok value) :
    coerce value.toJson type = .ok value := by
  unfold coerce at h
  by_cases hnull : json.isNull = true
  · rw [if_pos hnull] at h
    obtain rfl := Except.ok.inj h
    rfl
  rw [if_neg hnull] at h
  unfold coerce
  cases type with
  | text => exact ite_isNull_eq_ok (by simp [coerceText]) (coerceText_stable h)
  | encrypted => exact ite_isNull_eq_ok (by simp [coerceText]) (coerceText_stable h)
  | integer => exact ite_isNull_eq_ok (by simp [coerceInteger]) (coerceInteger_stable h)
  | decimal => exact ite_isNull_eq_ok (by simp [coerceDecimal]) (coerceDecimal_stable h)
  | boolean => exact ite_isNull_eq_ok (by simp [coerceBoolean]) (coerceBoolean_stable h)
  | date => exact ite_isNull_eq_ok (by simp [coerceDate]) (coerceDate_stable h)
  | dateTime => exact ite_isNull_eq_ok (by simp [coerceDateTime]) (coerceDateTime_stable h)
  | binary => exact ite_isNull_eq_ok (by simp [coerceBinary]) (coerceBinary_stable h)

/-- A leap second in a year of five digits, with blanks around it and in place of the `T`. -/
theorem coerce_toJson_leap_second :
    ∃ t, coerce (.string " +12016-12-31 23:59:60.250 ") .dateTime = .ok (.dateTime t) ∧
      (Value.dateTime t).toJson.text = "\"+12016-12-31T23:59:60.250\"" ∧
      coerce (Value.dateTime t).toJson .dateTime = .ok (.dateTime t) := by
  have h : coerce (.string " +12016-12-31 23:59:60.250 ") .dateTime =
      .ok (.dateTime ⟨⟨12016, 12, 31, rfl⟩, ⟨23, 59, 60, 250000000, rfl⟩⟩) := rfl
  exact ⟨_, h, rfl, coerce_toJson h⟩

end Value

end RecordSql
