import Mathlib.Data.Nat.Digits.Defs
import Mathlib.Data.Option.Basic
import RecordSql.Proofs.NumberText
import RecordSql.Proofs.ValueTypes

/-!
# Integers are exact

An integer column takes the integers of sixty-four bits and nothing that would have to be made to
fit. What a text says is defined apart from how it is read: `Decimal.Denotes` gives its integer as
the sum of its digits by place, with the sign that stands in front. Reading goes from the left and
counts up.

* A text is taken for the integer that it denotes, however many zeros it starts with, when that lies
  between −2⁶³ and 2⁶³ − 1. Any other text is refused.
* A number is taken when it is held as an integer in that range. So a decimal is refused, also a
  whole one, and so is what only an unsigned integer can hold.
* A list or a range is taken when all its values are, and keeps them in order.
* Null comes from `null` alone, whatever the type.
-/

namespace RecordSql

open Text Calendar Checked

/-! ## What a text denotes -/

namespace Decimal

/-- The number that digits stand for, the last one counting ones, the one before it tens. -/
def placeValue (ds : List Char) : Nat := Nat.ofDigits 10 (ds.reverse.map digitValue)

/-- A text denotes an integer: one or more digits, with a sign in front or without one. -/
inductive Denotes : List Char → Int → Prop where
  | bare {ds : List Char} : ds ≠ [] → Digits ds → Denotes ds (placeValue ds)
  | plus {ds : List Char} : ds ≠ [] → Digits ds → Denotes ('+' :: ds) (placeValue ds)
  | minus {ds : List Char} : ds ≠ [] → Digits ds → Denotes ('-' :: ds) (-placeValue ds)

variable {cs ds : List Char} {n : Int} {m : Nat}

theorem placeValue_append_singleton (ds : List Char) (c : Char) :
    placeValue (ds ++ [c]) = 10 * placeValue ds + digitValue c := by
  rw [placeValue, List.reverse_append, List.reverse_singleton, List.singleton_append,
    List.map_cons, Nat.ofDigits_cons, Nat.add_comm]
  rfl

/-- Counting up from the left gives the sum by place. -/
theorem digitsValue_eq_placeValue (ds : List Char) : digitsValue 0 ds = placeValue ds := by
  induction ds using List.reverseRecOn with
  | nil => rfl
  | append_singleton ds c ih =>
    rw [placeValue_append_singleton, ← ih, digitsValue, digitsValue, List.foldl_append]
    rfl

theorem wholeNumber?_eq_some :
    wholeNumber? ds = some m ↔ (ds ≠ [] ∧ Digits ds) ∧ placeValue ds = m := by
  have hall : (ds ≠ [] ∧ ds.all Char.isDigit = true) ↔ (ds ≠ [] ∧ Digits ds) :=
    and_congr_right fun _ => List.all_eq_true
  rw [← hall, ← digitsValue_eq_placeValue]
  unfold wholeNumber?
  split
  next h => rw [Option.some.injEq, and_iff_right h]
  next h => exact iff_of_false (by simp) fun hds => h hds.1

theorem readInteger?_eq (cs : List Char) : readInteger? cs =
    (wholeNumber? (sign cs).2).map fun k : Nat =>
      if (sign cs).1 then -(k : Int) else (k : Int) := by
  rw [readInteger?]
  dsimp only
  cases wholeNumber? (sign cs).2 <;> rfl

/-- **The reader finds the integer that a text denotes.** -/
theorem readInteger?_eq_some : readInteger? cs = some n ↔ Denotes cs n := by
  rw [readInteger?_eq]
  constructor
  · intro h
    obtain ⟨m, hm, rfl⟩ := Option.map_eq_some_iff.1 h
    obtain ⟨⟨hne, hds⟩, rfl⟩ := wholeNumber?_eq_some.1 hm
    -- a sign is what the text starts with, or the text is digits from the start
    generalize hs : sign cs = signed at hne hds ⊢
    unfold sign at hs
    split at hs
    next =>
      obtain rfl := hs
      exact .minus hne hds
    next =>
      obtain rfl := hs
      exact .plus hne hds
    next =>
      obtain rfl := hs
      exact .bare hne hds
  · intro h
    cases h with
    | bare hne hds =>
      rw [sign_digits hds, wholeNumber?_eq_some.2 ⟨⟨hne, hds⟩, rfl⟩]
      rfl
    | plus hne hds =>
      rw [sign, wholeNumber?_eq_some.2 ⟨⟨hne, hds⟩, rfl⟩]
      rfl
    | minus hne hds =>
      rw [sign, wholeNumber?_eq_some.2 ⟨⟨hne, hds⟩, rfl⟩]
      rfl

end Decimal

/-! ## What a value holds -/

/-- An integer that sixty-four bits hold, sign included. -/
def FitsInt64 (n : Int) : Prop := -2 ^ 63 ≤ n ∧ n < 2 ^ 63

theorem fitsInt64_iff {n : Int} :
    FitsInt64 n ↔ -9223372036854775808 ≤ n ∧ n < 9223372036854775808 := Iff.rfl

namespace Value

/-- The value is the integer, which it did not have to wrap. -/
def IsInteger (v : Value) (n : Int) : Prop := ∃ k : Int64, v = .integer k ∧ k.toInt = n

/-- The text, without blanks around it, denotes an integer that fits, and the value is that. -/
def IsWritten (text : String) (v : Value) : Prop :=
  ∃ n, Decimal.Denotes (trim text.toList) n ∧ FitsInt64 n ∧ v.IsInteger n

variable {json : Json} {v : Value} {n : Int} {text : String} {number : Json.Number}

theorem isInteger_iff (h : FitsInt64 n) : v.IsInteger n ↔ v = .integer (Int64.ofInt n) := by
  have hn : (Int64.ofInt n).toInt = n := Int64.toInt_ofInt_of_le h.1 h.2
  constructor
  · rintro ⟨k, rfl, rfl⟩
    rw [Int64.ofInt_toInt]
  · rintro rfl
    exact ⟨_, rfl, hn⟩

theorem int64Text?_eq_some {k : Int64} :
    int64Text? text = some k ↔
      ∃ n, Decimal.Denotes (trim text.toList) n ∧ FitsInt64 n ∧ Int64.ofInt n = k := by
  unfold int64Text?
  constructor
  · intro h
    split at h
    next n hn =>
      split at h
      next hfits =>
        exact ⟨n, Decimal.readInteger?_eq_some.1 hn, fitsInt64_iff.2 hfits, Option.some.inj h⟩
      next => exact absurd h (by simp)
    next => exact absurd h (by simp)
  · rintro ⟨n, hn, hfits, rfl⟩
    rw [Decimal.readInteger?_eq_some.2 hn]
    exact if_pos (fitsInt64_iff.1 hfits)

/-- **A text is taken for the integer that it denotes.** -/
theorem coerce_text_integer : coerce (.string text) .integer = .ok v ↔ IsWritten text v := by
  have hread : coerce (.string text) .integer = .ok v ↔
      ∃ k, int64Text? text = some k ∧ .integer k = v := by
    refine map_eq_ok.trans (exists_congr fun k => ?_)
    rw [orFault_eq_ok]
  rw [hread]
  constructor
  · rintro ⟨k, hk, rfl⟩
    obtain ⟨n, hn, hfits, rfl⟩ := int64Text?_eq_some.1 hk
    exact ⟨n, hn, hfits, (isInteger_iff hfits).2 rfl⟩
  · rintro ⟨n, hn, hfits, hv⟩
    exact ⟨_, int64Text?_eq_some.2 ⟨n, hn, hfits, rfl⟩, ((isInteger_iff hfits).1 hv).symm⟩

/-- **A number is taken when it is held as an integer that fits.** -/
theorem coerce_number_integer : coerce (.number number) .integer = .ok v ↔
    ∃ n inRange, number = .integer n inRange ∧ FitsInt64 n ∧ v.IsInteger n := by
  have hread : coerce (.number number) .integer = .ok v ↔
      ∃ k, number.toInt64? = some k ∧ .integer k = v := by
    refine map_eq_ok.trans (exists_congr fun k => ?_)
    rw [orFault_eq_ok]
  rw [hread]
  constructor
  · rintro ⟨k, hk, rfl⟩
    cases number with
    | integer n inRange =>
      rw [Json.Number.toInt64?] at hk
      split at hk
      next hlt =>
        have hfits : FitsInt64 n := fitsInt64_iff.2 ⟨inRange.1, hlt⟩
        obtain rfl := Option.some.inj hk
        exact ⟨n, inRange, rfl, hfits, (isInteger_iff hfits).2 rfl⟩
      next => exact absurd hk (by simp)
    | decimal x finite => exact absurd hk (by simp [Json.Number.toInt64?])
  · rintro ⟨n, inRange, rfl, hfits, hv⟩
    exact ⟨_, if_pos (fitsInt64_iff.1 hfits).2, ((isInteger_iff hfits).1 hv).symm⟩

/-- A number that is not taken is refused as no integer. -/
theorem coerce_number_refused (h : ∀ n inRange, number = .integer n inRange → ¬ FitsInt64 n) :
    coerce (.number number) .integer = .error (.unfitNumber number .integer) := by
  have hnone : number.toInt64? = none := by
    cases number with
    | integer n inRange =>
      have hlarge : ¬ n < 9223372036854775808 := fun hlt =>
        h n inRange rfl (fitsInt64_iff.2 ⟨inRange.1, hlt⟩)
      exact if_neg hlarge
    | decimal x finite => rfl
  show (orFault _ number.toInt64?).map _ = _
  rw [hnone]
  rfl

/-! ## Predicates -/

theorem typed_integer : Predicate.typed .integer text = .ok v ↔ IsWritten text v :=
  coerce_text_integer

/-- A list is taken item by item. -/
theorem coerce_list_integer {items : List String} {c : Condition} :
    (Predicate.list items).coerce .integer = .ok c ↔
      ∃ values, c = .oneOf values ∧ List.Forall₂ IsWritten items values := by
  refine map_eq_ok.trans (exists_congr fun values => ?_)
  simp only [Predicate.typedItems_eq_ok, typed_integer]
  rw [and_comm, eq_comm]

theorem typedBound_integer {bound : Option String} {value : Option Value} :
    Predicate.typedBound .integer bound = .ok value ↔ Option.Rel IsWritten bound value := by
  rw [Predicate.typedBound_eq_ok]
  constructor
  · rintro (⟨rfl, rfl⟩ | ⟨text, v, rfl, hv, rfl⟩)
    · exact .none
    · exact .some (typed_integer.1 hv)
  · intro h
    cases h with
    | none => exact .inl ⟨rfl, rfl⟩
    | some hv => exact .inr ⟨_, _, rfl, typed_integer.2 hv, rfl⟩

/-- A range is taken bound by bound. -/
theorem coerce_range_integer {lower upper : Option String} {c : Condition}
    (h : lower.isSome ∨ upper.isSome) :
    (Predicate.range lower upper).coerce .integer = .ok c ↔
      ∃ l u, c = .range l u ∧ Option.Rel IsWritten lower l ∧ Option.Rel IsWritten upper u := by
  rw [Predicate.coerce_range_eq_ok]
  constructor
  · rintro ⟨-, l, hl, u, hu, rfl⟩
    exact ⟨l, u, rfl, typedBound_integer.1 hl, typedBound_integer.1 hu⟩
  · rintro ⟨l, u, rfl, hl, hu⟩
    exact ⟨h, l, typedBound_integer.2 hl, u, typedBound_integer.2 hu, rfl⟩

/-! ## All of it -/

theorem exists_values {items : List String} (h : ∀ text ∈ items, ∃ v, IsWritten text v) :
    ∃ values, List.Forall₂ IsWritten items values := by
  induction items with
  | nil => exact ⟨[], .nil⟩
  | cons text items ih =>
    obtain ⟨⟨v, hv⟩, hitems⟩ := List.forall_mem_cons.1 h
    obtain ⟨values, hvalues⟩ := ih hitems
    exact ⟨v :: values, .cons hv hvalues⟩

theorem exists_boundValue {bound : Option String} :
    (∃ value, Option.Rel IsWritten bound value) ↔ ∀ text ∈ bound, ∃ v, IsWritten text v := by
  constructor
  · rintro ⟨value, hvalue⟩ text rfl
    cases hvalue with
    | some hv => exact ⟨_, hv⟩
  · intro h
    cases bound with
    | none => exact ⟨none, .none⟩
    | some text =>
      obtain ⟨v, hv⟩ := h text rfl
      exact ⟨some v, .some hv⟩

/-- **Integers are exact.** A text gives the integer that it denotes and a number the one that it
holds, both when it fits, and neither gives any other; what only an unsigned integer holds is
refused, and so is every decimal. Only `null` gives null. A list gives its items and a range its
bounds, in order and none left out, just when all of them are integers. -/
theorem integers_exact :
    (∀ text v, coerce (.string text) .integer = .ok v ↔ IsWritten text v) ∧
    (∀ number v, coerce (.number number) .integer = .ok v ↔
      ∃ n inRange, number = .integer n inRange ∧ FitsInt64 n ∧ v.IsInteger n) ∧
    (∀ n inRange, 2 ^ 63 ≤ n → coerce (.number (.integer n inRange)) .integer =
      .error (.unfitNumber (.integer n inRange) .integer)) ∧
    (∀ x finite, coerce (.number (.decimal x finite)) .integer =
      .error (.unfitNumber (.decimal x finite) .integer)) ∧
    (∀ json type, coerce json type = .ok .null ↔ json = .null) ∧
    (∀ items c, (Predicate.list items).coerce .integer = .ok c ↔
      ∃ values, c = .oneOf values ∧ List.Forall₂ IsWritten items values) ∧
    (∀ items, (∃ c, (Predicate.list items).coerce .integer = .ok c) ↔
      ∀ text ∈ items, ∃ v, IsWritten text v) ∧
    (∀ lower upper c, lower.isSome ∨ upper.isSome →
      ((Predicate.range lower upper).coerce .integer = .ok c ↔
        ∃ l u, c = .range l u ∧ Option.Rel IsWritten lower l ∧ Option.Rel IsWritten upper u)) ∧
    (∀ lower upper, lower.isSome ∨ upper.isSome →
      ((∃ c, (Predicate.range lower upper).coerce .integer = .ok c) ↔
        (∀ text ∈ lower, ∃ v, IsWritten text v) ∧ ∀ text ∈ upper, ∃ v, IsWritten text v)) := by
  refine ⟨fun _ _ => coerce_text_integer, fun _ _ => coerce_number_integer, ?_, ?_,
    fun _ _ => coerce_eq_null_iff, fun _ _ => coerce_list_integer, fun items => ?_,
    fun _ _ _ h => coerce_range_integer h, fun lower upper h => ?_⟩
  · intro n inRange hlarge
    refine coerce_number_refused fun m _ heq hfits => ?_
    obtain rfl := Json.Number.integer.inj heq
    exact absurd hfits.2 (Int.not_lt.2 hlarge)
  · intro x finite
    exact coerce_number_refused fun n _ heq => by cases heq
  · constructor
    · rintro ⟨c, hc⟩ text htext
      obtain ⟨values, -, hvalues⟩ := coerce_list_integer.1 hc
      obtain ⟨v, -, hv⟩ := exists_right_of_forall₂ hvalues htext
      exact ⟨v, hv⟩
    · intro hitems
      obtain ⟨values, hvalues⟩ := exists_values hitems
      exact ⟨_, coerce_list_integer.2 ⟨values, rfl, hvalues⟩⟩
  · simp only [coerce_range_integer h, ← exists_boundValue]
    constructor
    · rintro ⟨c, l, u, -, hl, hu⟩
      exact ⟨⟨l, hl⟩, u, hu⟩
    · rintro ⟨⟨l, hl⟩, u, hu⟩
      exact ⟨_, l, u, rfl, hl, hu⟩

/-- The lowest integer, with zeros and blanks, is a bound of a range; the one above the highest is
none. -/
theorem integers_exact_limits :
    (Predicate.range (some " -0009223372036854775808") none).coerce .integer =
        .ok (.range (some (.integer Int64.minValue)) none) ∧
      ¬ ∃ c,
        (Predicate.range (some "0") (some "+9223372036854775808")).coerce .integer = .ok c := by
  obtain ⟨htext, -, -, -, -, -, -, hrange, haccepts⟩ := integers_exact
  constructor
  · refine (hrange _ _ _ (.inl rfl)).2 ⟨_, _, rfl, .some ?_, .none⟩
    exact (htext _ _).1 rfl
  · rw [haccepts _ _ (.inl rfl)]
    rintro ⟨-, hupper⟩
    obtain ⟨v, hv⟩ := hupper _ rfl
    have hrefused : coerce (.string "+9223372036854775808") .integer =
        .error (.unfitText "+9223372036854775808" .integer) := rfl
    exact absurd (hrefused.symm.trans ((htext _ _).2 hv)) (by simp)

end Value

end RecordSql
