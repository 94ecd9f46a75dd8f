import RecordSql.Proofs.InsertedValues
import RecordSql.Proofs.PrintedDecimals

/-!
# A value means the same where it is written and where it is searched for

An insert gives a value its type as it is. An example gives it to a predicate first, and the
predicate keeps it as a text; the text is given the type. For numbers and truth values the two ways
are compared here, type by type.

* Text takes either as it is written, and what is written is the text of the predicate.
* Integers, decimals and truth values read the text of a number as the number, and the words for
  truth values as these.
* Neither is a date, and neither is the text of one.
* Bytes are where the two ways part. No number is bytes, but a text of digits is read as bytes in
  hexadecimal. So a natural number with an even number of digits is refused where it is written, and
  searches for the bytes that its digits spell.

Hence what was inserted is found by the value that it was inserted from: the example compares the
column with the value that the insert has bound.
-/

namespace RecordSql

open Text Calendar Checked

/-! ## The two ways -/

/-- A number or a truth value. -/
inductive Json.IsScalar : Json → Prop where
  | number (n : Json.Number) : IsScalar (.number n)
  | bool (b : Bool) : IsScalar (.bool b)

/-- As an example, the value searches a column of the type for a typed value. -/
def Json.SearchesFor (json : Json) (type : DataType) (value : Value) : Prop :=
  ∃ search, Predicate.ofProperty json = .ok (some search) ∧ search.coerce type = .ok (.equals value)

/-- The digits of a number are those of the bytes in hexadecimal. -/
def Json.Spells (json : Json) (bytes : List UInt8) : Prop :=
  ∃ k inRange, json = .number (.integer k inRange) ∧ Hex.encode bytes = toString k

variable {json : Json} {n : Json.Number} {type : DataType} {value : Value} {bytes : List UInt8}

theorem Json.IsScalar.ofProperty (h : json.IsScalar) :
    Predicate.ofProperty json = .ok (some (.equals json.text)) := by
  cases h <;> rfl

/-- A scalar is searched for by its text. -/
theorem Json.IsScalar.searchesFor_iff (h : json.IsScalar) :
    json.SearchesFor type value ↔ Value.coerce (.string json.text) type = .ok value := by
  unfold SearchesFor
  rw [h.ofProperty]
  constructor
  · rintro ⟨search, hs, hc⟩
    obtain rfl := Option.some.inj (Except.ok.inj hs)
    obtain ⟨v, hv, heq⟩ := map_eq_ok.1 hc
    rwa [← Condition.equals.inj heq]
  · intro hv
    refine ⟨_, rfl, ?_⟩
    show (Value.coerce (.string json.text) type).map _ = _
    rw [hv]
    rfl

theorem Json.text_number (n : Json.Number) : Json.text (.number n) = n.text :=
  String.ofList_toList

/-! ## Type by type -/

namespace Value

theorem toOption_map_orFault {α : Type} (fault : CoerceFault) (o : Option α) (typed : α → Value) :
    ((orFault fault o).map typed).toOption = o.map typed := by
  cases o <;> rfl

/-- Every type but bytes takes a number and its text for the same value. -/
theorem toOption_coerce_text_number (ht : type ≠ .binary) :
    (coerce (.string n.text) type).toOption = (coerce (.number n) type).toOption := by
  cases type with
  | text => rfl
  | encrypted => rfl
  | integer =>
    have htext : (coerce (.string n.text) .integer).toOption = (int64Text? n.text).map .integer :=
      toOption_map_orFault ..
    have hnumber : (coerce (.number n) .integer).toOption = n.toInt64?.map .integer :=
      toOption_map_orFault ..
    rw [htext, hnumber, int64Text?_number]
  | decimal =>
    have htext : (coerce (.string n.text) .decimal).toOption =
        (Decimal.readDecimal? (trim n.text.toList)).map .decimal := toOption_map_orFault ..
    have hread : Decimal.readDecimal? n.text.toList = some n.toBinary64 := by
      cases n with
      | integer k inRange =>
        rw [Json.Number.toList_text_integer, Decimal.readDecimal?_integer k inRange]
      | decimal x finite => exact Decimal.readDecimal?_text x finite
    rw [htext, n.isNumeral_text.trim, hread]
    rfl
  | boolean =>
    have htext : (coerce (.string n.text) .boolean).toOption = (truthWord? n.text).map .boolean :=
      toOption_map_orFault (.unfitText n.text .boolean) (truthWord? n.text) .boolean
    have hnumber : (coerce (.number n) .boolean).toOption = (truthNumber? n).map .boolean :=
      toOption_map_orFault ..
    rw [htext, hnumber, truthWord?_number]
  | date =>
    have htext : (coerce (.string n.text) .date).toOption =
        (DateTime.read? n.text.toList).map fun t => .date t.date := toOption_map_orFault ..
    rw [htext, DateTime.read?_numeral n.isNumeral_text]
    rfl
  | dateTime =>
    have htext : (coerce (.string n.text) .dateTime).toOption =
        (DateTime.read? n.text.toList).map .dateTime := toOption_map_orFault ..
    rw [htext, DateTime.read?_numeral n.isNumeral_text]
    rfl
  | binary => exact absurd rfl ht

/-- Every type takes a truth value and its word for the same value. -/
theorem toOption_coerce_text_bool (b : Bool) :
    (coerce (.string (Json.text (.bool b))) type).toOption = (coerce (.bool b) type).toOption := by
  cases b <;> cases type <;> rfl

theorem coerce_eq_ok_iff :
    coerce json type = .ok value ↔ (coerce json type).toOption = some value := by
  cases coerce json type <;> simp [Except.toOption]

end Value

/-! ## Numbers that spell bytes -/

/-- No mark of a number stands among digits. -/
theorem Text.Hex.not_mark_encode (bytes : List UInt8) :
    ∀ c ∈ (encode bytes).toList, c ∉ ['.', '+', '-'] := by
  intro c hc
  obtain ⟨n, hn⟩ := (spells_encode bytes).digits.2 c hc
  simp only [List.mem_cons, List.not_mem_nil, or_false]
  rintro (rfl | rfl | rfl) <;> exact absurd hn.isSome (by decide)

theorem Json.spells_number_iff : (Json.number n).Spells bytes ↔ Hex.encode bytes = n.text := by
  cases n with
  | integer k inRange =>
    constructor
    · rintro ⟨_, _, heq, hk⟩
      obtain rfl := (Json.Number.integer.inj (Json.number.inj heq))
      exact hk
    · exact fun h => ⟨k, inRange, rfl, h⟩
  | decimal x finite =>
    refine iff_of_false (fun ⟨_, _, heq, _⟩ => by cases heq) fun h => ?_
    -- a decimal shows a point or a sign, which are no digits
    have hmarked := (Json.Number.isDecimal_text x finite).marked
    rw [← h] at hmarked
    have hno := Hex.not_mark_encode bytes
    rcases hmarked with hm | hm | hm
    · exact hno _ hm (by decide)
    · exact hno _ hm (by decide)
    · exact hno _ hm (by decide)

/-- **The numbers that spell bytes** are the natural numbers with an even number of digits. -/
theorem Json.exists_spells_iff : (∃ bytes, json.Spells bytes) ↔
    ∃ (k : Nat) (inRange : _), json = .number (.integer k inRange) ∧
      (Nat.toDigits 10 k).length % 2 = 0 := by
  constructor
  · rintro ⟨bytes, k, inRange, rfl, hk⟩
    have htext := Json.Number.toList_text_integer k inRange
    obtain ⟨hlength, -⟩ := (Hex.spells_encode bytes).digits
    have hno := Hex.not_mark_encode bytes
    rw [hk] at hno hlength
    rw [show (Json.Number.integer k inRange).text = toString k from rfl] at htext
    rw [htext] at hno hlength
    by_cases hneg : k < 0
    · rw [if_pos hneg] at hno
      exact absurd (hno '-' List.mem_cons_self) (by decide)
    · obtain ⟨m, rfl⟩ := Int.eq_ofNat_of_zero_le (Int.not_lt.1 hneg)
      rw [if_neg hneg, List.nil_append, Int.natAbs_natCast] at hlength
      exact ⟨m, inRange, rfl, by omega⟩
  · rintro ⟨k, inRange, rfl, hk⟩
    have htext := Json.Number.toList_text_integer k inRange
    rw [if_neg (by omega), List.nil_append, Int.natAbs_natCast] at htext
    obtain ⟨bytes, hspells⟩ :=
      Hex.exists_spells (fun c hc => Hex.exists_isDigit (digits_toDigits k c hc)) hk
    refine ⟨bytes, k, inRange, rfl, ?_⟩
    rw [← hspells.lower, ← htext, Value.lower_numeral (Json.Number.isNumeral_text _),
      String.ofList_toList]
    rfl

/-! ## Both ways together -/

/-- **A scalar searches for what it is written as**, and a number for the bytes that it spells as
well, which it cannot be written as. -/
theorem Json.IsScalar.searchesFor (h : json.IsScalar) :
    json.SearchesFor type value ↔ Value.coerce json type = .ok value ∨
      (type = .binary ∧ ∃ bytes, json.Spells bytes ∧ value = .binary bytes) := by
  rw [h.searchesFor_iff]
  cases h with
  | bool b =>
    rw [Value.coerce_eq_ok_iff, Value.toOption_coerce_text_bool, ← Value.coerce_eq_ok_iff]
    refine (or_iff_left ?_).symm
    rintro ⟨-, bytes, ⟨_, _, heq, _⟩, -⟩
    cases heq
  | number n =>
    rw [Json.text_number]
    by_cases ht : type = .binary
    · subst ht
      have hnumber : Value.coerce (.number n) .binary ≠ .ok value := by
        simp [Value.coerce, Json.isNull, Value.coerceBinary]
      rw [Value.coerce_numeral_binary n.isNumeral_text, or_iff_right hnumber, and_iff_right rfl]
      refine exists_congr fun bytes => ?_
      rw [Json.spells_number_iff, and_comm]
    · rw [Value.coerce_eq_ok_iff, Value.toOption_coerce_text_number ht,
        ← Value.coerce_eq_ok_iff]
      exact (or_iff_left fun hbinary => ht hbinary.1).symm

namespace Builder

variable {b : Builder} {e : Entity} {f : Field} {c : Cell}

/-- A scalar asks for no current time, so it is bound. -/
theorem Expresses.binding? (hs : json.IsScalar) (h : b.Expresses f json c) :
    ∃ value, Value.coerce json f.dataType = .ok value ∧
      c.binding? = some (.input value f.dataType) := by
  cases h with
  | now hnow =>
    obtain ⟨_, hsentinel⟩ := hnow
    cases hs <;> cases hsentinel
  | bound _ _ hv => exact ⟨_, hv, rfl⟩
  | sealed hf hv _ _ => exact ⟨_, hv, by rw [hf]; rfl⟩

/-- What can be written into a column can be read from it, in clear. -/
theorem Expresses.exists_readField (h : b.Expresses f json c) :
    ∃ operand, b.readField f = .ok operand := by
  have hplain : f.dataType ≠ .encrypted → ∃ operand, b.readField f = .ok operand :=
    fun hf => ⟨_, readField_eq_ok.2 (.inl ⟨hf, rfl⟩)⟩
  cases h with
  | now hnow => exact hplain fun hf => not_asksForNow_of_encrypted hf hnow
  | bound _ hf _ => exact hplain hf
  | sealed hf _ hd hk => exact ⟨_, readField_eq_ok.2 (.inr ⟨hf, hd, by rw [hk]; rfl, rfl⟩)⟩

/-- An example with a value that searches for a typed value compares the column with that. -/
theorem exampleCondition_searchesFor {operand : Sql} (he : e.value? f.name = some json)
    (hs : json.SearchesFor f.dataType value) (ho : b.readField f = .ok operand) :
    b.exampleCondition e f =
      .ok (some (operand ++ .text " = " :: Condition.bound f.dataType value)) := by
  obtain ⟨search, hsearch, hc⟩ := hs
  have hp : examplePredicate e f = .ok (some search) := by
    unfold examplePredicate
    rw [he]
    show (Predicate.ofProperty json).mapError _ = _
    rw [hsearch]
    rfl
  exact exampleCondition_eq_ok.2 (.inr ⟨search, _, operand, hp, hc, ho, rfl⟩)

/-- **What is written is what is searched for.** A number or a truth value searches a column for the
values that it is written as, and beyond these a natural number with an even number of digits
searches a column of bytes for those that its digits spell.

What an insert was given is found by it: where a scalar property is inserted, it is bound as a
value, and every example with that property compares the column, read in clear, with the same
binding. -/
theorem example_values (hs : json.IsScalar) :
    (∀ type value, json.SearchesFor type value ↔ Value.coerce json type = .ok value ∨
      (type = .binary ∧ ∃ bytes, json.Spells bytes ∧ value = .binary bytes)) ∧
    ((∃ bytes, json.Spells bytes) ↔ ∃ (k : Nat) (inRange : _),
      json = .number (.integer k inRange) ∧ (Nat.toDigits 10 k).length % 2 = 0) ∧
    ∀ (b : Builder) (e : Entity) s, b.insert e = .ok s → ∃ row, b.InsertsRow e row s ∧
      ∀ x ∈ row, e.value? x.field.name = some json → ∃ value operand,
        Value.coerce json x.field.dataType = .ok value ∧
        x.cell.binding? = some (.input value x.field.dataType) ∧
        b.readField x.field = .ok operand ∧
        ∀ e' : Entity, e'.value? x.field.name = some json → b.exampleCondition e' x.field =
          .ok (some (operand ++ .text " = " :: Condition.bound x.field.dataType value)) := by
  refine ⟨fun type value => hs.searchesFor, Json.exists_spells_iff, fun b e s h => ?_⟩
  obtain ⟨row, hrow⟩ := exists_insertsRow h
  refine ⟨row, hrow, fun x hx hvalue => ?_⟩
  obtain ⟨json', hj, hc⟩ := hrow.cells x hx
  have hpresent : e.present? x.field.name = some json := by
    have hnull : json.isNull = false := by cases hs <;> rfl
    rw [Entity.present?, hvalue, Option.filter_some, hnull]
    rfl
  rw [insertValue?, hpresent] at hj
  obtain rfl := Option.some.inj hj
  obtain ⟨value, hcoerce, hbinding⟩ := hc.binding? hs
  obtain ⟨operand, ho⟩ := hc.exists_readField
  exact ⟨value, operand, hcoerce, hbinding, ho, fun e' he' =>
    exampleCondition_searchesFor he' (hs.searchesFor.2 (.inl hcoerce)) ho⟩

/-- Two and a half. -/
def twoAndHalf : Json := .number (.decimal ⟨0x4004000000000000⟩ (by decide))

/-- A level that is noted in clear and in secret. -/
def level : Entity where
  table := "Levels"
  fields := [{ Field.new "Id" .integer with isKey := true }, .new "Depth" .decimal,
    .new "Noted" .encrypted]
  properties := ⟨[("Depth", twoAndHalf), ("Noted", twoAndHalf)], by decide⟩

theorem example_values_level :
    twoAndHalf.IsScalar ∧
    twoAndHalf.SearchesFor .decimal (.decimal ⟨0x4004000000000000⟩) ∧
    ∃ s row, noteBuilder.insert level = .ok s ∧
      s.bindValues = [.decimal ⟨0x4004000000000000⟩, .text "2.5"] ∧
      noteBuilder.InsertsRow level row s ∧
      ∀ x ∈ row, level.value? x.field.name = some twoAndHalf → ∃ value operand,
        x.cell.binding? = some (.input value x.field.dataType) ∧
        noteBuilder.exampleCondition level x.field =
          .ok (some (operand ++ .text " = " :: Condition.bound x.field.dataType value)) := by
  have hs : twoAndHalf.IsScalar := .number _
  obtain ⟨hsearch, -, hinsert⟩ := example_values hs
  obtain ⟨s, hrun⟩ : ∃ s, noteBuilder.insert level = .ok s := ⟨_, rfl⟩
  obtain ⟨row, hrow, hfound⟩ := hinsert noteBuilder level s hrun
  refine ⟨hs, (hsearch _ _).2 (.inl rfl), s, row, hrun, ?_, hrow, fun x hx hvalue => ?_⟩
  · obtain rfl := Except.ok.inj hrun
    decide +kernel
  · obtain ⟨value, operand, -, hbinding, -, hcondition⟩ := hfound x hx hvalue
    exact ⟨value, operand, hbinding, hcondition level hvalue⟩

/-- A file whose digest is given as a number. -/
def digestFile : Entity where
  table := "Files"
  fields := [{ Field.new "Id" .integer with isKey := true }, .new "Digest" .binary]
  properties := ⟨[("Digest", .number (.integer 12 (by decide)))], by decide⟩

/-- **Twelve is refused as bytes, and searches for the byte eighteen.** -/
theorem digits_searched_as_bytes :
    ¬ (Json.SearchesFor (.number (.integer 12 (by decide))) .binary (.binary [0x12]) ↔
      Value.coerce (.number (.integer 12 (by decide))) .binary = .ok (.binary [0x12])) ∧
    (∃ s, Builder.default.selectByExample digestFile .and = .ok s ∧
      s.text = "SELECT t0.Id, t0.Digest FROM Files t0 WHERE t0.Digest = @p0" ∧
      s.bindValues = [.binary [0x12]]) ∧
    ∃ err, Builder.default.insert digestFile = .error err := by
  refine ⟨fun h => ?_, ⟨_, rfl, by decide +kernel, by decide +kernel⟩, _, rfl⟩
  have hsearch : Json.SearchesFor (.number (.integer 12 (by decide))) .binary (.binary [0x12]) :=
    ⟨_, rfl, rfl⟩
  exact absurd (h.1 hsearch) (by simp [Value.coerce, Json.isNull, Value.coerceBinary])

end Builder

end RecordSql
