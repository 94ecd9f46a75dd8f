import Mathlib.Data.Set.List
import RecordSql.Proofs.HexDigits

/-!
# The ways to write bytes

Bytes are given as an array of numbers, or as a text of hexadecimal digits.

* A mark in front of the digits is taken off once. It is no part of them, as an `x` is no digit.
* Whichever way bytes were given, they are printed in lower-case digits. For a text this is the text
  itself, its mark and its upper-case letters apart.
-/

namespace RecordSql

open Text Checked

/-! ## Marks -/

namespace Value

/-- What may stand in front of hexadecimal digits. -/
def hexMarks : List (List Char) := [[], ['0', 'x'], ['0', 'X']]

variable {mark digits : List Char} {v : Value}

/-- A mark is taken off where there is one. -/
theorem exists_hexMark (cs : List Char) : ∃ mark ∈ hexMarks, cs = mark ++ withoutHexMark cs := by
  unfold withoutHexMark
  split
  · exact ⟨['0', 'x'], by decide, rfl⟩
  · exact ⟨['0', 'X'], by decide, rfl⟩
  · exact ⟨[], by decide, rfl⟩

/-- Digits have no mark in them. -/
theorem withoutHexMark_digits (h : ∀ c ∈ digits, ∃ n, Hex.IsDigit c n) :
    withoutHexMark digits = digits := by
  unfold withoutHexMark
  split
  next =>
    obtain ⟨n, hx⟩ := h 'x' (by simp)
    exact absurd hx.isSome (by decide)
  next =>
    obtain ⟨n, hx⟩ := h 'X' (by simp)
    exact absurd hx.isSome (by decide)
  next => rfl

theorem withoutHexMark_append (hmark : mark ∈ hexMarks) (h : ∀ c ∈ digits, ∃ n, Hex.IsDigit c n) :
    withoutHexMark (mark ++ digits) = digits := by
  simp only [hexMarks, List.mem_cons, List.not_mem_nil, or_false] at hmark
  rcases hmark with rfl | rfl | rfl
  · exact withoutHexMark_digits h
  · rfl
  · rfl

theorem unpadded_marked (hmark : mark ∈ hexMarks) (h : ∀ c ∈ digits, ∃ n, Hex.IsDigit c n) :
    Unpadded (mark ++ digits) := by
  have hmarks : ∀ mark ∈ hexMarks, mark.any isBlank = false := by decide
  refine .of_not_blank fun c hc => ?_
  rcases List.mem_append.1 hc with hc | hc
  · exact Bool.eq_false_iff.2 (List.any_eq_false.1 (hmarks mark hmark) c hc)
  · obtain ⟨n, hn⟩ := h c hc
    exact hn.not_blank

/-! ## Texts and arrays -/

/-- A text is no `null`, so its type reads it. -/
theorem coerce_string_binary (s : String) :
    coerce (.string s) .binary = coerceBinary (.string s) :=
  if_neg Bool.false_ne_true

/-- A text is taken for the bytes that it spells without its mark. -/
theorem coerceBinary_text {s : String} : coerceBinary (.string s) = .ok v ↔
    ∃ bytes, Hex.Spells (withoutHexMark (trim s.toList)) bytes ∧ v = .binary bytes := by
  rw [coerceBinary]
  split
  next bytes hdecode =>
    constructor
    · intro h
      exact ⟨bytes, Hex.decode_iff_spells.1 hdecode, (Except.ok.inj h).symm⟩
    · rintro ⟨bytes', hspells, rfl⟩
      rw [Except.ok.inj (hdecode.symm.trans hspells.decode)]
  next fault hdecode =>
    refine iff_of_false (by simp) ?_
    rintro ⟨bytes, hspells, -⟩
    exact absurd (hdecode.symm.trans hspells.decode) (by simp)

/-- **A text is taken for the bytes that it spells behind its mark.** -/
theorem coerce_text_binary {s : String} : coerce (.string s) .binary = .ok v ↔
    ∃ mark ∈ hexMarks, ∃ digits bytes, trim s.toList = mark ++ digits ∧
      Hex.Spells digits bytes ∧ v = .binary bytes := by
  rw [coerce_string_binary, coerceBinary_text]
  constructor
  · rintro ⟨bytes, hspells, rfl⟩
    obtain ⟨mark, hmark, hs⟩ := exists_hexMark (trim s.toList)
    exact ⟨mark, hmark, _, bytes, hs, hspells, rfl⟩
  · rintro ⟨mark, hmark, digits, bytes, hs, hspells, rfl⟩
    refine ⟨bytes, ?_, rfl⟩
    rwa [hs, withoutHexMark_append hmark hspells.digits.2]

end Value

/-- A byte as a JSON number. -/
def Json.ofByte (b : UInt8) : Json :=
  .number (.integer b.toNat (by have := b.toNat_lt; constructor <;> omega))

namespace Value

variable {items : List Json} {digits : List Char} {bs : List UInt8} {v : Value}

theorem byte?_eq_some {item : Json} {b : UInt8} : byte? item = some b ↔ item = Json.ofByte b := by
  constructor
  · intro h
    unfold byte? at h
    split at h
    next n =>
      obtain ⟨k, hk, h⟩ := Option.bind_eq_some_iff.1 h
      split at h
      next hlt =>
        obtain rfl := Option.some.inj h
        cases n with
        | integer m inRange =>
          rw [Json.Number.toNat?] at hk
          split at hk
          next hm =>
            obtain rfl := Option.some.inj hk
            have hbyte : ((UInt8.ofNat m.toNat).toNat : Int) = m := by
              rw [UInt8.toNat_ofNat_of_lt' hlt]
              exact Int.toNat_of_nonneg hm
            simp only [Json.ofByte, hbyte]
          next => exact absurd hk (by simp)
        | decimal x finite => exact absurd hk (by simp [Json.Number.toNat?])
      next => exact absurd h (by simp)
    next => exact absurd h (by simp)
  · rintro rfl
    have hnat : ∀ h, (Json.Number.integer b.toNat h).toNat? = some b.toNat := by
      intro h
      rw [Json.Number.toNat?, if_pos (Int.natCast_nonneg _), Int.toNat_natCast]
    rw [Json.ofByte, byte?, hnat, Option.bind_some, if_pos b.toNat_lt, UInt8.ofNat_toNat]

/-- An array is taken when its items are bytes. -/
theorem bytes_eq_ok : bytes items = .ok bs ↔ items = bs.map Json.ofByte := by
  induction items generalizing bs with
  | nil => rw [bytes, Except.ok.injEq, eq_comm, eq_comm (a := []), List.map_eq_nil_iff]
  | cons item items ih =>
    rw [bytes]
    constructor
    · intro h
      cases hb : byte? item with
      | none =>
        rw [hb] at h
        exact absurd h (by simp)
      | some b =>
        rw [hb] at h
        obtain ⟨bs', hbs, rfl⟩ := map_eq_ok.1 h
        rw [List.map_cons, ← byte?_eq_some.1 hb, ← ih.1 hbs]
    · intro h
      obtain ⟨b, bs', rfl, hb, hbs⟩ := List.map_eq_cons_iff.1 h.symm
      rw [byte?_eq_some.2 hb.symm]
      exact map_eq_ok.2 ⟨bs', ih.2 hbs.symm, rfl⟩

/-- **An array is taken for the bytes that its numbers are.** -/
theorem coerce_array_binary : coerce (.array items) .binary = .ok v ↔
    ∃ bs, items = bs.map Json.ofByte ∧ v = .binary bs := by
  refine map_eq_ok.trans (exists_congr fun bs => ?_)
  rw [bytes_eq_ok, eq_comm (b := v)]

/-- The numbers that are bytes. -/
theorem exists_ofByte_iff {item : Json} : (∃ b, Json.ofByte b = item) ↔
    ∃ n inRange, item = .number (.integer n inRange) ∧ 0 ≤ n ∧ n ≤ 255 := by
  constructor
  · rintro ⟨b, rfl⟩
    have hlt := b.toNat_lt
    exact ⟨b.toNat, _, rfl, by omega, by omega⟩
  · rintro ⟨n, inRange, rfl, hlow, hhigh⟩
    have hbyte : ((UInt8.ofNat n.toNat).toNat : Int) = n := by
      rw [UInt8.toNat_ofNat_of_lt' (by rw [UInt8.size]; omega)]
      exact Int.toNat_of_nonneg hlow
    refine ⟨UInt8.ofNat n.toNat, ?_⟩
    simp only [Json.ofByte, hbyte]

theorem exists_map_ofByte_iff : (∃ bs : List UInt8, items = bs.map Json.ofByte) ↔
    ∀ item ∈ items, ∃ n inRange, item = .number (.integer n inRange) ∧ 0 ≤ n ∧ n ≤ 255 := by
  have hrange : items ∈ Set.range (List.map Json.ofByte) ↔
      ∀ item ∈ items, item ∈ Set.range Json.ofByte := by
    rw [Set.range_list_map]
    rfl
  simp only [Set.mem_range, exists_ofByte_iff] at hrange
  rw [← hrange]
  exact exists_congr fun bs => eq_comm

/-- Bytes are printed as the lower-case form of whatever spells them. -/
theorem toJson_binary (h : Hex.Spells digits bs) :
    (Value.binary bs).toJson = .string (String.ofList (lower digits)) :=
  congrArg Json.string h.lower.symm

/-! ## All ways together -/

/-- **All ways to write bytes agree.** The array of their numbers and every text that spells them,
behind a mark or not and with blanks around it or not, give the same bytes. Nothing else is taken:
of the texts, an even number of digits behind one mark at most; of the arrays, those of integers
from 0 to 255. And whichever way they came, bytes are printed as the lower-case form of the
digits. -/
theorem bytes_agree :
    (∀ bs : List UInt8, coerce (.array (bs.map Json.ofByte)) .binary = .ok (.binary bs)) ∧
    (∀ left mark digits right bs, Blank left → mark ∈ hexMarks → Hex.Spells digits bs →
      Blank right →
      coerce (.string (String.ofList (left ++ (mark ++ digits) ++ right))) .binary =
        .ok (.binary bs)) ∧
    (∀ s, (∃ v, coerce (.string s) .binary = .ok v) ↔
      ∃ mark ∈ hexMarks, ∃ digits, trim s.toList = mark ++ digits ∧ digits.length % 2 = 0 ∧
        ∀ c ∈ digits, ∃ n, Hex.IsDigit c n) ∧
    (∀ items, (∃ v, coerce (.array items) .binary = .ok v) ↔
      ∀ item ∈ items, ∃ n inRange, item = .number (.integer n inRange) ∧ 0 ≤ n ∧ n ≤ 255) ∧
    (∀ s v, coerce (.string s) .binary = .ok v ↔
      ∃ mark ∈ hexMarks, ∃ digits bs, trim s.toList = mark ++ digits ∧ Hex.Spells digits bs ∧
        v = .binary bs ∧ v.toJson = .string (String.ofList (lower digits))) ∧
    (∀ items v, coerce (.array items) .binary = .ok v ↔ ∃ bs, items = bs.map Json.ofByte ∧
      v = .binary bs ∧ ∃ digits, Hex.Spells digits bs ∧ lower digits = digits ∧
        v.toJson = .string (String.ofList digits)) := by
  refine ⟨fun bs => coerce_array_binary.2 ⟨bs, rfl, rfl⟩, ?_, fun s => ?_, fun items => ?_,
    fun s v => ?_, fun items v => ?_⟩
  · intro left mark digits right bs hleft hmark hspells hright
    refine coerce_text_binary.2 ⟨mark, hmark, digits, bs, ?_, hspells, rfl⟩
    rw [String.toList_ofList]
    exact trim_padded hleft (unpadded_marked hmark hspells.digits.2) hright
  · constructor
    · rintro ⟨v, hv⟩
      obtain ⟨mark, hmark, digits, bs, hs, hspells, -⟩ := coerce_text_binary.1 hv
      obtain ⟨hlength, hdigits⟩ := hspells.digits
      exact ⟨mark, hmark, digits, hs, by omega, hdigits⟩
    · rintro ⟨mark, hmark, digits, hs, hlength, hdigits⟩
      obtain ⟨bs, hspells⟩ := Hex.exists_spells hdigits hlength
      exact ⟨_, coerce_text_binary.2 ⟨mark, hmark, digits, bs, hs, hspells, rfl⟩⟩
  · rw [← exists_map_ofByte_iff]
    constructor
    · rintro ⟨v, hv⟩
      obtain ⟨bs, hbs, -⟩ := coerce_array_binary.1 hv
      exact ⟨bs, hbs⟩
    · rintro ⟨bs, hbs⟩
      exact ⟨_, coerce_array_binary.2 ⟨bs, hbs, rfl⟩⟩
  · rw [coerce_text_binary]
    constructor
    · rintro ⟨mark, hmark, digits, bs, hs, hspells, rfl⟩
      exact ⟨mark, hmark, digits, bs, hs, hspells, rfl, toJson_binary hspells⟩
    · rintro ⟨mark, hmark, digits, bs, hs, hspells, hv, -⟩
      exact ⟨mark, hmark, digits, bs, hs, hspells, hv⟩
  · rw [coerce_array_binary]
    constructor
    · rintro ⟨bs, hbs, rfl⟩
      have hprinted := Hex.spells_encode bs
      refine ⟨bs, hbs, rfl, (Hex.encode bs).toList, hprinted, ?_, ?_⟩
      · rw [← String.ofList_inj, hprinted.lower, String.ofList_toList]
      · rw [String.ofList_toList]
        rfl
    · rintro ⟨bs, hbs, hv, -⟩
      exact ⟨bs, hbs, hv⟩

/-- Two bytes behind a mark, their digits in mixed case and between blanks; they are printed without
all that. -/
theorem bytes_agree_cafe :
    coerce (.string " 0XcAFe\n") .binary = .ok (.binary [0xca, 0xfe]) ∧
      (Value.binary [0xca, 0xfe]).toJson.text = "\"cafe\"" := by
  obtain ⟨-, htext, -⟩ := bytes_agree
  have hspells : Hex.Spells ['c', 'A', 'F', 'e'] [0xca, 0xfe] := Hex.decode_iff_spells.1 rfl
  have hs : " 0XcAFe\n" =
      String.ofList ([' '] ++ (['0', 'X'] ++ ['c', 'A', 'F', 'e']) ++ ['\n']) := rfl
  rw [hs]
  exact ⟨htext _ _ _ _ _ (List.forall_mem_singleton.2 rfl) (by decide) hspells
      (List.forall_mem_singleton.2 rfl),
    rfl⟩

end Value

end RecordSql
