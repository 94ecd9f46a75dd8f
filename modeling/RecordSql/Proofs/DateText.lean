import Mathlib.Algebra.Group.Nat.Defs
import RecordSql.Proofs.TextSearch
import RecordSql.Value

/-!
# Dates and times are read as they are printed

A date prints as year, month and day, a date and time with a `T` and the time of day behind it. Both
texts read back to what they print.

* A number is read up to the first character that is no digit. Every number but the last stands in
  front of such a character, and all but the year have the two digits that are allowed.
* A year outside 0 to 9999 has a sign, which lifts the limit of four digits.
* A fraction has three, six or nine digits, and the reader fills it up to nine.
* No offset is printed, so neither text is a timestamp, and a plain date fits none of the formats
  with a time.
-/

namespace RecordSql

open Text (trimStart isBlank)

namespace Calendar

variable {ds cs rest : List Char} {limit width n : Nat}

/-! ## Digits -/

/-- A text of digits only. -/
def Digits (ds : List Char) : Prop := ∀ c ∈ ds, c.isDigit = true

/-- A text that does not go on with a digit. -/
def EndsNumber (rest : List Char) : Prop := ∀ c ∈ rest.head?, c.isDigit = false

theorem digits_toDigits (n : Nat) : Digits (Nat.toDigits 10 n) := fun _ hc =>
  Nat.isDigit_of_mem_toDigits (by decide) (by decide) hc

theorem digits_zeros (k : Nat) : Digits (List.replicate k '0') := by
  intro c hc
  rw [List.eq_of_mem_replicate hc]
  rfl

theorem Digits.append {ds es : List Char} (hd : Digits ds) (he : Digits es) : Digits (ds ++ es) :=
  fun c hc => (List.mem_append.1 hc).elim (hd c) (he c)

theorem digits_padded (width n : Nat) : Digits (padded width n) :=
  (digits_zeros _).append (digits_toDigits n)

theorem padded_ne_nil : padded width n ≠ [] := by
  unfold padded
  exact List.append_ne_nil_of_right_ne_nil _ Nat.toDigits_ne_nil

theorem length_padded (hw : 0 < width) (h : n < 10 ^ width) : (padded width n).length = width := by
  have hle : (Nat.toDigits 10 n).length ≤ width := (Nat.length_toDigits_le_iff (by decide) hw).2 h
  unfold padded
  rw [List.length_append, List.length_replicate]
  omega

theorem digitsValue_eq (acc : Nat) (ds : List Char) :
    Decimal.digitsValue acc ds = Nat.ofDigitChars 10 ds acc := rfl

theorem digitsValue_padded (width n : Nat) : Decimal.digitsValue 0 (padded width n) = n := by
  unfold padded
  rw [digitsValue_eq, Nat.ofDigitChars_append, Nat.ofDigitChars_replicate_zero, Nat.mul_zero,
    Nat.ofDigitChars_ten_toDigits]

/-- Zeros behind a number are powers of ten. -/
theorem digitsValue_zeros (ds : List Char) (k : Nat) :
    Decimal.digitsValue 0 (ds ++ List.replicate k '0') = 10 ^ k * Decimal.digitsValue 0 ds := by
  rw [digitsValue_eq, Nat.ofDigitChars_append, Nat.ofDigitChars_replicate_zero, digitsValue_eq]

/-! ## Numbers -/

theorem digitRun_append (hd : Digits ds) (hl : ds.length ≤ limit)
    (hend : ds.length = limit ∨ EndsNumber rest) : digitRun limit (ds ++ rest) = (ds, rest) := by
  have hrest : (rest.take (limit - ds.length)).takeWhile Char.isDigit = [] := by
    rcases hend with hfull | hend
    · rw [hfull, Nat.sub_self, List.take_zero, List.takeWhile_nil]
    · cases rest with
      | nil => rw [List.take_nil, List.takeWhile_nil]
      | cons c rest =>
        have hc : ¬ c.isDigit = true := by simp [hend c rfl]
        cases limit - ds.length with
        | zero => rw [List.take_zero, List.takeWhile_nil]
        | succ k => rw [List.take_succ_cons, List.takeWhile_cons_of_neg hc]
  have hdigits : ((ds ++ rest).take limit).takeWhile Char.isDigit = ds := by
    rw [List.take_append, List.take_of_length_le hl, List.takeWhile_append_of_pos hd, hrest,
      List.append_nil]
  unfold digitRun
  simp only [hdigits, List.drop_left]

/-- A number is read up to where its digits end. -/
theorem number?_append (hd : Digits ds) (hne : ds ≠ []) (hl : ds.length ≤ limit)
    (hend : EndsNumber rest) :
    number? limit (ds ++ rest) = some (Decimal.digitsValue 0 ds, rest) := by
  obtain ⟨d, ds', rfl⟩ := List.exists_cons_of_ne_nil hne
  unfold number?
  rw [digitRun_append hd hl (.inr hend)]

theorem fixed?_append (hd : Digits ds) (hl : ds.length = width) :
    fixed? width (ds ++ rest) = some (Decimal.digitsValue 0 ds, rest) := by
  unfold fixed?
  rw [digitRun_append hd (le_of_eq hl) (.inl hl)]
  exact if_pos hl

theorem fixed?_ends (hw : 0 < width) (hend : EndsNumber rest) : fixed? width rest = none := by
  have hnone : Digits [] := by simp [Digits]
  have hrun := digitRun_append hnone (Nat.zero_le width) (.inr hend)
  rw [List.nil_append] at hrun
  unfold fixed?
  rw [hrun]
  exact if_neg (Nat.ne_of_lt hw)

theorem fixed?_padded (hw : 0 < width) (hn : n < 10 ^ width) :
    fixed? width (padded width n ++ rest) = some (n, rest) := by
  rw [fixed?_append (digits_padded _ _) (length_padded hw hn), digitsValue_padded]

theorem number?_padded (hw : 0 < width) (hn : n < 10 ^ width) (hend : EndsNumber rest) :
    number? width (padded width n ++ rest) = some (n, rest) := by
  rw [number?_append (digits_padded _ _) padded_ne_nil (le_of_eq (length_padded hw hn)) hend,
    digitsValue_padded]

theorem not_isBlank_of_isDigit {c : Char} (h : c.isDigit = true) : isBlank c = false :=
  Text.not_isBlank_of_any (by decide) h

theorem Digits.not_blank (hd : Digits ds) : ∀ c ∈ ds, isBlank c = false := fun c hc =>
  not_isBlank_of_isDigit (hd c hc)

theorem smallNumber?_padded (hn : n < 100) (hend : EndsNumber rest) :
    smallNumber? (padded 2 n ++ rest) = some (n, rest) := by
  have hfirst : ∀ c ∈ (padded 2 n ++ rest).head?, isBlank c = false := by
    intro c hc
    rw [List.head?_append_of_ne_nil _ padded_ne_nil] at hc
    exact (digits_padded 2 n).not_blank c (List.mem_of_mem_head? hc)
  unfold smallNumber?
  rw [Text.trimStart_of_first hfirst, number?_padded (by decide) hn hend]

/-! ## Years and fractions -/

/-- A year is in four digits, or in a sign and at most six digits. -/
theorem yearText_cases (year : Int) :
    (0 ≤ year ∧ year ≤ 9999 ∧ yearText year = padded 4 year.toNat) ∨
      (year < 0 ∧ yearText year = '-' :: padded 4 year.natAbs) ∨
      (9999 < year ∧ yearText year = '+' :: padded 4 year.natAbs) := by
  unfold yearText
  by_cases hplain : 0 ≤ year ∧ year ≤ 9999
  · exact .inl ⟨hplain.1, hplain.2, if_pos hplain⟩
  rw [if_neg hplain]
  by_cases hneg : year < 0
  · rw [if_pos hneg]
    exact .inr (.inl ⟨hneg, rfl⟩)
  · rw [if_neg hneg]
    exact .inr (.inr ⟨by omega, rfl⟩)

theorem year?_yearText (year : Int) (hend : EndsNumber rest) :
    year? (yearText year ++ rest) = some (year, rest) := by
  have hsigned : number? (padded 4 year.natAbs ++ rest).length (padded 4 year.natAbs ++ rest) =
      some (year.natAbs, rest) := by
    rw [number?_append (digits_padded _ _) padded_ne_nil (by simp) hend, digitsValue_padded]
  rcases yearText_cases year with ⟨h0, h4, htext⟩ | ⟨hneg, htext⟩ | ⟨hbig, htext⟩
  · have hnumber : number? 4 (padded 4 year.toNat ++ rest) = some (year.toNat, rest) :=
      number?_padded (by decide) (by omega) hend
    have hne : padded 4 year.toNat ≠ [] := padded_ne_nil
    obtain ⟨c, ds, hpad⟩ := List.exists_cons_of_ne_nil hne
    have hc : c.isDigit = true :=
      digits_padded 4 year.toNat c (by rw [hpad]; exact List.mem_cons_self)
    have hminus : c ≠ '-' := by
      rintro rfl
      exact absurd hc (by decide)
    have hplus : c ≠ '+' := by
      rintro rfl
      exact absurd hc (by decide)
    rw [htext]
    rw [hpad] at hnumber ⊢
    rw [List.cons_append] at hnumber ⊢
    unfold year?
    split
    next h => exact absurd (List.cons.inj h).1 hminus
    next h => exact absurd (List.cons.inj h).1 hplus
    next =>
      have habs : (year.toNat : Int) = year := Int.toNat_of_nonneg h0
      simp only [hnumber, Option.map_some, habs]
  · have habs : -(year.natAbs : Int) = year := by omega
    rw [htext, List.cons_append, year?]
    simp only [hsigned, Option.map_some, habs]
  · have habs : (year.natAbs : Int) = year := by omega
    rw [htext, List.cons_append, year?]
    simp only [hsigned, Option.map_some, habs]

/-- A fraction in fewer than nine digits is filled up with zeros. -/
theorem fraction?_padded (hw : 0 < width) (hn : n < 10 ^ width) (h9 : width ≤ 9) :
    fraction? ('.' :: padded width n) = some (10 ^ (9 - width) * n, []) := by
  have hlength := length_padded hw hn
  have hspan : Decimal.spanDigits (padded width n) = (padded width n, []) := by
    have htake := List.takeWhile_eq_self_iff.2 (digits_padded width n)
    have hdrop := List.dropWhile_eq_nil_iff.2 (digits_padded width n)
    unfold Decimal.spanDigits
    rw [htake, hdrop]
  unfold fraction?
  simp only [hspan]
  split
  next h =>
    injection h with hnil
    exact absurd hnil padded_ne_nil
  next _ h =>
    injection h with hds hrest
    rw [← hds, ← hrest, hlength, List.take_of_length_le (hlength.trans_le h9), digitsValue_zeros,
      digitsValue_padded]

theorem fraction?_fractionText (h : n < 1000000000) :
    fraction? (fractionText n) = some (n, []) := by
  unfold fractionText
  by_cases hzero : n = 0
  · rw [if_pos hzero, hzero]
    rfl
  rw [if_neg hzero]
  by_cases hmilli : n % 1000000 = 0
  · rw [if_pos hmilli, fraction?_padded (by decide) (by omega) (by decide)]
    congr 2
    omega
  rw [if_neg hmilli]
  by_cases hmicro : n % 1000 = 0
  · rw [if_pos hmicro, fraction?_padded (by decide) (by omega) (by decide)]
    congr 2
    omega
  · rw [if_neg hmicro, fraction?_padded (by decide) h (by decide)]
    congr 2
    omega

/-! ## Printed texts -/

theorem daysInMonth_le (year : Int) (month : Nat) : daysInMonth year month ≤ 31 := by
  unfold daysInMonth
  repeat' split
  all_goals decide

theorem month_lt {month day : Nat} {year : Int} (h : isDay year month day = true) :
    month < 100 := by
  have hday := of_decide_eq_true h
  by_contra hmonth
  -- a month that does not exist has no days
  have hnone : daysInMonth year month = 0 := by
    obtain ⟨k, rfl⟩ := Nat.exists_eq_add_of_le' (Nat.le_of_not_lt hmonth)
    rfl
  omega

theorem day_lt {month day : Nat} {year : Int} (h : isDay year month day = true) : day < 100 := by
  have hday := of_decide_eq_true h
  have hle := daysInMonth_le year month
  omega

theorem endsNumber_nil : EndsNumber [] := by
  intro c hc
  simp at hc

theorem endsNumber_cons {c : Char} (h : c.isDigit = false) : EndsNumber (c :: rest) := by
  intro d hd
  rw [← Option.some.inj hd]
  exact h

theorem endsNumber_fractionText (n : Nat) : EndsNumber (fractionText n) := by
  unfold fractionText
  split
  · exact endsNumber_nil
  split
  · exact endsNumber_cons rfl
  split
  · exact endsNumber_cons rfl
  · exact endsNumber_cons rfl

/-- What is read of a date. -/
def dateParts (d : Date) : Parts := ⟨d.year, d.month, d.day, 0, 0, 0, 0⟩

/-- What is read of a date and time. -/
def allParts (t : DateTime) : Parts :=
  ⟨t.date.year, t.date.month, t.date.day, t.time.hour, t.time.minute, t.time.second,
    t.time.nanosecond⟩

theorem dateTime?_dateParts (d : Date) : (dateParts d).dateTime? = some ⟨d, .midnight⟩ := by
  have hdate : Date.of? d.year d.month d.day = some d := dif_pos d.exists_day
  have htime : Time.of? 0 0 0 0 = some .midnight := rfl
  unfold Parts.dateTime? dateParts
  simp [hdate, htime]

theorem dateTime?_allParts (t : DateTime) : (allParts t).dateTime? = some t := by
  have hdate : Date.of? t.date.year t.date.month t.date.day = some t.date :=
    dif_pos t.date.exists_day
  have htime : Time.of? t.time.hour t.time.minute t.time.second t.time.nanosecond = some t.time :=
    dif_pos t.time.exists_time
  unfold Parts.dateTime? allParts
  simp [hdate, htime]

theorem not_blank_yearText (year : Int) : ∀ c ∈ yearText year, isBlank c = false := by
  rcases yearText_cases year with ⟨-, -, h⟩ | ⟨-, h⟩ | ⟨-, h⟩
  · rw [h]
    exact (digits_padded _ _).not_blank
  · rw [h]
    exact List.forall_mem_cons.2 ⟨rfl, (digits_padded _ _).not_blank⟩
  · rw [h]
    exact List.forall_mem_cons.2 ⟨rfl, (digits_padded _ _).not_blank⟩

theorem trimStart_yearText (year : Int) (rest : List Char) :
    trimStart (yearText year ++ rest) = yearText year ++ rest := by
  refine Text.trimStart_of_first fun c hc => ?_
  have hne : yearText year ≠ [] := by
    rcases yearText_cases year with ⟨-, -, h⟩ | ⟨-, h⟩ | ⟨-, h⟩
    · rw [h]
      exact padded_ne_nil
    · simp [h]
    · simp [h]
  rw [List.head?_append_of_ne_nil _ hne] at hc
  exact not_blank_yearText year c (List.mem_of_mem_head? hc)

/-- The items of a date read a printed date, and leave what stands behind it. -/
theorem readItems?_date (d : Date) (items : List Item) (hend : EndsNumber rest) :
    readItems? .empty (dateItems ++ items) (d.chars ++ rest) =
      readItems? (dateParts d) items rest := by
  have hminus : ∀ cs, EndsNumber ('-' :: cs) := fun _ => endsNumber_cons rfl
  have hyear := year?_yearText d.year (hminus (padded 2 d.month ++ '-' :: (padded 2 d.day ++ rest)))
  have hmonth := smallNumber?_padded (month_lt d.exists_day) (hminus (padded 2 d.day ++ rest))
  have hday := smallNumber?_padded (day_lt d.exists_day) hend
  simp only [dateItems, Date.chars, List.cons_append, List.nil_append, List.append_assoc,
    readItems?, Item.read?, trimStart_yearText, hyear, hmonth, hday, char?, if_true,
    Option.map_some]
  rfl

/-- The items of a time read a printed time up to its end. -/
theorem readItems?_time (t : DateTime) :
    readItems? (dateParts t.date) secondItems t.time.chars = some (allParts t) := by
  obtain ⟨hh, hm, hs, hn⟩ := of_decide_eq_true t.time.exists_time
  have hcolon : ∀ cs, EndsNumber (':' :: cs) := fun _ => endsNumber_cons rfl
  have hhour := smallNumber?_padded (n := t.time.hour) (by omega)
    (hcolon (padded 2 t.time.minute ++ ':' :: (padded 2 t.time.second ++
      fractionText t.time.nanosecond)))
  have hminute := smallNumber?_padded (n := t.time.minute) (by omega)
    (hcolon (padded 2 t.time.second ++ fractionText t.time.nanosecond))
  have hsecond := smallNumber?_padded (n := t.time.second) (by omega)
    (endsNumber_fractionText t.time.nanosecond)
  simp only [secondItems, minuteItems, Time.chars, List.cons_append, List.nil_append,
    List.append_assoc, readItems?, Item.read?, hhour, hminute, hsecond,
    fraction?_fractionText hn, char?, if_true, Option.map_some]
  rfl

/-- A signed year begins no timestamp. -/
theorem timestamp?_signed {c : Char} (h : c.isDigit = false) : timestamp? (c :: cs) = none := by
  have hyear : fixed? 4 (c :: cs) = none := fixed?_ends (by decide) (endsNumber_cons h)
  unfold timestamp?
  rw [hyear]
  rfl

theorem fixed?_two (hn : n < 100) (rest : List Char) :
    fixed? 2 (padded 2 n ++ rest) = some (n, rest) := fixed?_padded (by decide) hn

theorem fixed?_two_nil (hn : n < 100) : fixed? 2 (padded 2 n) = some (n, []) := by
  have hread := fixed?_two hn []
  rwa [List.append_nil] at hread

/-- A timestamp goes on behind its date, and behind its time as well. -/
theorem timestamp?_printed (t : DateTime) :
    timestamp? t.date.chars = none ∧ timestamp? (t.date.chars ++ 'T' :: t.time.chars) = none := by
  obtain ⟨hh, hm, hs, hn⟩ := of_decide_eq_true t.time.exists_time
  unfold Date.chars Time.chars
  rcases yearText_cases t.date.year with ⟨h0, h4, htext⟩ | ⟨-, htext⟩ | ⟨-, htext⟩
  · have hyear : ∀ rest, fixed? 4 (padded 4 t.date.year.toNat ++ rest) =
        some (t.date.year.toNat, rest) := fun _ => fixed?_padded (by decide) (by omega)
    have hmonth := fixed?_two (month_lt t.date.exists_day)
    have hday := fixed?_two (day_lt t.date.exists_day)
    have hday' := fixed?_two_nil (day_lt t.date.exists_day)
    have hhour := fixed?_two (n := t.time.hour) (by omega)
    have hminute := fixed?_two (n := t.time.minute) (by omega)
    have hsecond := fixed?_two (n := t.time.second) (by omega)
    have hfraction := fraction?_fractionText hn
    constructor
    · simp [htext, timestamp?, char?, timeMark?, hyear, hmonth, hday']
    · simp [htext, timestamp?, char?, timeMark?, isOffset, hyear, hmonth, hday, hhour, hminute,
        hsecond, hfraction]
  · rw [htext]
    exact ⟨timestamp?_signed rfl, timestamp?_signed rfl⟩
  · rw [htext]
    exact ⟨timestamp?_signed rfl, timestamp?_signed rfl⟩

/-! ## Blanks -/

theorem not_blank_date (d : Date) : ∀ c ∈ d.chars, isBlank c = false := by
  unfold Date.chars
  simp only [List.forall_mem_append, List.forall_mem_cons]
  exact ⟨⟨not_blank_yearText _, rfl, (digits_padded _ _).not_blank⟩, rfl,
    (digits_padded _ _).not_blank⟩

theorem not_blank_fractionText (n : Nat) : ∀ c ∈ fractionText n, isBlank c = false := by
  unfold fractionText
  split
  · simp
  split
  · exact List.forall_mem_cons.2 ⟨rfl, (digits_padded _ _).not_blank⟩
  split
  · exact List.forall_mem_cons.2 ⟨rfl, (digits_padded _ _).not_blank⟩
  · exact List.forall_mem_cons.2 ⟨rfl, (digits_padded _ _).not_blank⟩

theorem not_blank_time (t : Time) : ∀ c ∈ t.chars, isBlank c = false := by
  unfold Time.chars
  simp only [List.forall_mem_append, List.forall_mem_cons]
  exact ⟨⟨⟨(digits_padded _ _).not_blank, rfl, (digits_padded _ _).not_blank⟩, rfl,
    (digits_padded _ _).not_blank⟩, not_blank_fractionText _⟩

end Calendar

open Calendar

/-! ## Reading what is printed -/

/-- A text without blanks that is no timestamp is read by the first format that fits. -/
theorem DateTime.read?_of_formats {cs : List Char} (hblank : ∀ c ∈ cs, isBlank c = false)
    (hstamp : timestamp? cs = none) : read? cs = formats.findSome? (byFormat? cs) := by
  unfold read?
  simp only [Text.trim_of_not_blank hblank, hstamp, Option.none_or]

/-- **A printed date and time is read as itself**, whatever its year and its second. -/
theorem DateTime.read?_text (t : DateTime) : read? t.text.toList = some t := by
  have hblank : ∀ c ∈ t.date.chars ++ 'T' :: t.time.chars, isBlank c = false := by
    simp only [List.forall_mem_append, List.forall_mem_cons]
    exact ⟨not_blank_date _, rfl, not_blank_time _⟩
  have hformat : byFormat? (t.date.chars ++ 'T' :: t.time.chars)
      (dateItems ++ .mark 'T' :: secondItems) = some t := by
    have hend : EndsNumber ('T' :: t.time.chars) := endsNumber_cons rfl
    have hitems := readItems?_date t.date (.mark 'T' :: secondItems) hend
    unfold byFormat?
    rw [hitems, readItems?, Item.read?]
    simp only [char?, if_true, Option.map_some, readItems?_time, Option.bind_some,
      dateTime?_allParts]
  unfold text
  rw [String.toList_ofList, read?_of_formats hblank (timestamp?_printed t).2, formats,
    List.findSome?_cons, hformat]

/-- **A printed date is read as its midnight.** -/
theorem DateTime.read?_dateText (d : Date) : read? d.text.toList = some ⟨d, .midnight⟩ := by
  have hitems : ∀ items, readItems? .empty (dateItems ++ items) d.chars =
      readItems? (dateParts d) items [] := by
    intro items
    have hdate := readItems?_date d items endsNumber_nil
    rwa [List.append_nil] at hdate
  have hplain : byFormat? d.chars dateItems = some ⟨d, .midnight⟩ := by
    have hdate := hitems []
    rw [List.append_nil] at hdate
    unfold byFormat?
    rw [hdate]
    exact dateTime?_dateParts d
  -- each format with a time stops at the end of the date
  have hothers : ∀ items, readItems? (dateParts d) items [] = none →
      byFormat? d.chars (dateItems ++ items) = none := by
    intro items hnone
    unfold byFormat?
    rw [hitems, hnone]
    rfl
  have hstamp : timestamp? d.chars = none := (timestamp?_printed ⟨d, .midnight⟩).1
  unfold Date.text
  rw [String.toList_ofList, read?_of_formats (not_blank_date d) hstamp, formats]
  simp only [List.findSome?_cons, hothers (.mark 'T' :: secondItems) rfl,
    hothers (.blanks :: secondItems) rfl, hothers (.mark 'T' :: minuteItems) rfl,
    hothers (.blanks :: minuteItems) rfl, hplain]

end RecordSql
