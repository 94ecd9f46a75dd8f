import RecordSql.Proofs.StableValues

/-!
# The text of a number

A number is written with a sign or none, digits, and behind them nothing or what a point or an
exponent opens. Readers of other types are given such texts as well, and this is what they make of
them.

* No number is a date or a time, since a year is followed by a hyphen and the digits of a number
  are not.
* Of the words for truth values only `0` and `1` are numbers.
* An integer is read back as itself, and as the decimal that is nearest to it, which there always
  is. A decimal is never read as an integer, as it shows its point or its exponent.
* Digits of an integer may be read as bytes in hexadecimal. Every other number has a sign or a
  point in it, which are no digits.
-/

namespace RecordSql

open Text Calendar

/-! ## Numerals -/

/-- The form of numbers: a sign or none, digits, and behind them nothing or what a point or an
exponent opens. -/
structure IsNumeral (cs : List Char) : Prop where
  shape : ∃ sign ds rest, cs = sign ++ (ds ++ rest) ∧ (sign = [] ∨ sign = ['-']) ∧ ds ≠ [] ∧
    Digits ds ∧ ∀ c ∈ rest.head?, c = '.' ∨ c = 'e'
  characters : ∀ c ∈ cs, c.isDigit = true ∨ c ∈ ['-', '+', '.', 'e']

variable {cs ds rest : List Char} {limit : Nat}

/-- The form of decimals: numerals that show a point or an exponent, and a point or a sign. -/
structure IsDecimal (cs : List Char) : Prop extends IsNumeral cs where
  shown : '.' ∈ cs ∨ 'e' ∈ cs
  marked : '.' ∈ cs ∨ '+' ∈ cs ∨ '-' ∈ cs

/-- What holds of digits and of four marks holds of the characters of a numeral. -/
theorem IsNumeral.forall_mem (h : IsNumeral cs) {P : Char → Prop}
    (hdigit : ∀ c, c.isDigit = true → P c) (hmark : P '-' ∧ P '+' ∧ P '.' ∧ P 'e') :
    ∀ c ∈ cs, P c := by
  intro c hc
  rcases h.characters c hc with hd | hm
  · exact hdigit c hd
  · obtain ⟨hminus, hplus, hpoint, hexponent⟩ := hmark
    simp only [List.mem_cons, List.not_mem_nil, or_false] at hm
    rcases hm with rfl | rfl | rfl | rfl <;> assumption

theorem IsNumeral.trim (h : IsNumeral cs) : trim cs = cs :=
  trim_of_not_blank (h.forall_mem (fun _ hc => not_isBlank_of_isDigit hc) (by decide))

theorem endsNumber_of_mark (h : ∀ c ∈ rest.head?, c = '.' ∨ c = 'e') : EndsNumber rest := by
  intro c hc
  rcases h c hc with rfl | rfl <;> rfl

/-! ## No number is a date -/

namespace Calendar

/-- A run of digits stops at its limit, or where the digits end. -/
theorem digitRun_digits (hd : Digits ds) (hend : EndsNumber rest) :
    digitRun limit (ds ++ rest) = (ds.take limit, ds.drop limit ++ rest) := by
  by_cases hl : ds.length ≤ limit
  · rw [digitRun_append hd hl (.inr hend), List.take_of_length_le hl, List.drop_of_length_le hl,
      List.nil_append]
  · have htake : Digits (ds.take limit) := fun c hc => hd c (List.mem_of_mem_take hc)
    have hlength : (ds.take limit).length = limit := by
      rw [List.length_take]
      omega
    have hsplit : ds ++ rest = ds.take limit ++ (ds.drop limit ++ rest) := by
      rw [← List.append_assoc, List.take_append_drop]
    rw [hsplit, digitRun_append htake hlength.le (.inl hlength)]

/-- Behind a run of digits of a numeral stands no hyphen. -/
theorem char?_hyphen (hd : Digits ds) (hrest : ∀ c ∈ rest.head?, c = '.' ∨ c = 'e') :
    char? '-' (ds.drop limit ++ rest) = none := by
  have hhead : ∀ c ∈ (ds.drop limit ++ rest).head?, c ≠ '-' := by
    intro c hc
    cases hdrop : ds.drop limit with
    | nil =>
      rw [hdrop] at hc
      rcases hrest c hc with rfl | rfl <;> decide
    | cons d tail =>
      rw [hdrop] at hc
      obtain rfl := Option.some.inj hc
      rintro rfl
      exact absurd (hd '-' (List.mem_of_mem_drop (hdrop ▸ List.mem_cons_self))) (by decide)
  cases hcs : ds.drop limit ++ rest with
  | nil => rfl
  | cons c tail =>
    rw [hcs] at hhead
    exact if_neg fun hc => hhead c rfl hc.symm

theorem timestamp?_numeral (h : IsNumeral cs) : timestamp? cs = none := by
  obtain ⟨sign, ds, rest, rfl, hsign, _, hd, hrest⟩ := h.shape
  rcases hsign with rfl | rfl
  · rw [List.nil_append, timestamp?, fixed?, digitRun_digits hd (endsNumber_of_mark hrest)]
    dsimp only
    split
    · rw [Option.bind_eq_bind, Option.bind_some, char?_hyphen hd hrest]
      rfl
    · rfl
  · exact timestamp?_signed rfl

/-- The year of a numeral is digits of it, and what follows is the rest of them. -/
theorem exists_year?_numeral {sign : List Char} (hsign : sign = [] ∨ sign = ['-']) (hne : ds ≠ [])
    (hd : Digits ds) (hrest : ∀ c ∈ rest.head?, c = '.' ∨ c = 'e') :
    ∃ n limit, year? (sign ++ (ds ++ rest)) = some (n, ds.drop limit ++ rest) := by
  obtain ⟨d, tail, rfl⟩ := List.exists_cons_of_ne_nil hne
  have hnumber : ∀ k, ∃ n, number? (k + 1) (d :: tail ++ rest) =
      some (n, (d :: tail).drop (k + 1) ++ rest) := by
    intro k
    rw [number?, digitRun_digits hd (endsNumber_of_mark hrest)]
    exact ⟨_, rfl⟩
  rcases hsign with rfl | rfl
  · have hd0 : d ≠ '-' ∧ d ≠ '+' := by
      constructor
      · rintro rfl
        exact absurd (hd '-' List.mem_cons_self) (by decide)
      · rintro rfl
        exact absurd (hd '+' List.mem_cons_self) (by decide)
    obtain ⟨n, hn⟩ := hnumber 3
    refine ⟨n, 4, ?_⟩
    rw [List.nil_append, List.cons_append, year?, ← List.cons_append, hn]
    · rfl
    · exact fun _ heq => hd0.1 (List.cons.inj heq).1
    · exact fun _ heq => hd0.2 (List.cons.inj heq).1
  · obtain ⟨n, hn⟩ := hnumber (tail ++ rest).length
    refine ⟨-(n : Int), (tail ++ rest).length + 1, ?_⟩
    show (number? ((tail ++ rest).length + 1) (d :: tail ++ rest)).map _ = _
    rw [hn]
    rfl

/-- A year is followed by a hyphen in every format. -/
theorem readItems?_numeral (h : IsNumeral cs) (p : Parts) (items : List Item) :
    readItems? p (.year :: .mark '-' :: items) cs = none := by
  obtain ⟨sign, ds, rest, hcs, hsign, hne, hd, hrest⟩ := h.shape
  have hblank : trimStart cs = cs := trimStart_of_first fun c hc =>
    h.forall_mem (fun _ hc => not_isBlank_of_isDigit hc) (by decide) c (List.mem_of_mem_head? hc)
  obtain ⟨n, limit, hyear⟩ := exists_year?_numeral hsign hne hd hrest
  rw [readItems?, Item.read?, hblank, hcs, hyear, Option.map_some]
  dsimp only
  rw [readItems?, Item.read?, char?_hyphen hd hrest]
  rfl

end Calendar

/-- **No number is a date or a time.** -/
theorem DateTime.read?_numeral (h : IsNumeral cs) : DateTime.read? cs = none := by
  have hformats : ∀ format ∈ formats, ∃ items, format = .year :: .mark '-' :: items := by
    intro format hf
    simp only [formats, dateItems, List.mem_cons, List.not_mem_nil, or_false] at hf
    rcases hf with rfl | rfl | rfl | rfl | rfl <;> exact ⟨_, rfl⟩
  show (timestamp? (Text.trim cs)).or (formats.findSome? (byFormat? (Text.trim cs))) = none
  rw [h.trim, timestamp?_numeral h, Option.none_or, List.findSome?_eq_none_iff]
  intro format hf
  obtain ⟨items, rfl⟩ := hformats format hf
  rw [byFormat?, readItems?_numeral h]
  rfl

/-! ## How numbers are written -/

/-- What stands behind the first digits of a decimal: a point or an exponent, and in any case a
point or a sign. -/
structure IsTail (rest : List Char) : Prop where
  opens : ∃ c tail, rest = c :: tail ∧ (c = '.' ∨ c = 'e')
  characters : ∀ c ∈ rest, c.isDigit = true ∨ c ∈ ['-', '+', '.', 'e']
  marked : '.' ∈ rest ∨ '+' ∈ rest ∨ '-' ∈ rest

theorem IsTail.head? (h : IsTail rest) : ∀ c ∈ rest.head?, c = '.' ∨ c = 'e' := by
  obtain ⟨c, tail, rfl, hc⟩ := h.opens
  rintro d hd
  exact Option.some.inj hd ▸ hc

theorem isNumeral_signed {sign : List Char} (hsign : sign = [] ∨ sign = ['-']) (hne : ds ≠ [])
    (hd : Digits ds) (hrest : ∀ c ∈ rest.head?, c = '.' ∨ c = 'e')
    (hc : ∀ c ∈ rest, c.isDigit = true ∨ c ∈ ['-', '+', '.', 'e']) :
    IsNumeral (sign ++ (ds ++ rest)) := by
  refine ⟨⟨sign, ds, rest, rfl, hsign, hne, hd, hrest⟩, fun c hm => ?_⟩
  rcases List.mem_append.1 hm with hm | hm
  · rcases hsign with rfl | rfl
    · exact absurd hm List.not_mem_nil
    · exact .inr (List.mem_singleton.1 hm ▸ List.mem_cons_self)
  · rcases List.mem_append.1 hm with hm | hm
    · exact .inl (hd c hm)
    · exact hc c hm

/-- A sign or none, digits and a tail are a decimal. -/
theorem IsTail.isDecimal {sign : List Char} (h : IsTail rest) (hsign : sign = [] ∨ sign = ['-'])
    (hne : ds ≠ []) (hd : Digits ds) : IsDecimal (sign ++ (ds ++ rest)) := by
  have hmem : ∀ c ∈ rest, c ∈ sign ++ (ds ++ rest) := fun c hc =>
    List.mem_append_right _ (List.mem_append_right _ hc)
  refine ⟨isNumeral_signed hsign hne hd h.head? h.characters, ?_,
    h.marked.imp (hmem _) (Or.imp (hmem _) (hmem _))⟩
  obtain ⟨c, tail, rfl, rfl | rfl⟩ := h.opens
  · exact .inl (hmem _ List.mem_cons_self)
  · exact .inr (hmem _ List.mem_cons_self)

/-- Digits behind a point. -/
theorem isTail_fraction (hd : Digits ds) : IsTail ('.' :: ds) := by
  refine ⟨⟨_, _, rfl, .inl rfl⟩, fun c hc => ?_, .inl List.mem_cons_self⟩
  rcases List.mem_cons.1 hc with rfl | hc
  · exact .inr (by decide)
  · exact .inl (hd c hc)

/-- An exponent, which always has its sign. -/
theorem isTail_exponent {mark : Char} (hm : mark = '-' ∨ mark = '+') (hd : Digits ds) :
    IsTail ('e' :: mark :: ds) := by
  refine ⟨⟨_, _, rfl, .inr rfl⟩, fun c hc => ?_, ?_⟩
  · rcases List.mem_cons.1 hc with rfl | hc
    · exact .inr (by decide)
    rcases List.mem_cons.1 hc with rfl | hc
    · exact .inr (by rcases hm with rfl | rfl <;> decide)
    · exact .inl (hd c hc)
  · rcases hm with rfl | rfl
    · exact .inr (.inr (by simp))
    · exact .inr (.inl (by simp))

/-- Digits behind a point stand in front of an exponent as well. -/
theorem IsTail.fraction (h : IsTail rest) (hd : Digits ds) : IsTail ('.' :: (ds ++ rest)) := by
  refine ⟨⟨_, _, rfl, .inl rfl⟩, fun c hc => ?_, .inl List.mem_cons_self⟩
  rcases List.mem_cons.1 hc with rfl | hc
  · exact .inr (by decide)
  rcases List.mem_append.1 hc with hc | hc
  · exact .inl (hd c hc)
  · exact h.characters c hc

namespace Decimal

/-- A numeral has digits, and nothing else for digits. -/
def Numeral.IsProper (n : Numeral) : Prop := n.digits ≠ [] ∧ Digits n.digits

theorem dropTrailingZeros_ne_nil (h : ds ≠ []) : dropTrailingZeros ds ≠ [] := by
  cases ds with
  | nil => exact absurd rfl h
  | cons d rest => exact List.cons_ne_nil _ _

theorem digits_dropTrailingZeros (h : Digits ds) : Digits (dropTrailingZeros ds) := by
  cases ds with
  | nil => exact h
  | cons d rest =>
    intro c hc
    rcases List.mem_cons.1 hc with rfl | hc
    · exact h c List.mem_cons_self
    · refine h c (List.mem_cons_of_mem _ ?_)
      have hm : c ∈ rest.reverse := (List.dropWhile_sublist _).subset (List.mem_reverse.1 hc)
      exact List.mem_reverse.1 hm

/-- A zero is a proper numeral. -/
theorem isProper_zero : Numeral.IsProper ⟨['0'], 0⟩ := ⟨List.cons_ne_nil _ _, digits_zeros 1⟩

theorem isProper_search (candidate? : Nat → Option Nat) (lead : Int) (count tries : Nat) :
    (search candidate? lead count tries).IsProper := by
  induction tries generalizing count with
  | zero => exact isProper_zero
  | succ tries ih =>
    rw [search.eq_2]
    cases candidate? count with
    | none => exact ih _
    | some n =>
      exact ⟨dropTrailingZeros_ne_nil Nat.toDigits_ne_nil,
        digits_dropTrailingZeros (digits_toDigits _)⟩

theorem isProper_shortest (x : Binary64) : (shortest x).IsProper := by
  unfold shortest
  dsimp only
  split
  · exact isProper_zero
  · exact isProper_search _ _ _ _

end Decimal

namespace Json

open Decimal

theorem isDecimal_positional {n : Numeral} (hn : n.IsProper) {sign : List Char}
    (hsign : sign = [] ∨ sign = ['-']) : IsDecimal (sign ++ positional n) := by
  obtain ⟨hne, hd⟩ := hn
  unfold positional
  split
  · have hwhole : Digits (n.digits.take (n.exponent.toNat + 1) ++
        List.replicate (n.exponent.toNat + 1 - n.digits.length) '0') := by
      intro c hc
      rcases List.mem_append.1 hc with hc | hc
      · exact hd c (List.mem_of_mem_take hc)
      · exact digits_zeros _ c hc
    have hfraction : Digits (if n.digits.drop (n.exponent.toNat + 1) = [] then ['0']
        else n.digits.drop (n.exponent.toNat + 1)) := by
      split
      · exact digits_zeros 1
      · exact fun c hc => hd c (List.mem_of_mem_drop hc)
    obtain ⟨d, rest, hdigits⟩ := List.exists_cons_of_ne_nil hne
    refine (isTail_fraction hfraction).isDecimal hsign ?_ hwhole
    rw [hdigits]
    exact List.cons_ne_nil _ _
  · have hfraction : Digits (List.replicate ((-n.exponent).toNat - 1) '0' ++ n.digits) := by
      intro c hc
      rcases List.mem_append.1 hc with hc | hc
      · exact digits_zeros _ c hc
      · exact hd c hc
    exact (isTail_fraction hfraction).isDecimal hsign (List.cons_ne_nil _ []) (digits_zeros 1)

theorem isDecimal_scientific {n : Numeral} (hn : n.IsProper) {sign : List Char}
    (hsign : sign = [] ∨ sign = ['-']) : IsDecimal (sign ++ scientific n) := by
  obtain ⟨hne, hd⟩ := hn
  have hexponent : IsTail ((if n.exponent < 0 then ['e', '-'] else ['e', '+']) ++
      Nat.toDigits 10 n.exponent.natAbs) := by
    split
    · exact isTail_exponent (.inl rfl) (digits_toDigits _)
    · exact isTail_exponent (.inr rfl) (digits_toDigits _)
  unfold scientific
  dsimp only
  rw [List.append_assoc]
  split
  next hdigits => exact absurd hdigits hne
  next d hdigits =>
    rw [hdigits] at hd
    exact hexponent.isDecimal hsign (List.cons_ne_nil _ _) hd
  next d rest _ hdigits =>
    rw [hdigits] at hd
    exact (hexponent.fraction fun c hc => hd c (List.mem_cons_of_mem _ hc)).isDecimal hsign
      (List.cons_ne_nil _ []) fun c hc => hd c (List.mem_singleton.1 hc ▸ List.mem_cons_self)

/-- **The text of a decimal** shows its point or its exponent. -/
theorem Number.isDecimal_text (x : Binary64) (finite : x.isFinite = true) :
    IsDecimal (Number.decimal x finite).text.toList := by
  have hwrite : ∀ sign : List Char, sign = [] ∨ sign = ['-'] →
      IsDecimal (sign ++ decimalLayout.write (shortest x)) := by
    intro sign hsign
    unfold Layout.write
    split
    · exact isDecimal_positional (isProper_shortest x) hsign
    · exact isDecimal_scientific (isProper_shortest x) hsign
  show IsDecimal (String.ofList _).toList
  rw [String.toList_ofList]
  split
  · exact hwrite ['-'] (.inr rfl)
  · exact hwrite [] (.inl rfl)

/-- **The text of an integer** is its sign and its digits. -/
theorem Number.toList_text_integer (k : Int)
    (inRange : -9223372036854775808 ≤ k ∧ k < 18446744073709551616) :
    (Number.integer k inRange).text.toList =
      (if k < 0 then ['-'] else []) ++ Nat.toDigits 10 k.natAbs := by
  show (Int.repr k).toList = _
  cases k with
  | ofNat m =>
    rw [if_neg (by simp)]
    exact Nat.toList_repr
  | negSucc m =>
    rw [if_pos (Int.negSucc_lt_zero m)]
    exact (String.toList_append ..).trans (congrArg _ Nat.toList_repr)

theorem Number.isNumeral_text (n : Number) : IsNumeral n.text.toList := by
  cases n with
  | integer k inRange =>
    have hsign : (if k < 0 then ['-'] else [] : List Char) = [] ∨
        (if k < 0 then ['-'] else [] : List Char) = ['-'] := by
      split
      · exact .inr rfl
      · exact .inl rfl
    rw [toList_text_integer, ← List.append_nil (Nat.toDigits 10 k.natAbs)]
    exact isNumeral_signed hsign Nat.toDigits_ne_nil (digits_toDigits _)
      (fun _ h => absurd h (by simp)) (List.forall_mem_nil _)
  | decimal x finite => exact (isDecimal_text x finite).toIsNumeral

end Json

/-! ## Numbers read as integers and truth values -/

namespace Decimal

/-- A digit is no sign. -/
theorem sign_of_digit {d : Char} (hd : d.isDigit = true) : sign (d :: cs) = (false, d :: cs) := by
  unfold sign
  split
  next heq => exact absurd hd (by rw [(List.cons.inj heq).1]; decide)
  next heq => exact absurd hd (by rw [(List.cons.inj heq).1]; decide)
  next => rfl

theorem sign_digits (hd : Digits ds) : sign ds = (false, ds) := by
  cases ds with
  | nil => rfl
  | cons d ds => exact sign_of_digit (hd d List.mem_cons_self)

theorem sign_signed (k : Int) (hd : Digits ds) :
    sign ((if k < 0 then ['-'] else []) ++ ds) = (decide (k < 0), ds) := by
  split
  next h => rw [decide_eq_true h]; rfl
  next h => rw [decide_eq_false h]; exact sign_digits hd

/-- A sign that is read is taken off, and nothing else. -/
theorem mem_sign {c : Char} (hc : c ∈ cs) (hm : c ≠ '-') (hp : c ≠ '+') : c ∈ (sign cs).2 := by
  unfold sign
  split
  · exact (List.mem_cons.1 hc).resolve_left hm
  · exact (List.mem_cons.1 hc).resolve_left hp
  · exact hc

theorem signed_natAbs (k : Int) :
    (if decide (k < 0) = true then -(k.natAbs : Int) else (k.natAbs : Int)) = k := by
  split
  next h => have := of_decide_eq_true h; omega
  next h => have : ¬ k < 0 := fun hk => h (decide_eq_true hk); omega

theorem wholeNumber?_toDigits (m : Nat) : wholeNumber? (Nat.toDigits 10 m) = some m := by
  have hall : (Nat.toDigits 10 m).all Char.isDigit = true := List.all_eq_true.2 (digits_toDigits m)
  rw [wholeNumber?, if_pos ⟨Nat.toDigits_ne_nil, hall⟩, digitsValue_eq,
    Nat.ofDigitChars_ten_toDigits]

/-- An integer is read back. -/
theorem readInteger?_integer (k : Int) :
    readInteger? ((if k < 0 then ['-'] else []) ++ Nat.toDigits 10 k.natAbs) = some k := by
  rw [readInteger?, sign_signed k (digits_toDigits _)]
  dsimp only
  rw [wholeNumber?_toDigits]
  exact congrArg some (signed_natAbs k)

/-- A decimal is read as no integer. -/
theorem readInteger?_decimal (h : IsDecimal cs) : readInteger? cs = none := by
  obtain ⟨c, hc, hm, hp, hdigit⟩ : ∃ c ∈ cs, c ≠ '-' ∧ c ≠ '+' ∧ c.isDigit = false := by
    rcases h.shown with hc | hc
    · exact ⟨_, hc, by decide⟩
    · exact ⟨_, hc, by decide⟩
  have hall : ¬ ((sign cs).2 ≠ [] ∧ (sign cs).2.all Char.isDigit = true) := by
    rintro ⟨-, hall⟩
    exact absurd (List.all_eq_true.1 hall c (mem_sign hc hm hp)) (by simp [hdigit])
  rw [readInteger?]
  dsimp only
  rw [wholeNumber?, if_neg hall]
  rfl

end Decimal

namespace Value

/-- **A number and its text are the same integer.** -/
theorem int64Text?_number (n : Json.Number) : int64Text? n.text = n.toInt64? := by
  rw [int64Text?, n.isNumeral_text.trim]
  cases n with
  | integer k inRange =>
    rw [Json.Number.toList_text_integer, Decimal.readInteger?_integer]
    have hlow : (-9223372036854775808 ≤ k ∧ k < 9223372036854775808) ↔ k < 9223372036854775808 :=
      and_iff_right inRange.1
    simp only [hlow, Json.Number.toInt64?]
  | decimal x finite => rw [Decimal.readInteger?_decimal (Json.Number.isDecimal_text x finite)]; rfl

/-- The characters of a number have no case. -/
theorem lower_numeral (h : IsNumeral cs) : lower cs = cs := by
  have hdigit : ∀ c : Char, c.isDigit = true → c.toLower = c := by
    intro c hc
    simp only [Char.isDigit, Bool.and_eq_true, decide_eq_true_eq] at hc
    refine dif_neg fun hupper => ?_
    exact absurd (UInt32.le_trans hupper.1 hc.2) (by decide)
  rw [lower, List.map_congr_left (h.forall_mem hdigit (by decide)), List.map_id']

/-- Of the words for truth values only the two digits are numbers. -/
theorem truthWord?_numeral {s : String} (h : IsNumeral s.toList) :
    truthWord? s = if s = "1" then some true else if s = "0" then some false else none := by
  have hword : lowerCase (strip s) = s := by
    rw [lowerCase, strip, String.toList_ofList, h.trim, lower_numeral h, String.ofList_toList]
  have hletters : ∀ c ∈ s.toList, c ∉ ['t', 'y', 'f', 'n'] := by
    refine h.forall_mem (fun c hc hm => ?_) (by decide)
    have hno : ∀ c ∈ ['t', 'y', 'f', 'n'], c.isDigit = false := by simp
    exact absurd hc (by simp [hno c hm])
  have hother : ∀ w ∈ ["true", "yes", "y", "false", "no", "n"], s ≠ w := by
    have hwords : ∀ w ∈ ["true", "yes", "y", "false", "no", "n"],
        w.toList.any ['t', 'y', 'f', 'n'].contains = true := by decide
    rintro w hw rfl
    obtain ⟨c, hc, hm⟩ := List.any_eq_true.1 (hwords s hw)
    exact hletters c hc (List.contains_iff_mem.1 hm)
  simp only [List.forall_mem_cons, List.not_mem_nil, false_implies, implies_true] at hother
  simp only [truthWord?, hword, List.mem_cons, List.not_mem_nil, or_false, hother, false_or]

theorem truthNumber?_integer (k : Int)
    (inRange : -9223372036854775808 ≤ k ∧ k < 18446744073709551616) :
    truthNumber? (.integer k inRange) =
      if k = 1 then some true else if k = 0 then some false else none := by
  by_cases hone : k = 1
  · subst hone
    rfl
  by_cases hzero : k = 0
  · subst hzero
    rfl
  rw [if_neg hone, if_neg hzero, truthNumber?, Json.Number.toInt64?]
  split
  next m h =>
    split at h
    next hlt =>
      have hk := congrArg Int64.toInt (Option.some.inj h)
      rw [Int64.toInt_ofInt_of_le (by omega) hlt] at hk
      exact absurd hk hzero
    next => exact absurd h (by simp)
  next m h =>
    split at h
    next hlt =>
      have hk := congrArg Int64.toInt (Option.some.inj h)
      rw [Int64.toInt_ofInt_of_le (by omega) hlt] at hk
      exact absurd hk hone
    next => exact absurd h (by simp)
  next => rfl

/-- **A number and its text are the same truth value.** -/
theorem truthWord?_number (n : Json.Number) : truthWord? n.text = truthNumber? n := by
  rw [truthWord?_numeral n.isNumeral_text]
  cases n with
  | integer k inRange =>
    have hspelled : ∀ j : Int, Decimal.readInteger? (toString j).toList = some j →
        ((Json.Number.integer k inRange).text = toString j ↔ k = j) := by
      intro j hj
      refine ⟨fun h => ?_, fun h => by subst h; rfl⟩
      have hread := Decimal.readInteger?_integer k
      rw [← Json.Number.toList_text_integer k inRange, h, hj] at hread
      exact (Option.some.inj hread).symm
    rw [truthNumber?_integer]
    simp only [show ("1" : String) = toString (1 : Int) from rfl,
      show ("0" : String) = toString (0 : Int) from rfl, hspelled 1 rfl, hspelled 0 rfl]
  | decimal x finite =>
    have hshown := (Json.Number.isDecimal_text x finite).shown
    have hbare : ∀ w ∈ ["1", "0"], ¬ ('.' ∈ w.toList ∨ 'e' ∈ w.toList) := by decide
    have hother : ∀ w ∈ ["1", "0"], (Json.Number.decimal x finite).text ≠ w := by
      intro w hw h
      exact hbare w hw (h ▸ hshown)
    simp only [List.forall_mem_cons, List.not_mem_nil, false_implies, implies_true] at hother
    rw [if_neg hother.1, if_neg hother.2.1]
    rfl

end Value

/-! ## Numbers read as decimals -/

namespace Binary64

theorem roundHalfEven_le (a b : Nat) : roundHalfEven a b ≤ a / b + 1 := by
  unfold roundHalfEven
  dsimp only
  split_ifs <;> omega

/-- The bits of a number of units are bounded by the binary digits that it has. -/
theorem roundedBits_le {a j : Nat} (ha : a < 2 ^ (j + 53)) :
    roundedBits a 1 ≤ (j + 2) * 2 ^ 52 := by
  have hlog : a.log2 < j + 53 := by
    by_cases hzero : a = 0
    · subst hzero
      rw [Nat.log2_zero]
      omega
    · exact (Nat.log2_lt hzero).2 ha
  have hquotient : a / 2 ^ (a.log2 - 52) < 2 ^ 53 := by
    rw [Nat.div_lt_iff_lt_mul (Nat.two_pow_pos _), ← pow_add]
    exact Nat.lt_log2_self.trans_le (Nat.pow_le_pow_right (by decide) (by omega))
  have hround := roundHalfEven_le a (2 ^ (a.log2 - 52))
  rw [roundedBits, Nat.div_one, Nat.one_mul]
  show (a.log2 - 52) * 2 ^ 52 + roundHalfEven a (2 ^ (a.log2 - 52)) ≤ _
  omega

theorem exists_unitsPerOne : ∃ j, j = 1074 ∧ unitsPerOne = 2 ^ j := ⟨1074, rfl, rfl⟩

/-- **Within sixty-four bits there is a nearest number.** -/
theorem exists_nearest? {m : Nat} (hm : m ≤ 2 ^ 64) : ∃ x, nearest? m 1 = some x := by
  -- the power is named, so that nothing computes it
  obtain ⟨j, hj, hone⟩ := exists_unitsPerOne
  have hunits : m * unitsPerOne < 2 ^ (j + 12 + 53) := by
    rw [hone]
    calc m * 2 ^ j ≤ 2 ^ 64 * 2 ^ j := Nat.mul_le_mul_right _ hm
      _ = 2 ^ (64 + j) := (pow_add 2 64 j).symm
      _ < 2 ^ (j + 12 + 53) := Nat.pow_lt_pow_right (by decide) (by omega)
  have hbits : roundedBits (m * unitsPerOne) 1 < infinityBits := by
    have hle := roundedBits_le hunits
    rw [infinityBits_eq]
    omega
  exact ⟨_, if_pos hbits⟩

end Binary64

namespace Decimal

theorem nearestScaled?_whole {m : Nat} (hm : m ≤ 2 ^ 64) :
    nearestScaled? m 0 = Binary64.nearest? m 1 := by
  have hlength : (Nat.toDigits 10 m).length ≤ 20 :=
    (Nat.length_toDigits_le_iff (by decide) (by decide)).2 (hm.trans_lt (by decide))
  unfold nearestScaled?
  dsimp only
  by_cases hzero : m = 0
  · subst hzero
    rw [if_pos (.inl rfl), Binary64.nearest?, Nat.zero_mul]
    rfl
  · rw [if_neg (by omega), if_neg (by omega), if_pos (Int.le_refl 0)]
    exact congrArg (Binary64.nearest? · 1) (Nat.mul_one m)

/-- **An integer is read as the decimal that is nearest to it.** -/
theorem readDecimal?_integer (k : Int)
    (inRange : -9223372036854775808 ≤ k ∧ k < 18446744073709551616) :
    readDecimal? ((if k < 0 then ['-'] else []) ++ Nat.toDigits 10 k.natAbs) =
      some (Json.Number.integer k inRange).toBinary64 := by
  have hspan : spanDigits (Nat.toDigits 10 k.natAbs) = (Nat.toDigits 10 k.natAbs, []) := by
    rw [spanDigits, List.takeWhile_eq_self_iff.2 (digits_toDigits _),
      List.dropWhile_eq_nil_iff.2 (digits_toDigits _)]
  have hm : k.natAbs ≤ 2 ^ 64 := by omega
  obtain ⟨x, hx⟩ := Binary64.exists_nearest? hm
  have hnearest : nearestScaled? (digitsValue 0 (Nat.toDigits 10 k.natAbs ++ [])) 0 = some x := by
    rw [List.append_nil, digitsValue_eq, Nat.ofDigitChars_ten_toDigits, nearestScaled?_whole hm, hx]
  rw [readDecimal?, sign_signed k (digits_toDigits _)]
  dsimp only
  rw [hspan]
  dsimp only
  rw [if_neg fun h => Nat.toDigits_ne_nil h.1]
  show (nearestScaled? (digitsValue 0 (Nat.toDigits 10 k.natAbs ++ [])) 0).bind _ = _
  rw [hnearest, Json.Number.toBinary64, Binary64.ofInt?, hx]
  rfl

end Decimal

/-! ## Numbers read as bytes -/

namespace Value

/-- Numerals have no mark of hexadecimal digits. -/
theorem hexMark_numeral {mark digits : List Char} (h : IsNumeral (mark ++ digits))
    (hmark : mark ∈ hexMarks) : mark = [] := by
  have hx : ∀ c ∈ mark ++ digits, c ≠ 'x' ∧ c ≠ 'X' :=
    h.forall_mem (fun c hc => ⟨by rintro rfl; exact absurd hc (by decide),
      by rintro rfl; exact absurd hc (by decide)⟩) (by decide)
  simp only [hexMarks, List.mem_cons, List.not_mem_nil, or_false] at hmark
  rcases hmark with rfl | rfl | rfl
  · rfl
  · exact absurd rfl (hx 'x' (by simp)).1
  · exact absurd rfl (hx 'X' (by simp)).2

/-- **A number is read as the bytes that it spells**, if it spells any. -/
theorem coerce_numeral_binary {s : String} {value : Value} (h : IsNumeral s.toList) :
    coerce (.string s) .binary = .ok value ↔
      ∃ bytes, value = .binary bytes ∧ Hex.encode bytes = s := by
  constructor
  · intro hread
    obtain ⟨mark, hmark, digits, bytes, hs, hspells, rfl⟩ := coerce_text_binary.1 hread
    rw [h.trim] at hs
    obtain rfl := hexMark_numeral (hs ▸ h) hmark
    refine ⟨bytes, rfl, ?_⟩
    rw [← hspells.lower, ← List.nil_append digits, ← hs, lower_numeral h, String.ofList_toList]
  · rintro ⟨bytes, rfl, rfl⟩
    rw [coerce_string_binary, coerceBinary_encode]

end Value

end RecordSql
