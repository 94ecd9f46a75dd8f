import RecordSql.Proofs.ShortestDigits

/-!
# Printed decimals are read back

A decimal is printed as its sign and its shortest digits, with the point in place or with an
exponent. The reader takes the sign off, joins the digits on both sides of the point, and takes the
exponent down by the number of digits behind it. Zeros that the layout puts in front of the digits
or behind them change the digits and the exponent, but not the number that they stand for. So every
decimal is read back from its text.
-/

namespace RecordSql

open Calendar

namespace Decimal

open Binary64

variable {x : Binary64} {e : Int} {cs ds whole fraction rest : List Char} {negative : Bool}

/-! ## Parts of a text -/

theorem spanDigits_append (hd : Digits ds) (hend : EndsNumber rest) :
    spanDigits (ds ++ rest) = (ds, rest) := by
  have hstop : rest.takeWhile Char.isDigit = [] ∧ rest.dropWhile Char.isDigit = rest := by
    cases rest with
    | nil => exact ⟨rfl, rfl⟩
    | cons c rest =>
      have hc : ¬ c.isDigit = true := by simp [hend c rfl]
      exact ⟨List.takeWhile_cons_of_neg hc, List.dropWhile_cons_of_neg hc⟩
  rw [spanDigits, List.takeWhile_append_of_pos hd, List.dropWhile_append_of_pos hd, hstop.1,
    hstop.2, List.append_nil]

theorem readDecimal?_point (hs : sign cs = (negative, whole ++ '.' :: (fraction ++ rest)))
    (hw : Digits whole) (hne : whole ≠ []) (hf : Digits fraction) (hend : EndsNumber rest)
    (he : exponent? rest = some e)
    (hx : nearestScaled? (digitsValue 0 (whole ++ fraction)) (e - (fraction.length : Int)) =
      some x) : readDecimal? cs = some (x.withSign negative) := by
  have hpoint : EndsNumber ('.' :: (fraction ++ rest)) := endsNumber_of_mark (by simp)
  rw [readDecimal?, hs]
  dsimp only
  rw [spanDigits_append hw hpoint]
  show (if whole = [] ∧ (spanDigits (fraction ++ rest)).1 = [] then none
    else exponent? (spanDigits (fraction ++ rest)).2 >>= fun e =>
      nearestScaled? (digitsValue 0 (whole ++ (spanDigits (fraction ++ rest)).1))
        (e - ((spanDigits (fraction ++ rest)).1.length : Int)) >>= fun x =>
          pure (x.withSign negative)) = _
  rw [spanDigits_append hf hend]
  dsimp only
  rw [if_neg fun h => hne h.1, he]
  show (nearestScaled? _ _).bind _ = _
  rw [hx]
  rfl

theorem readDecimal?_bare (hs : sign cs = (negative, whole ++ rest)) (hw : Digits whole)
    (hne : whole ≠ []) (hrest : ∀ c ∈ rest.head?, c = 'e') (he : exponent? rest = some e)
    (hx : nearestScaled? (digitsValue 0 whole) e = some x) :
    readDecimal? cs = some (x.withSign negative) := by
  have hmark : EndsNumber rest := endsNumber_of_mark fun c hc => .inr (hrest c hc)
  rw [readDecimal?, hs]
  dsimp only
  rw [spanDigits_append hw hmark]
  dsimp only
  split
  next heq => exact absurd (hrest '.' rfl) (by decide)
  next =>
    dsimp only
    rw [if_neg fun h => hne h.1, he, List.append_nil]
    show (nearestScaled? _ (e - 0)).bind _ = _
    rw [Int.sub_zero, hx]
    rfl

theorem digitsValue_leading (k : Nat) (ds : List Char) :
    digitsValue 0 (List.replicate k '0' ++ ds) = digitsValue 0 ds := by
  rw [digitsValue_eq, Nat.ofDigitChars_append, Nat.ofDigitChars_replicate_zero, Nat.mul_zero,
    digitsValue_eq]

theorem exponent?_cons (rest : List Char) : exponent? ('e' :: rest) = readInteger? rest := by
  rw [exponent?, if_pos (Or.inl rfl)]

/-- An exponent is read with the sign that it always has. -/
theorem exponent?_signed (k : Int) :
    exponent? ((if k < 0 then ['e', '-'] else ['e', '+']) ++ Nat.toDigits 10 k.natAbs) =
      some k := by
  split
  next h =>
    have hread := readInteger?_integer k
    rw [if_pos h] at hread
    exact (exponent?_cons _).trans hread
  next h =>
    have hsign : sign ('+' :: Nat.toDigits 10 k.natAbs) = (false, Nat.toDigits 10 k.natAbs) := rfl
    refine (exponent?_cons _).trans ?_
    show readInteger? ('+' :: Nat.toDigits 10 k.natAbs) = _
    rw [readInteger?, hsign]
    dsimp only
    rw [wholeNumber?_toDigits]
    exact congrArg some (Int.natAbs_of_nonneg (Int.not_lt.1 h))

/-! ## Layouts -/

variable {m : Numeral}

/-- **Zeros around the digits do not matter**, as long as the exponent makes up for those behind. -/
theorem Numeral.Gives.point (h : m.Gives x) (hm : m.IsProper) {i j : Nat}
    (hs : sign cs = (negative, whole ++ '.' :: (fraction ++ rest))) (hne : whole ≠ [])
    (hend : EndsNumber rest) (he : exponent? rest = some e)
    (hdigits : whole ++ fraction =
      List.replicate i '0' ++ (m.digits ++ List.replicate j '0'))
    (hstep : e - (fraction.length : Int) = m.exponent - ((m.digits.length : Int) - 1) - j) :
    readDecimal? cs = some (x.withSign negative) := by
  have hall : Digits (whole ++ fraction) :=
    hdigits ▸ (digits_zeros i).append (hm.2.append (digits_zeros j))
  refine readDecimal?_point hs (fun c hc => hall c (List.mem_append_left _ hc)) hne
    (fun c hc => hall c (List.mem_append_right _ hc)) hend he ?_
  rw [hdigits, digitsValue_leading, digitsValue_zeros, Nat.mul_comm, hstep]
  exact h j

theorem Numeral.Gives.positional (h : m.Gives x) (hm : m.IsProper)
    (hs : sign cs = (negative, Json.positional m)) :
    readDecimal? cs = some (x.withSign negative) := by
  have hpos := List.length_pos_iff.2 hm.1
  have hnone : EndsNumber [] := fun c hc => absurd hc (by simp)
  unfold Json.positional at hs
  split at hs
  next hexponent =>
    obtain ⟨width, hwidth⟩ : ∃ width, m.exponent.toNat + 1 = width := ⟨_, rfl⟩
    dsimp only at hs
    rw [hwidth] at hs
    by_cases hl : m.digits.length ≤ width
    · -- all digits stand before the point, with zeros behind them and one behind the point
      obtain ⟨k, hk⟩ : ∃ k, width - m.digits.length = k := ⟨_, rfl⟩
      rw [List.take_of_length_le hl, List.drop_of_length_le hl, if_pos rfl, hk,
        ← List.append_nil ['0']] at hs
      refine h.point hm (i := 0) (j := k + 1) hs (by simp [hm.1]) hnone rfl ?_ ?_
      · rw [List.append_assoc, List.replicate_succ']
        rfl
      · rw [List.length_singleton]
        omega
    · -- the digits stand on both sides of the point
      have hdrop : m.digits.drop width ≠ [] := by
        rw [Ne, List.drop_eq_nil_iff]
        exact hl
      have hnil : width - m.digits.length = 0 := by omega
      rw [hnil, if_neg hdrop, List.replicate_zero, List.append_nil,
        ← List.append_nil (m.digits.drop width)] at hs
      refine h.point hm (i := 0) (j := 0) hs ?_ hnone rfl ?_ ?_
      · intro htake
        have hlength := congrArg List.length htake
        rw [List.length_take, List.length_nil] at hlength
        omega
      · rw [List.take_append_drop]
        exact (List.append_nil _).symm
      · rw [List.length_drop]
        omega
  next hexponent =>
    -- the digits stand behind the point, with zeros in front of them
    obtain ⟨k, hk⟩ : ∃ k, (-m.exponent).toNat - 1 = k := ⟨_, rfl⟩
    have hs' : sign cs =
        (negative, ['0'] ++ '.' :: (List.replicate k '0' ++ m.digits ++ [])) := by
      rw [hs, hk, List.append_nil]
      rfl
    refine h.point hm (i := k + 1) (j := 0) hs' (List.cons_ne_nil _ _) hnone rfl ?_ ?_
    · rw [List.replicate_zero, List.append_nil]
      rfl
    · rw [List.length_append, List.length_replicate]
      omega

theorem Numeral.Gives.scientific (h : m.Gives x) (hm : m.IsProper)
    (hs : sign cs = (negative, Json.scientific m)) :
    readDecimal? cs = some (x.withSign negative) := by
  have hmark : ∀ c ∈ ((if m.exponent < 0 then ['e', '-'] else ['e', '+']) ++
      Nat.toDigits 10 m.exponent.natAbs).head?, c = 'e' := by
    split <;> simp
  have hexponent := exponent?_signed m.exponent
  unfold Json.scientific at hs
  dsimp only at hs
  rw [List.append_assoc] at hs
  generalize (if m.exponent < 0 then ['e', '-'] else ['e', '+']) ++
    Nat.toDigits 10 m.exponent.natAbs = rest at hs hmark hexponent
  split at hs
  next hdigits => exact absurd hdigits hm.1
  next d hdigits =>
    have hlone := h 0
    have hd := hm.2
    rw [hdigits] at hd hlone
    refine readDecimal?_bare hs hd (List.cons_ne_nil _ _) hmark hexponent ?_
    simpa using hlone
  next d tail _ hdigits =>
    have hend : EndsNumber rest := endsNumber_of_mark fun c hc => .inr (hmark c hc)
    have hs' : sign cs = (negative, [d] ++ '.' :: (tail ++ rest)) := hs
    refine h.point hm (i := 0) (j := 0) hs' (List.cons_ne_nil _ _) hend hexponent ?_ ?_
    · rw [hdigits]
      exact (List.append_nil _).symm
    · rw [hdigits, List.length_cons]
      omega

/-- A numeral is written with a digit in front. -/
theorem exists_write_eq_cons (layout : Json.Layout) (hm : m.IsProper) :
    ∃ d tail, layout.write m = d :: tail ∧ d.isDigit = true := by
  obtain ⟨hne, hd⟩ := hm
  obtain ⟨d, rest, hdigits⟩ := List.exists_cons_of_ne_nil hne
  rw [hdigits] at hd
  have hfirst := hd d List.mem_cons_self
  unfold Json.Layout.write
  split
  · unfold Json.positional
    rw [hdigits]
    split
    · exact ⟨d, _, rfl, hfirst⟩
    · exact ⟨'0', _, rfl, rfl⟩
  · unfold Json.scientific
    rw [hdigits]
    cases rest with
    | nil => exact ⟨d, _, rfl, hfirst⟩
    | cons c rest => exact ⟨d, _, rfl, hfirst⟩

/-- **A printed decimal is read back.** -/
theorem readDecimal?_text (x : Binary64) (finite : x.isFinite = true) :
    readDecimal? (Json.Number.decimal x finite).text.toList = some x := by
  have hgives := gives_shortest finite
  have hm := isProper_shortest x
  have hs : sign (Json.Number.decimal x finite).text.toList =
      (x.negative, Json.decimalLayout.write (shortest x)) := by
    show sign (String.ofList _).toList = _
    rw [String.toList_ofList]
    split
    next h =>
      rw [h]
      rfl
    next h =>
      rw [Bool.eq_false_iff.2 h]
      obtain ⟨d, tail, hwrite, hd⟩ := exists_write_eq_cons Json.decimalLayout hm
      rw [hwrite]
      exact sign_of_digit hd
  have hx : some (x.magnitude.withSign x.negative) = some x := congrArg some x.withSign_magnitude
  rw [← hx]
  unfold Json.Layout.write at hs
  split at hs
  · exact hgives.positional hm hs
  · exact hgives.scientific hm hs

end Decimal

end RecordSql
