import Mathlib.Tactic.Ring
import RecordSql.Proofs.NumberText

/-!
# Shortest digits read as their number

A decimal is printed with the shortest digits that read as it. That there are any, and that they are
found, takes three steps.

* **Rounding.** A number has at most fifty-three binary digits. What differs from it by less than
  one part in `2 ^ 54` is rounded to it, below a power of two as well.
* **Candidates.** On a grid of seventeen digits the nearer neighbour of the number differs from it
  by half a step at most, and the number is ten to the sixteenth steps or more. That is close
  enough, so a search up to seventeen digits finds a candidate, and every candidate reads as the
  number.
* **Range.** The reader gives up on exponents that are far out of range. What reads as a positive
  number is not.

All of this is about ratios of natural numbers, compared by cross-multiplication. The units of a
number are a power of two so large that it is always named and never computed.
-/

namespace RecordSql

open Calendar

namespace Binary64

variable {x : Binary64} {a b c m k : Nat}

/-! ## Rounding -/

/-- What lies less than half a step off a whole number of steps is rounded to it. -/
theorem roundHalfEven_near (hlow : 2 * (m * c) < 2 * a + c) (hhigh : 2 * a < 2 * (m * c) + c) :
    roundHalfEven a c = m := by
  have hc : 0 < c := by omega
  have hsplit : c * (a / c) + a % c = a := Nat.div_add_mod a c
  have hlt : a % c < c := Nat.mod_lt a hc
  rw [Nat.mul_comm] at hsplit
  unfold roundHalfEven
  dsimp only
  rcases Nat.lt_trichotomy (a / c) m with hq | hq | hq
  · -- the whole number of steps is the next one
    have hle : (a / c + 1) * c ≤ m * c := Nat.mul_le_mul_right c hq
    rw [Nat.succ_mul] at hle
    have hnext : a / c + 1 = m := by
      by_contra hne
      have hle' : (a / c + 2) * c ≤ m * c := Nat.mul_le_mul_right c (by omega)
      rw [Nat.add_mul] at hle'
      omega
    have hm : m * c = a / c * c + c := by rw [← hnext, Nat.succ_mul]
    rw [if_neg (by omega), if_pos (by omega), hnext]
  · rw [if_pos (by rw [hq] at hsplit; omega), hq]
  · have hle : (m + 1) * c ≤ a / c * c := Nat.mul_le_mul_right c hq
    rw [Nat.succ_mul] at hle
    omega

/-- How far the last place is shifted is read off the size. -/
theorem log2_sub_eq (hb : 0 < b) (hlow : k = 0 ∨ 2 ^ 52 * (b * 2 ^ k) ≤ a)
    (hhigh : a < 2 ^ 53 * (b * 2 ^ k)) : Nat.log2 (a / b) - 52 = k := by
  have hlt : a / b < 2 ^ (53 + k) := by
    rw [Nat.div_lt_iff_lt_mul hb, Nat.pow_add, Nat.mul_assoc, Nat.mul_comm (2 ^ k)]
    exact hhigh
  have hlog : Nat.log2 (a / b) < 53 + k := by
    by_cases hzero : a / b = 0
    · rw [hzero, Nat.log2_zero]
      omega
    · exact (Nat.log2_lt hzero).2 hlt
  rcases hlow with rfl | hlow
  · omega
  · have hle : 2 ^ (52 + k) ≤ a / b := by
      rw [Nat.le_div_iff_mul_le hb, Nat.pow_add, Nat.mul_assoc, Nat.mul_comm (2 ^ k)]
      exact hlow
    have hlog' : 52 + k ≤ Nat.log2 (a / b) :=
      (Nat.le_log2 (Nat.ne_of_gt ((Nat.two_pow_pos _).trans_le hle))).2 hle
    omega

theorem roundedBits_of_shift (hlog : Nat.log2 (a / b) - 52 = k)
    (hlow : 2 * (m * (b * 2 ^ k)) < 2 * a + b * 2 ^ k)
    (hhigh : 2 * a < 2 * (m * (b * 2 ^ k)) + b * 2 ^ k) : roundedBits a b = k * 2 ^ 52 + m := by
  have hround : roundHalfEven a (b * Nat.pow 2 (Nat.log2 (a / b) - 52)) = m := by
    rw [hlog]
    exact roundHalfEven_near hlow hhigh
  unfold roundedBits
  dsimp only
  rw [hround, hlog]
  rfl

/-- **What lies within half a last place of a number is rounded to it.** One part in `2 ^ 54` is
never more than that, not even below a power of two, where the places are half as far apart. -/
theorem roundedBits_near (hb : 0 < b) (hm : m < 2 ^ 53) (hk : k = 0 ∨ 2 ^ 52 ≤ m)
    (hlow : m * (b * 2 ^ k) * (2 ^ 54 - 1) < a * 2 ^ 54)
    (hhigh : a * 2 ^ 54 < m * (b * 2 ^ k) * (2 ^ 54 + 1)) :
    roundedBits a b = k * 2 ^ 52 + m := by
  have hc : 0 < b * 2 ^ k := Nat.mul_pos hb (Nat.two_pow_pos k)
  have hle : m * (b * 2 ^ k) ≤ (2 ^ 53 - 1) * (b * 2 ^ k) := Nat.mul_le_mul_right _ (by omega)
  by_cases hsize : k = 0 ∨ 2 ^ 52 * (b * 2 ^ k) ≤ a
  · generalize hcc : b * 2 ^ k = c at *
    refine roundedBits_of_shift (log2_sub_eq hb (hcc ▸ hsize) ?_) ?_ ?_
    · rw [hcc]
      omega
    · rw [hcc]
      omega
    · rw [hcc]
      omega
  · -- the places below a power of two are half as far apart
    rw [not_or, Nat.not_le] at hsize
    obtain ⟨j, rfl⟩ := Nat.exists_eq_add_one_of_ne_zero hsize.1
    have hge : 2 ^ 52 * (b * 2 ^ (j + 1)) ≤ m * (b * 2 ^ (j + 1)) :=
      Nat.mul_le_mul_right _ (hk.resolve_left hsize.1)
    have hm' : m = 2 ^ 52 := by
      by_contra hne
      have hmore : (2 ^ 52 + 1) * (b * 2 ^ (j + 1)) ≤ m * (b * 2 ^ (j + 1)) :=
        Nat.mul_le_mul_right _ (by omega)
      generalize b * 2 ^ (j + 1) = c at *
      omega
    subst hm'
    have hhalf : b * 2 ^ (j + 1) = 2 * (b * 2 ^ j) := by rw [Nat.pow_succ]; ring
    rw [hhalf] at hlow hhigh hsize
    have hbits : roundedBits a b = j * 2 ^ 52 + 2 ^ 53 := by
      refine roundedBits_of_shift (log2_sub_eq hb ?_ ?_) ?_ ?_
      all_goals (generalize b * 2 ^ j = c at hlow hhigh hsize ⊢; omega)
    rw [hbits]
    omega

/-- The bits of a number are its significand and, shifted, its exponent. -/
theorem bits_eq (h : x.BelowInfinity) :
    x.bits.toNat = x.shift * 2 ^ 52 + x.significand ∧ x.significand < 2 ^ 53 ∧
      (x.shift = 0 ∨ 2 ^ 52 ≤ x.significand) := by
  have hpow : Nat.pow 2 52 = 4503599627370496 := by decide
  unfold BelowInfinity at h
  rw [infinityBits_eq] at h
  unfold shift significand exponentField fractionField
  rw [hpow]
  split <;> omega

/-- **What lies that close to a finite number is rounded to it.** -/
theorem ofUnits?_near (h : x.BelowInfinity) (hb : 0 < b)
    (hlow : x.units * b * (2 ^ 54 - 1) < a * 2 ^ 54)
    (hhigh : a * 2 ^ 54 < x.units * b * (2 ^ 54 + 1)) : ofUnits? a b = some x := by
  obtain ⟨hbits, hm, hk⟩ := bits_eq h
  have hunits : x.units * b = x.significand * (b * 2 ^ x.shift) := by
    rw [units, Nat.pow_eq, Nat.mul_assoc, Nat.mul_comm (2 ^ x.shift)]
  rw [hunits] at hlow hhigh
  have hrounded : roundedBits a b = x.bits.toNat :=
    (roundedBits_near hb hm hk hlow hhigh).trans hbits.symm
  have hinfinity : roundedBits a b < infinityBits := hrounded ▸ h
  unfold ofUnits?
  dsimp only
  rw [if_pos hinfinity, hrounded, UInt64.ofNat_toNat]

theorem unitsPerOne_pos : 0 < unitsPerOne := by
  obtain ⟨j, _, hone⟩ := exists_unitsPerOne
  rw [hone]
  exact Nat.two_pow_pos j

/-! ## Ratios -/

theorem roundHalfEven_mul {j : Nat} (hj : 0 < j) (a c : Nat) :
    roundHalfEven (a * j) (c * j) = roundHalfEven a c := by
  have hless : ∀ r s, r * j < s * j ↔ r < s := fun r s => Nat.mul_lt_mul_right hj
  unfold roundHalfEven
  dsimp only
  rw [Nat.mul_div_mul_right _ _ hj, Nat.mul_mod_mul_right, ← Nat.mul_assoc]
  simp only [hless]

theorem roundedBits_mul {j : Nat} (hj : 0 < j) (a b : Nat) :
    roundedBits (a * j) (b * j) = roundedBits a b := by
  unfold roundedBits
  dsimp only
  rw [Nat.mul_div_mul_right _ _ hj, Nat.mul_right_comm b j, roundHalfEven_mul hj]

/-- **Ratios that are equal are rounded alike.** -/
theorem nearest?_congr {num den num' den' : Nat} (h : num * den' = num' * den) (hd : 0 < den)
    (hd' : 0 < den') : nearest? num den = nearest? num' den' := by
  have hbits : roundedBits (num * unitsPerOne) den = roundedBits (num' * unitsPerOne) den' := by
    rw [← roundedBits_mul hd' _ den, ← roundedBits_mul hd _ den', Nat.mul_comm den' den,
      Nat.mul_right_comm num, Nat.mul_right_comm num', h]
  unfold nearest? ofUnits?
  dsimp only
  rw [hbits]

/-! ## Out of range -/

theorem le_roundHalfEven (a c : Nat) : a / c ≤ roundHalfEven a c := by
  unfold roundHalfEven
  dsimp only
  split_ifs <;> omega

/-- Less than half a unit is rounded to zero. -/
theorem roundedBits_eq_zero (h : 2 * a < b) : roundedBits a b = 0 := by
  have hlog : Nat.log2 (a / b) - 52 = 0 := by
    rw [Nat.div_eq_of_lt (by omega), Nat.log2_zero]
  exact (roundedBits_of_shift (m := 0) hlog (by omega) (by omega)).trans (Nat.zero_mul _)

/-- Two to the `1024`, which is that many units, is rounded to infinity. -/
theorem infinityBits_le_roundedBits {j : Nat} (hj : 2098 ≤ j) (hb : 0 < b) (h : b * 2 ^ j ≤ a) :
    infinityBits ≤ roundedBits a b := by
  have hquotient : 2 ^ j ≤ a / b := (Nat.le_div_iff_mul_le hb).2 (by rwa [Nat.mul_comm])
  have hne : a / b ≠ 0 := Nat.ne_of_gt ((Nat.two_pow_pos j).trans_le hquotient)
  have hlog : j ≤ Nat.log2 (a / b) := (Nat.le_log2 hne).2 hquotient
  obtain ⟨k, hk⟩ : ∃ k, Nat.log2 (a / b) = k + 52 := ⟨Nat.log2 (a / b) - 52, by omega⟩
  have hself : 2 ^ (k + 52) ≤ a / b := hk ▸ Nat.log2_self_le hne
  have hsignificand : 2 ^ 52 ≤ a / (b * 2 ^ k) := by
    rw [← Nat.div_div_eq_div_mul, Nat.le_div_iff_mul_le (Nat.two_pow_pos k), ← Nat.pow_add,
      Nat.add_comm]
    exact hself
  have hround := hsignificand.trans (le_roundHalfEven a (b * 2 ^ k))
  rw [infinityBits_eq, roundedBits, hk, Nat.add_sub_cancel]
  show _ ≤ k * 2 ^ 52 + roundHalfEven a (b * 2 ^ k)
  omega

end Binary64

namespace Decimal

open Binary64

variable {x : Binary64} {num den n : Nat} {e lead : Int}

/-! ## Powers of ten -/

theorem ten_pow_pos (j : Nat) : 0 < 10 ^ j := Nat.pow_pos (by decide)

theorem scaled_pos (hd : 0 < den) : 0 < (scaled num den e).2 := by
  unfold scaled
  split
  · exact hd
  · exact Nat.mul_pos hd (ten_pow_pos _)

/-- A scaled ratio is the ratio times the power of ten. -/
theorem scaled_cross (num den p q : Nat) :
    (scaled num den ((p : Int) - q)).1 * (den * 10 ^ q) =
      num * 10 ^ p * (scaled num den ((p : Int) - q)).2 := by
  unfold scaled
  split
  next h =>
    obtain ⟨j, rfl⟩ : ∃ j, p = q + j := ⟨p - q, by omega⟩
    have hj : ((q + j : Nat) - (q : Int)).toNat = j := by omega
    rw [hj]
    show num * 10 ^ j * (den * 10 ^ q) = num * 10 ^ (q + j) * den
    ring
  next h =>
    obtain ⟨j, rfl⟩ : ∃ j, q = p + j := ⟨q - p, by omega⟩
    have hj : (-((p : Int) - (p + j : Nat))).toNat = j := by omega
    rw [hj]
    show num * (den * 10 ^ (p + j)) = num * 10 ^ p * (den * 10 ^ j)
    ring

/-- A step up for the one is a step down for the other. -/
theorem scaled_neg (num den n : Nat) (e : Int) :
    (scaled n 1 e).1 * den = n * (scaled num den (-e)).2 ∧
      num * (scaled n 1 e).2 = (scaled num den (-e)).1 := by
  unfold scaled
  rcases Int.lt_trichotomy e 0 with h | rfl | h
  · rw [if_neg (by omega), if_pos (by omega), Nat.one_mul]
    exact ⟨rfl, rfl⟩
  · show n * 1 * den = n * den ∧ num * 1 = num * 1
    rw [Nat.mul_one]
    exact ⟨rfl, rfl⟩
  · rw [if_pos (by omega), if_neg (by omega), Int.neg_neg]
    exact ⟨by rw [Nat.mul_assoc, Nat.mul_comm den], Nat.mul_one num⟩

theorem readsAs_iff : readsAs x n e = true ↔
    nearest? (scaled n 1 e).1 (scaled n 1 e).2 = some x := beq_iff_eq

/-- **Trailing zeros stand for a power of ten.** -/
theorem readsAs_mul_pow (j : Nat) : readsAs x (n * 10 ^ j) e = readsAs x n (e + j) := by
  obtain ⟨p, q, rfl⟩ : ∃ p q : Nat, e = (p : Int) - q := ⟨e.toNat, (-e).toNat, by omega⟩
  have hshift : (p : Int) - q + j = ((p + j : Nat) : Int) - q := by omega
  have hcross := scaled_cross (n * 10 ^ j) 1 p q
  have hcross' := scaled_cross n 1 (p + j) q
  rw [← hshift] at hcross'
  have hratio : (scaled (n * 10 ^ j) 1 ((p : Int) - q)).1 * (scaled n 1 ((p : Int) - q + j)).2 =
      (scaled n 1 ((p : Int) - q + j)).1 * (scaled (n * 10 ^ j) 1 ((p : Int) - q)).2 := by
    refine Nat.eq_of_mul_eq_mul_right (ten_pow_pos q) ?_
    rw [Nat.one_mul] at hcross hcross'
    rw [Nat.mul_right_comm, hcross, Nat.mul_right_comm _ _ (10 ^ q), hcross']
    ring
  rw [Bool.eq_iff_iff, readsAs_iff, readsAs_iff,
    nearest?_congr hratio (scaled_pos Nat.one_pos) (scaled_pos Nat.one_pos)]

/-! ## Candidates -/

theorem lt_pow_length (n : Nat) : n < 10 ^ (digitsOf n).length :=
  (Nat.length_toDigits_le_iff (by decide) (List.length_pos_iff.2 Nat.toDigits_ne_nil)).1 le_rfl

theorem pow_length_le (hn : 0 < n) : 10 ^ ((digitsOf n).length - 1) ≤ n := by
  rcases Nat.eq_zero_or_pos ((digitsOf n).length - 1) with hzero | hpos
  · rw [hzero]
    exact hn
  · refine Nat.le_of_not_lt fun hlt => ?_
    have hle := (Nat.length_toDigits_le_iff (by decide) hpos).2 hlt
    rw [digitsOf] at hle hpos
    omega

/-- No more than the ratio is ten to the power of its leading exponent. -/
theorem leadingExponent_le (hn : 0 < num) (hd : 0 < den) : ∃ p q : Nat,
    leadingExponent num den = (p : Int) - q ∧ den * 10 ^ p ≤ num * 10 ^ q := by
  have hpos : ∀ m, 1 ≤ (digitsOf m).length := fun m => List.length_pos_iff.2 Nat.toDigits_ne_nil
  unfold leadingExponent
  split
  next h =>
    refine ⟨(digitsOf (num / den)).length - 1, 0, ?_, ?_⟩
    · have := hpos (num / den)
      omega
    · rw [Nat.pow_zero, Nat.mul_one, Nat.mul_comm]
      exact (Nat.le_div_iff_mul_le hd).1 (pow_length_le (Nat.div_pos h hd))
  next h =>
    dsimp only
    split
    next hle =>
      refine ⟨0, (digitsOf (den / num)).length - 1, ?_, ?_⟩
      · have := hpos (den / num)
        omega
      · rw [Nat.pow_zero, Nat.mul_one]
        exact hle
    next =>
      refine ⟨0, (digitsOf (den / num)).length, by omega, ?_⟩
      rw [Nat.pow_zero, Nat.mul_one, Nat.mul_comm num]
      exact ((Nat.div_lt_iff_lt_mul hn).1 (lt_pow_length _)).le

/-- **A point of a fine grid reads as the number** when it lies within half a step of it. -/
theorem readsAs_near (h : x.BelowInfinity) {step : Int} {grid : Nat × Nat}
    (hgrid : scaled x.units unitsPerOne (-step) = grid) (hfine : 10 ^ 16 * grid.2 ≤ grid.1)
    (hlow : 2 * grid.1 ≤ 2 * (n * grid.2) + grid.2)
    (hhigh : 2 * (n * grid.2) ≤ 2 * grid.1 + grid.2) : readsAs x n step = true := by
  obtain ⟨hn, hunits⟩ := scaled_neg x.units unitsPerOne n step
  have hpos : 0 < grid.2 := hgrid ▸ scaled_pos unitsPerOne_pos
  rw [hgrid] at hn hunits
  refine readsAs_iff.2 (ofUnits?_near h (scaled_pos Nat.one_pos) ?_ ?_)
  · rw [hn, hunits]
    omega
  · rw [hn, hunits]
    omega

theorem nearer_cases (num den low : Nat) :
    nearer num den low = low ∨ nearer num den low = low + 1 := by
  unfold nearer
  dsimp only
  split_ifs <;> simp

/-- Only what reads as the number is a candidate. -/
theorem readsAs_of_candidate? {count : Nat} (h : candidate? x lead count = some n) :
    readsAs x n (lead - (count : Int) + 1) = true := by
  unfold candidate? at h
  -- named, so that no comparison of terms computes it
  generalize readsAs x = reads at h ⊢
  dsimp only at h
  split_ifs at h with hlow hhigh hhigh
  · obtain rfl := Option.some.inj h
    rcases nearer_cases _ _ _ with hn | hn
    · rw [hn, hlow]
    · rw [hn, hhigh]
  · exact Option.some.inj h ▸ hlow
  · exact Option.some.inj h ▸ hhigh

/-- There is a candidate if a neighbour on the grid reads as the number. -/
theorem isSome_candidate? {count : Nat}
    (hgrid : scaled x.units unitsPerOne (-(lead - (count : Int) + 1)) = (num, den))
    (h : readsAs x (num / den) (lead - (count : Int) + 1) = true ∨
      readsAs x (num / den + 1) (lead - (count : Int) + 1) = true) :
    (candidate? x lead count).isSome = true := by
  unfold candidate?
  generalize readsAs x = reads at h ⊢
  dsimp only
  rw [hgrid]
  dsimp only
  split_ifs with hlow hhigh hhigh
  · rfl
  · rfl
  · rfl
  · exact absurd h (by simp [hlow, hhigh])

/-- **Seventeen digits suffice.** -/
theorem isSome_candidate?_seventeen (h : x.BelowInfinity) (hx : 0 < x.units)
    (hlead : leadingExponent x.units unitsPerOne = lead) :
    (candidate? x lead 17).isSome = true := by
  obtain ⟨p, q, hpq, hle⟩ := leadingExponent_le hx unitsPerOne_pos
  cases hgrid : scaled x.units unitsPerOne (-(lead - ((17 : Nat) : Int) + 1)) with
  | mk num den =>
    have hpos : 0 < (num, den).2 := hgrid ▸ scaled_pos unitsPerOne_pos
    have hfine : 10 ^ 16 * den ≤ num := by
      have hcross := scaled_cross x.units unitsPerOne (q + 16) p
      rw [show ((q + 16 : Nat) : Int) - p = -(lead - ((17 : Nat) : Int) + 1) by omega,
        hgrid] at hcross
      refine Nat.le_of_mul_le_mul_right ?_ (Nat.mul_pos unitsPerOne_pos (ten_pow_pos p))
      calc 10 ^ 16 * den * (unitsPerOne * 10 ^ p)
          ≤ 10 ^ 16 * den * (x.units * 10 ^ q) := Nat.mul_le_mul_left _ hle
        _ = x.units * 10 ^ (q + 16) * den := by ring
        _ = num * (unitsPerOne * 10 ^ p) := hcross.symm
    have hsplit : den * (num / den) + num % den = num := Nat.div_add_mod _ _
    have hlt : num % den < den := Nat.mod_lt _ hpos
    rw [Nat.mul_comm] at hsplit
    -- the nearer one of the two neighbours reads as the number
    refine isSome_candidate? hgrid ?_
    by_cases hhalf : 2 * (num % den) ≤ den
    · exact .inl (readsAs_near h hgrid hfine (by dsimp only; omega) (by dsimp only; omega))
    · have hnext : (num / den + 1) * den = num / den * den + den := by
        rw [Nat.add_mul, Nat.one_mul]
      exact .inr (readsAs_near h hgrid hfine (by dsimp only; omega) (by dsimp only; omega))

/-- A search that can succeed ends with a candidate. -/
theorem search_eq (candidate? : Nat → Option Nat) {count tries : Nat}
    (h : ∃ t < tries, (candidate? (count + t)).isSome = true) : ∃ c n, candidate? c = some n ∧
      search candidate? lead count tries =
        ⟨dropTrailingZeros (digitsOf n), lead + (((digitsOf n).length : Int) - (c : Int))⟩ := by
  induction tries generalizing count with
  | zero =>
    obtain ⟨t, ht, _⟩ := h
    exact absurd ht (Nat.not_lt_zero t)
  | succ tries ih =>
    rw [search.eq_2]
    cases hc : candidate? count with
    | some n => exact ⟨count, n, hc, rfl⟩
    | none =>
      obtain ⟨t, ht, hsome⟩ := h
      have hpos : t ≠ 0 := by
        rintro rfl
        exact absurd hsome (by simp [hc])
      obtain ⟨t, rfl⟩ := Nat.exists_eq_add_one_of_ne_zero hpos
      exact ih ⟨t, by omega, by rwa [Nat.add_assoc, Nat.add_comm 1]⟩

/-! ## Numerals -/

theorem exists_dropTrailingZeros (ds : List Char) :
    ∃ j, ds = dropTrailingZeros ds ++ List.replicate j '0' := by
  cases ds with
  | nil => exact ⟨0, rfl⟩
  | cons d rest =>
    refine ⟨(rest.reverse.takeWhile (· = '0')).length, ?_⟩
    have hzeros : rest.reverse.takeWhile (· = '0') =
        List.replicate (rest.reverse.takeWhile (· = '0')).length '0' :=
      List.eq_replicate_iff.2 ⟨rfl, fun c hc => by simpa using List.mem_takeWhile_imp hc⟩
    have hsplit : rest = (rest.reverse.dropWhile (· = '0')).reverse ++
        (rest.reverse.takeWhile (· = '0')).reverse := by
      rw [← List.reverse_append, List.takeWhile_append_dropWhile, List.reverse_reverse]
    rw [hzeros, List.reverse_replicate] at hsplit
    rw [dropTrailingZeros, List.cons_append]
    exact congrArg (d :: ·) hsplit

/-- The number that the numeral stands for is read as `x`: its first digit has the exponent, so its
last one has that of the step. -/
def Numeral.ReadsAs (x : Binary64) (m : Numeral) : Prop :=
  readsAs x (digitsValue 0 m.digits) (m.exponent - ((m.digits.length : Int) - 1)) = true

/-- **The shortest numeral of a positive number reads as it.** -/
theorem readsAs_search (h : x.BelowInfinity) (hx : 0 < x.units)
    (hlead : leadingExponent x.units unitsPerOne = lead) :
    (search (candidate? x lead) lead 1 17).ReadsAs x := by
  obtain ⟨count, n, hcandidate, hsearch⟩ := search_eq (candidate? x lead)
    ⟨16, Nat.lt_succ_self 16, isSome_candidate?_seventeen h hx hlead⟩
  obtain ⟨j, hj⟩ := exists_dropTrailingZeros (digitsOf n)
  have hreads := readsAs_of_candidate? hcandidate
  have hvalue : n = digitsValue 0 (dropTrailingZeros (digitsOf n)) * 10 ^ j := by
    have hdigits : digitsValue 0 (digitsOf n) = n := by
      rw [Calendar.digitsValue_eq, digitsOf, Nat.ofDigitChars_ten_toDigits]
    rw [Nat.mul_comm, ← Calendar.digitsValue_zeros, ← hj, hdigits]
  have hlength := congrArg List.length hj
  rw [List.length_append, List.length_replicate] at hlength
  rw [hvalue, readsAs_mul_pow] at hreads
  have hstep : lead + (((digitsOf n).length : Int) - count) -
      (((dropTrailingZeros (digitsOf n)).length : Int) - 1) = lead - count + 1 + j := by omega
  rw [hsearch, Numeral.ReadsAs]
  dsimp only
  rw [hstep]
  exact hreads

/-! ## Numbers in range -/

theorem two_pow_le_ten_pow {i j : Nat} (h : j ≤ 3 * i) : 2 ^ j ≤ 10 ^ i := by
  calc 2 ^ j ≤ 2 ^ (3 * i) := Nat.pow_le_pow_right (by decide) h
    _ = (2 ^ 3) ^ i := Nat.pow_mul 2 3 i
    _ ≤ 10 ^ i := Nat.pow_le_pow_left (by decide) i

/-- A small exponent makes a small number. -/
theorem scaled_lt {i : Nat} (h : ((digitsOf n).length : Int) + e + i ≤ 0) :
    (scaled n 1 e).1 * 10 ^ i < (scaled n 1 e).2 := by
  obtain ⟨p, q, rfl⟩ : ∃ p q : Nat, e = (p : Int) - q := ⟨e.toNat, (-e).toNat, by omega⟩
  have hcross := scaled_cross n 1 p q
  have hpos : 0 < (scaled n 1 ((p : Int) - q)).2 := scaled_pos Nat.one_pos
  generalize scaled n 1 ((p : Int) - q) = grid at hcross hpos ⊢
  rw [Nat.one_mul] at hcross
  refine Nat.lt_of_mul_lt_mul_right (a := 10 ^ ((digitsOf n).length + p)) ?_
  calc grid.1 * 10 ^ i * 10 ^ ((digitsOf n).length + p)
      = grid.1 * 10 ^ ((digitsOf n).length + p + i) := by ring
    _ ≤ grid.1 * 10 ^ q :=
        Nat.mul_le_mul_left _ (Nat.pow_le_pow_right (by decide) (by omega))
    _ = n * (10 ^ p * grid.2) := by rw [hcross, Nat.mul_assoc]
    _ < 10 ^ (digitsOf n).length * (10 ^ p * grid.2) :=
        Nat.mul_lt_mul_of_pos_right (lt_pow_length n) (Nat.mul_pos (ten_pow_pos _) hpos)
    _ = grid.2 * 10 ^ ((digitsOf n).length + p) := by ring

/-- A large one makes a large number. -/
theorem le_scaled {i : Nat} (hn : 0 < n) (h : (i : Int) < ((digitsOf n).length : Int) + e) :
    (scaled n 1 e).2 * 10 ^ i ≤ (scaled n 1 e).1 := by
  obtain ⟨p, q, rfl⟩ : ∃ p q : Nat, e = (p : Int) - q := ⟨e.toNat, (-e).toNat, by omega⟩
  have hcross := scaled_cross n 1 p q
  generalize scaled n 1 ((p : Int) - q) = grid at hcross ⊢
  rw [Nat.one_mul] at hcross
  refine Nat.le_of_mul_le_mul_right ?_ (ten_pow_pos q)
  calc grid.2 * 10 ^ i * 10 ^ q = grid.2 * 10 ^ (i + q) := by ring
    _ ≤ grid.2 * 10 ^ ((digitsOf n).length - 1 + p) :=
        Nat.mul_le_mul_left _ (Nat.pow_le_pow_right (by decide) (by omega))
    _ = 10 ^ ((digitsOf n).length - 1) * (10 ^ p * grid.2) := by ring
    _ ≤ n * (10 ^ p * grid.2) := Nat.mul_le_mul_right _ (pow_length_le hn)
    _ = grid.1 * 10 ^ q := by rw [hcross, Nat.mul_assoc]

/-- What a positive number is the nearest one to is rounded neither to infinity nor to zero. -/
theorem roundedBits_of_nearest? {num den : Nat} (hx : x.bits.toNat ≠ 0)
    (h : nearest? num den = some x) :
    roundedBits (num * unitsPerOne) den < infinityBits ∧
      roundedBits (num * unitsPerOne) den ≠ 0 := by
  unfold nearest? ofUnits? at h
  dsimp only at h
  split at h
  next hlt =>
    obtain rfl := Option.some.inj h
    exact ⟨hlt, fun hzero => hx (by rw [hzero]; rfl)⟩
  next => exact absurd h (by simp)

theorem scaled_zero : (scaled 0 1 e).1 = 0 := by
  unfold scaled
  split
  · exact Nat.zero_mul _
  · rfl

/-- What is not rounded to zero has an exponent that is not far too small. -/
theorem small_of_roundedBits
    (h : roundedBits ((scaled n 1 e).1 * unitsPerOne) (scaled n 1 e).2 ≠ 0) :
    ¬ ((digitsOf n).length : Int) + e < -400 := by
  obtain ⟨j, hj, hone⟩ := exists_unitsPerOne
  -- the bound is named, so that nothing computes its powers
  obtain ⟨i, hi⟩ : ∃ i, i = 400 := ⟨400, rfl⟩
  intro hlt
  have hless := scaled_lt (n := n) (e := e) (i := i) (by omega)
  refine h (roundedBits_eq_zero (lt_of_le_of_lt ?_ hless))
  rw [hone, Nat.mul_left_comm, ← Nat.pow_succ']
  exact Nat.mul_le_mul_left _ (two_pow_le_ten_pow (by omega))

/-- What is not rounded to infinity has one that is not far too large. -/
theorem large_of_roundedBits (hn : n ≠ 0)
    (h : roundedBits ((scaled n 1 e).1 * unitsPerOne) (scaled n 1 e).2 < infinityBits) :
    ¬ 400 < ((digitsOf n).length : Int) + e := by
  obtain ⟨j, hj, hone⟩ := exists_unitsPerOne
  obtain ⟨i, hi⟩ : ∃ i, i = 400 := ⟨400, rfl⟩
  intro hgt
  have hle := le_scaled (e := e) (i := i) (Nat.pos_of_ne_zero hn) (by omega)
  refine Nat.not_le_of_lt h
    (infinityBits_le_roundedBits (j := 3 * i + j) (by omega) (scaled_pos Nat.one_pos) ?_)
  calc (scaled n 1 e).2 * 2 ^ (3 * i + j) = (scaled n 1 e).2 * 2 ^ (3 * i) * 2 ^ j := by ring
    _ ≤ (scaled n 1 e).2 * 10 ^ i * 2 ^ j :=
        Nat.mul_le_mul_right _ (Nat.mul_le_mul_left _ (two_pow_le_ten_pow le_rfl))
    _ ≤ (scaled n 1 e).1 * unitsPerOne := by
        rw [hone]
        exact Nat.mul_le_mul_right _ hle

/-- **What reads as a positive number is in range**, so the reader gives the number. -/
theorem nearestScaled?_of_readsAs (hx : x.bits.toNat ≠ 0) (h : readsAs x n e = true) :
    nearestScaled? n e = some x := by
  rw [readsAs_iff] at h
  obtain ⟨hfinite, hpositive⟩ := roundedBits_of_nearest? hx h
  have hn : n ≠ 0 := by
    rintro rfl
    refine hpositive (roundedBits_eq_zero ?_)
    rw [scaled_zero, Nat.zero_mul]
    exact scaled_pos Nat.one_pos
  have hsmall := small_of_roundedBits hpositive
  have hlarge := large_of_roundedBits hn hfinite
  rw [digitsOf] at hsmall hlarge
  unfold nearestScaled?
  dsimp only
  rw [if_neg (not_or.2 ⟨hn, hsmall⟩), if_neg hlarge, ← h]
  unfold scaled
  split
  · rfl
  · rw [Nat.one_mul]

end Decimal

/-! ## Signs -/

namespace Binary64

variable {x : Binary64}

/-- The number without its sign. -/
def magnitude (x : Binary64) : Binary64 := ⟨UInt64.ofNat (x.bits.toNat % Nat.pow 2 63)⟩

theorem toNat_magnitude (x : Binary64) : x.magnitude.bits.toNat = x.bits.toNat % 2 ^ 63 := by
  refine UInt64.toNat_ofNat_of_lt' ?_
  have hpow : Nat.pow 2 63 = 9223372036854775808 := by decide
  rw [hpow, UInt64.size]
  omega

theorem belowInfinity_magnitude (h : x.isFinite = true) : x.magnitude.BelowInfinity := by
  have hpow : Nat.pow 2 52 = 4503599627370496 := by decide
  have hbits := x.bits.toNat_lt
  unfold isFinite exponentField at h
  rw [decide_eq_true_iff, hpow] at h
  unfold BelowInfinity
  rw [infinityBits_eq, toNat_magnitude]
  omega

theorem withSign_magnitude (x : Binary64) : x.magnitude.withSign x.negative = x := by
  have hpow : Nat.pow 2 63 = 9223372036854775808 := by decide
  obtain ⟨bits⟩ := x
  have hbits := bits.toNat_lt
  unfold withSign negative
  rw [hpow]
  split
  next h =>
    have h := of_decide_eq_true h
    dsimp only at h
    have hsum : bits.toNat % 2 ^ 63 + 9223372036854775808 = bits.toNat := by omega
    rw [toNat_magnitude, hsum, UInt64.ofNat_toNat]
  next h =>
    rw [decide_eq_true_iff] at h
    dsimp only at h
    have hless : bits.toNat % 9223372036854775808 = bits.toNat := Nat.mod_eq_of_lt (by omega)
    rw [magnitude, hpow, hless, UInt64.ofNat_toNat]

theorem eq_zero_of_units (h : x.BelowInfinity) (hunits : x.units = 0) : x = zero := by
  obtain ⟨hbits, -, hk⟩ := bits_eq h
  have hm : x.significand = 0 :=
    (Nat.mul_eq_zero.1 hunits).resolve_right (Nat.ne_of_gt (Nat.two_pow_pos _))
  have hzero : x.bits.toNat = 0 := by omega
  exact congrArg mk (UInt64.toNat_inj.1 hzero)

end Binary64

namespace Decimal

open Binary64

variable {x : Binary64} {e : Int}

theorem shortest_spec (h : x.isFinite = true) :
    (x.magnitude = zero ∧ shortest x = ⟨['0'], 0⟩) ∨
      (x.magnitude.bits.toNat ≠ 0 ∧ (shortest x).ReadsAs x.magnitude) := by
  have hfinite := belowInfinity_magnitude h
  by_cases hunits : x.magnitude.units = 0
  · exact .inl ⟨eq_zero_of_units hfinite hunits, if_pos hunits⟩
  · refine .inr ⟨fun hzero => hunits ?_, ?_⟩
    · have hmagnitude : x.magnitude = zero := congrArg mk (UInt64.toNat_inj.1 hzero)
      rw [hmagnitude]
      decide
    · have hshortest : shortest x = search (candidate? x.magnitude
          (leadingExponent x.magnitude.units unitsPerOne))
          (leadingExponent x.magnitude.units unitsPerOne) 1 17 := if_neg hunits
      rw [hshortest]
      exact readsAs_search hfinite (Nat.pos_of_ne_zero hunits) rfl

/-- With any zeros behind its digits, the reader gives `x` for the numeral. -/
def Numeral.Gives (m : Numeral) (x : Binary64) : Prop :=
  ∀ j : Nat, nearestScaled? (digitsValue 0 m.digits * 10 ^ j)
    (m.exponent - ((m.digits.length : Int) - 1) - j) = some x

/-- **The shortest numeral gives its number.** -/
theorem gives_shortest (h : x.isFinite = true) : (shortest x).Gives x.magnitude := by
  intro j
  rcases shortest_spec h with ⟨hzero, hshortest⟩ | ⟨hbits, hreads⟩
  · rw [hzero, hshortest]
    have hvalue : digitsValue 0 ['0'] * 10 ^ j = 0 := Nat.zero_mul _
    dsimp only
    rw [hvalue, nearestScaled?]
    exact if_pos (Or.inl rfl)
  · refine nearestScaled?_of_readsAs hbits ?_
    rw [readsAs_mul_pow, Int.sub_add_cancel]
    exact hreads

end Decimal

end RecordSql
