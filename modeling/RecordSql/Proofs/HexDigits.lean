import RecordSql.Proofs.Success
import RecordSql.Proofs.TextBytes
import RecordSql.Proofs.TextSearch

/-!
# Hexadecimal digits

`Hex.Spells` says which bytes a text of digits stands for, two digits to a byte and either letter
case for each of them.

* The reader works on the bytes of the text, and takes just the texts that spell something. What is
  no ASCII has bytes that are no digits, so counting bytes is counting characters.
* Of the texts that spell some bytes, the one in lower case is what the bytes are printed as.
-/

namespace RecordSql.Text.Hex

/-! ## Digits -/

/-- A digit of either case, and its value. -/
inductive IsDigit : Char → Nat → Prop where
  | decimal {c : Char} : '0' ≤ c → c ≤ '9' → IsDigit c (c.toNat - '0'.toNat)
  | lower {c : Char} : 'a' ≤ c → c ≤ 'f' → IsDigit c (10 + (c.toNat - 'a'.toNat))
  | upper {c : Char} : 'A' ≤ c → c ≤ 'F' → IsDigit c (10 + (c.toNat - 'A'.toNat))

/-- A text of digits spells bytes, two digits for each, the high one first. -/
inductive Spells : List Char → List UInt8 → Prop where
  | nil : Spells [] []
  | cons {high low : Char} {b : UInt8} {cs : List Char} {bytes : List UInt8} :
      IsDigit high (b.toNat / 16) → IsDigit low (b.toNat % 16) → Spells cs bytes →
        Spells (high :: low :: cs) (b :: bytes)

variable {c : Char} {n position : Nat} {cs : List Char} {bytes : List UInt8}

theorem le_iff_toNat_le {c d : Char} : c ≤ d ↔ c.toNat ≤ d.toNat := UInt32.le_iff_toNat_le

/-- A digit is a character of one of three ranges. -/
theorem isDigit_cases (h : IsDigit c n) :
    (n < 10 ∧ c.toNat = 48 + n) ∨ (10 ≤ n ∧ n < 16 ∧ (c.toNat = 87 + n ∨ c.toNat = 55 + n)) := by
  cases h with
  | decimal hlow hhigh =>
    have hl : 48 ≤ c.toNat := le_iff_toNat_le.1 hlow
    have hh : c.toNat ≤ 57 := le_iff_toNat_le.1 hhigh
    have hzero : '0'.toNat = 48 := rfl
    omega
  | lower hlow hhigh =>
    have hl : 97 ≤ c.toNat := le_iff_toNat_le.1 hlow
    have hh : c.toNat ≤ 102 := le_iff_toNat_le.1 hhigh
    have ha : 'a'.toNat = 97 := rfl
    omega
  | upper hlow hhigh =>
    have hl : 65 ≤ c.toNat := le_iff_toNat_le.1 hlow
    have hh : c.toNat ≤ 70 := le_iff_toNat_le.1 hhigh
    have ha : 'A'.toNat = 65 := rfl
    omega

theorem IsDigit.isAscii (h : IsDigit c n) : IsAscii c := by
  unfold IsAscii
  have hcases := isDigit_cases h
  omega

/-- In lower case it is the digit that is printed. -/
theorem IsDigit.toLower (h : IsDigit c n) : c.toLower = digit n := by
  have hdecimal : ∀ n < 10, (Char.ofNat (48 + n)).toLower = digit n := by decide
  have hlower : ∀ n < 16, 10 ≤ n → (Char.ofNat (87 + n)).toLower = digit n := by decide
  have hupper : ∀ n < 16, 10 ≤ n → (Char.ofNat (55 + n)).toLower = digit n := by decide
  rcases isDigit_cases h with ⟨hn, hc⟩ | ⟨hn, hn', hc | hc⟩
  · rw [← hdecimal n hn, ← hc, Char.ofNat_toNat]
  · rw [← hlower n hn' hn, ← hc, Char.ofNat_toNat]
  · rw [← hupper n hn' hn, ← hc, Char.ofNat_toNat]

/-- The reader of one byte finds the value of a digit, and takes nothing else of ASCII for one. -/
theorem isDigit_iff (hc : IsAscii c) : IsDigit c n ↔ digitValue? c.toUInt8 = some n := by
  unfold digitValue?
  rw [hc.toNat_toUInt8]
  dsimp only
  constructor
  · intro h
    rcases isDigit_cases h with ⟨hn, hcn⟩ | ⟨hn, hn', hcn | hcn⟩
    · rw [if_pos (by omega), Option.some.injEq]
      omega
    · rw [if_neg (by omega), if_pos (by omega), Option.some.injEq]
      omega
    · rw [if_neg (by omega), if_neg (by omega), if_pos (by omega), Option.some.injEq]
      omega
  · intro h
    split at h
    next hrange =>
      obtain rfl := Option.some.inj h
      exact .decimal (le_iff_toNat_le.2 hrange.1) (le_iff_toNat_le.2 hrange.2)
    split at h
    next hrange =>
      obtain rfl := Option.some.inj h
      have hvalue : c.toNat - 87 = 10 + (c.toNat - 'a'.toNat) := by
        have ha : 'a'.toNat = 97 := rfl
        omega
      rw [hvalue]
      exact .lower (le_iff_toNat_le.2 hrange.1) (le_iff_toNat_le.2 hrange.2)
    split at h
    next hrange =>
      obtain rfl := Option.some.inj h
      have hvalue : c.toNat - 55 = 10 + (c.toNat - 'A'.toNat) := by
        have ha : 'A'.toNat = 65 := rfl
        omega
      rw [hvalue]
      exact .upper (le_iff_toNat_le.2 hrange.1) (le_iff_toNat_le.2 hrange.2)
    next => exact absurd h (by simp)

/-- What is no ASCII is no digit, whichever of its bytes is looked at. -/
theorem digitValue?_of_not_isAscii (hc : ¬ IsAscii c) {b : UInt8}
    (hb : b ∈ String.utf8EncodeChar c) : digitValue? b = none := by
  have hhigh := le_of_mem_utf8EncodeChar hc hb
  unfold digitValue?
  dsimp only
  rw [if_neg (by omega), if_neg (by omega), if_neg (by omega)]

theorem IsDigit.isSome (h : IsDigit c n) : (digitValue? c.toUInt8).isSome :=
  Option.isSome_iff_exists.2 ⟨n, (isDigit_iff h.isAscii).1 h⟩

theorem IsDigit.not_blank (h : IsDigit c n) : isBlank c = false :=
  not_isBlank_of_any (q := fun c => (digitValue? c.toUInt8).isSome) (by decide) h.isSome

/-- A decimal digit is one of them. -/
theorem exists_isDigit (h : c.isDigit = true) : ∃ n, IsDigit c n := by
  simp only [Char.isDigit, Bool.and_eq_true, decide_eq_true_eq] at h
  exact ⟨_, .decimal h.1 h.2⟩

/-- What is printed for a number is the digit of that value. -/
theorem isDigit_digit (hn : n < 16) : IsDigit (digit n) n := by
  have hvalues : ∀ n < 16, (digit n).toNat < 128 ∧ digitValue? (digit n).toUInt8 = some n := by
    decide
  obtain ⟨hascii, hvalue⟩ := hvalues n hn
  exact (isDigit_iff hascii).2 hvalue

/-! ## The reader -/

theorem decodePairs_cons {high low : UInt8} {rest : List UInt8}
    (h : decodePairs position (high :: low :: rest) = .ok bytes) :
    ∃ m n bytes', digitValue? high = some m ∧ digitValue? low = some n ∧
      decodePairs (position + 2) rest = .ok bytes' ∧
      bytes = UInt8.ofNat (16 * m + n) :: bytes' := by
  have hdigit : ∀ {b : UInt8} {i n : Nat}, digitAt b i = .ok n → digitValue? b = some n := by
    intro b i n h
    unfold digitAt at h
    split at h
    next heq => rw [heq, Except.ok.inj h]
    next => exact absurd h (by simp)
  rw [decodePairs] at h
  obtain ⟨m, hm, h⟩ := Checked.bind_eq_ok.1 h
  obtain ⟨n, hn, h⟩ := Checked.bind_eq_ok.1 h
  obtain ⟨bytes', hrest, h⟩ := Checked.bind_eq_ok.1 h
  exact ⟨m, n, bytes', hdigit hm, hdigit hn, hrest, (Except.ok.inj h).symm⟩

/-- What is read in pairs is digits throughout. -/
theorem isSome_of_decodePairs : ∀ {bs : List UInt8} {position : Nat} {bytes : List UInt8},
    decodePairs position bs = .ok bytes → bs.length % 2 = 0 → ∀ b ∈ bs, (digitValue? b).isSome
  | [], _, _, _, _ => fun _ h => absurd h List.not_mem_nil
  | [_], _, _, _, hlength => absurd hlength (by simp)
  | high :: low :: rest, position, bytes, h, hlength => by
    obtain ⟨m, n, bytes', hm, hn, hrest, rfl⟩ := decodePairs_cons h
    have hothers := isSome_of_decodePairs hrest (by simp only [List.length_cons] at hlength; omega)
    intro b hb
    rcases List.mem_cons.1 hb with rfl | hb
    · simp [hm]
    rcases List.mem_cons.1 hb with rfl | hb
    · simp [hn]
    · exact hothers b hb

theorem decode_eq_ok (h : decode cs = .ok bytes) :
    (utf8 cs).length % 2 = 0 ∧ decodePairs 0 (utf8 cs) = .ok bytes := by
  unfold decode at h
  dsimp only at h
  split at h
  · exact absurd h (by simp)
  · exact ⟨by omega, h⟩

/-! ## Texts of digits -/

theorem Spells.decodePairs (h : Spells cs bytes) (position : Nat) :
    (utf8 cs).length % 2 = 0 ∧ decodePairs position (utf8 cs) = .ok bytes := by
  induction h generalizing position with
  | nil => exact ⟨rfl, rfl⟩
  | @cons high low b cs bytes hhigh hlow _ ih =>
    obtain ⟨hlength, hdecode⟩ := ih (position + 2)
    have hh := (isDigit_iff hhigh.isAscii).1 hhigh
    have hl := (isDigit_iff hlow.isAscii).1 hlow
    have hbyte : UInt8.ofNat (16 * (b.toNat / 16) + b.toNat % 16) = b := by
      rw [Nat.div_add_mod, UInt8.ofNat_toNat]
    rw [utf8_cons, utf8_cons, hhigh.isAscii.encode_eq, hlow.isAscii.encode_eq,
      List.singleton_append, List.singleton_append]
    refine ⟨by simp only [List.length_cons]; omega, ?_⟩
    simp only [Hex.decodePairs, digitAt, hh, hl, hdecode, bind, Except.bind, pure, Except.pure,
      hbyte]

theorem Spells.decode (h : Spells cs bytes) : decode cs = .ok bytes := by
  obtain ⟨hlength, hdecode⟩ := h.decodePairs 0
  unfold Hex.decode
  dsimp only
  rw [if_neg (by omega), hdecode]

/-- Digits in pairs spell bytes. -/
theorem exists_spells : ∀ {cs : List Char}, (∀ c ∈ cs, ∃ n, IsDigit c n) → cs.length % 2 = 0 →
    ∃ bytes, Spells cs bytes
  | [], _, _ => ⟨[], .nil⟩
  | [_], _, hlength => absurd hlength (by simp)
  | high :: low :: cs, hdigits, hlength => by
    obtain ⟨⟨m, hm⟩, hdigits⟩ := List.forall_mem_cons.1 hdigits
    obtain ⟨⟨n, hn⟩, hdigits⟩ := List.forall_mem_cons.1 hdigits
    have heven : cs.length % 2 = 0 := by
      simp only [List.length_cons] at hlength
      omega
    obtain ⟨bytes, hbytes⟩ := exists_spells hdigits heven
    have hm16 := isDigit_cases hm
    have hn16 := isDigit_cases hn
    have hbyte : (UInt8.ofNat (16 * m + n)).toNat = 16 * m + n :=
      UInt8.toNat_ofNat_of_lt' (by rw [UInt8.size]; omega)
    refine ⟨UInt8.ofNat (16 * m + n) :: bytes, .cons ?_ ?_ hbytes⟩
    · rwa [hbyte, show (16 * m + n) / 16 = m by omega]
    · rwa [hbyte, show (16 * m + n) % 16 = n by omega]

/-- What is spelled is digits, two for each byte. -/
theorem Spells.digits (h : Spells cs bytes) :
    cs.length = 2 * bytes.length ∧ ∀ c ∈ cs, ∃ n, IsDigit c n := by
  induction h with
  | nil => exact ⟨rfl, List.forall_mem_nil _⟩
  | cons hhigh hlow _ ih =>
    refine ⟨by simp only [List.length_cons]; omega, ?_⟩
    exact List.forall_mem_cons.2 ⟨⟨_, hhigh⟩, List.forall_mem_cons.2 ⟨⟨_, hlow⟩, ih.2⟩⟩

/-- **The reader takes the texts that spell bytes, and reads what they spell.** -/
theorem decode_iff_spells : decode cs = .ok bytes ↔ Spells cs bytes := by
  refine ⟨fun h => ?_, Spells.decode⟩
  obtain ⟨hlength, hpairs⟩ := decode_eq_ok h
  have hbytes := isSome_of_decodePairs hpairs hlength
  have hascii : ∀ c ∈ cs, IsAscii c := by
    intro c hc
    by_contra hno
    obtain ⟨b, rest, hb⟩ := List.exists_cons_of_ne_nil (String.utf8EncodeChar_ne_nil (c := c))
    have hmem : b ∈ String.utf8EncodeChar c := hb ▸ List.mem_cons_self
    have hsome := hbytes b (List.mem_flatMap.2 ⟨c, hc, hmem⟩)
    rw [digitValue?_of_not_isAscii hno hmem] at hsome
    exact absurd hsome (by simp)
  have hdigits : ∀ c ∈ cs, ∃ n, IsDigit c n := by
    intro c hc
    have hmem : c.toUInt8 ∈ utf8 cs := by
      rw [utf8_of_isAscii hascii]
      exact List.mem_map_of_mem hc
    obtain ⟨n, hn⟩ := Option.isSome_iff_exists.1 (hbytes _ hmem)
    exact ⟨n, (isDigit_iff (hascii c hc)).2 hn⟩
  rw [utf8_of_isAscii hascii, List.length_map] at hlength
  obtain ⟨bytes', hspells⟩ := exists_spells hdigits hlength
  rwa [Except.ok.inj (h.symm.trans hspells.decode)]

/-- Bytes are printed as one of the texts that spell them. -/
theorem spells_encode (bytes : List UInt8) : Spells (encode bytes).toList bytes := by
  rw [encode, String.toList_ofList]
  induction bytes with
  | nil => exact .nil
  | cons b bytes ih =>
    have hb := b.toNat_lt
    exact .cons (isDigit_digit (by omega)) (isDigit_digit (by omega)) ih

/-- Of these it is the one in lower case. -/
theorem Spells.lower (h : Spells cs bytes) : String.ofList (lower cs) = encode bytes := by
  rw [encode]
  congr 1
  induction h with
  | nil => rfl
  | cons hhigh hlow _ ih =>
    rw [List.flatMap_cons, encodeByte, ← hhigh.toLower, ← hlow.toLower, ← ih]
    rfl

end RecordSql.Text.Hex
