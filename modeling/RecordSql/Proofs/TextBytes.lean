import RecordSql.Text.Ascii
import RecordSql.Text.Hex

/-!
# Characters and their bytes

A text is searched by its characters or by its bytes in UTF-8, and as long as ASCII is searched for
both find the same. A byte below 128 is a character of its own, and never a part of another one:

* a pattern of ASCII characters stands among the bytes of a text just where it stands among its
  characters, so where it begins and where it ends lie between two characters;
* a place between two characters is one in the upper-case copy of the text as well, since no
  character changes its size with its letter case.
-/

namespace RecordSql.Text

open Hex

variable {c d : Char} {p s left right : List Char} {n : Nat}

/-! ## ASCII -/

/-- A character that takes seven bits. -/
def IsAscii (c : Char) : Prop := c.toNat < 128

/-- What holds of the first 128 characters holds of all of ASCII. -/
theorem IsAscii.of_all {P : Char → Prop} (h : ∀ n < 128, P (Char.ofNat n)) (hc : IsAscii c) :
    P c := by
  have hp := h c.toNat hc
  rwa [Char.ofNat_toNat] at hp

theorem isAscii_iff_utf8Size : IsAscii c ↔ c.utf8Size = 1 := by
  rw [Char.utf8Size_eq_one_iff, UInt32.le_iff_toNat_le, IsAscii]
  exact Nat.lt_succ_iff

/-- An ASCII character is one byte, its own number. -/
theorem IsAscii.encode_eq (hc : IsAscii c) : String.utf8EncodeChar c = [c.toUInt8] :=
  String.utf8EncodeChar_eq_singleton (isAscii_iff_utf8Size.1 hc)

theorem IsAscii.toNat_toUInt8 (hc : IsAscii c) : c.toUInt8.toNat = c.toNat := by
  have hlt : c.toNat < 2 ^ 8 := Nat.lt_trans hc (by decide)
  exact (UInt32.toNat_toUInt8 c.val).trans (Nat.mod_eq_of_lt hlt)

theorem IsAscii.eq_of_toUInt8 (hc : IsAscii c) (hd : IsAscii d) (h : c.toUInt8 = d.toUInt8) :
    c = d := by
  rw [← Char.toNat_inj, ← hc.toNat_toUInt8, ← hd.toNat_toUInt8, h]

/-- The bytes of any other character all have their highest bit set. -/
theorem le_of_mem_utf8EncodeChar (hc : ¬ IsAscii c) {b : UInt8}
    (hb : b ∈ String.utf8EncodeChar c) : 128 ≤ b.toNat := by
  have hmark : ∀ x mark : UInt8, 128 ≤ mark.toNat → 128 ≤ (x ||| mark).toNat := by
    intro x mark hmark
    rw [UInt8.toNat_or]
    exact Nat.le_trans hmark Nat.right_le_or
  rw [isAscii_iff_utf8Size] at hc
  rcases Char.utf8Size_eq c with hsize | hsize | hsize | hsize
  · exact absurd hsize hc
  · rw [String.utf8EncodeChar_eq_cons_cons hsize] at hb
    simp only [List.mem_cons, List.not_mem_nil, or_false] at hb
    rcases hb with rfl | rfl <;> exact hmark _ _ (by decide)
  · rw [String.utf8EncodeChar_eq_cons_cons_cons hsize] at hb
    simp only [List.mem_cons, List.not_mem_nil, or_false] at hb
    rcases hb with rfl | rfl | rfl <;> exact hmark _ _ (by decide)
  · rw [String.utf8EncodeChar_eq_cons_cons_cons_cons hsize] at hb
    simp only [List.mem_cons, List.not_mem_nil, or_false] at hb
    rcases hb with rfl | rfl | rfl | rfl <;> exact hmark _ _ (by decide)

/-! ## Texts -/

theorem utf8_cons (c : Char) (s : List Char) : utf8 (c :: s) = String.utf8EncodeChar c ++ utf8 s :=
  List.flatMap_cons

theorem utf8_append (s t : List Char) : utf8 (s ++ t) = utf8 s ++ utf8 t :=
  List.flatMap_append

/-- ASCII has as many bytes as characters. -/
theorem utf8_of_isAscii (h : ∀ c ∈ s, IsAscii c) : utf8 s = s.map Char.toUInt8 := by
  induction s with
  | nil => rfl
  | cons c s ih =>
    obtain ⟨hc, hs⟩ := List.forall_mem_cons.1 h
    rw [utf8_cons, hc.encode_eq, ih hs]
    rfl

/-- The bytes are those of the string. -/
theorem length_utf8 (s : List Char) : (utf8 s).length = (String.ofList s).utf8ByteSize := by
  induction s with
  | nil => rfl
  | cons c s ih =>
    have hsplit : String.ofList (c :: s) = String.singleton c ++ String.ofList s := by
      rw [← String.toList_inj]
      simp
    rw [hsplit, String.utf8ByteSize_append, String.utf8ByteSize_singleton, utf8_cons,
      List.length_append, String.length_utf8EncodeChar, ih]

theorem utf8_injective (h : utf8 s = utf8 p) : s = p := by
  have hbytes : (String.ofList s).toByteArray = (String.ofList p).toByteArray := by
    rw [String.toByteArray_ofList, String.toByteArray_ofList]
    exact congrArg List.toByteArray h
  rw [← String.toList_ofList (l := s), String.toByteArray_inj.1 hbytes, String.toList_ofList]

/-- Of two beginnings of a text the longer one has more bytes. -/
theorem length_utf8_le_iff {t : List Char} (hl : left <+: t) (hr : right <+: t) :
    (utf8 left).length ≤ (utf8 right).length ↔ left.length ≤ right.length := by
  constructor
  · intro h
    refine Nat.le_of_not_lt fun hlt => ?_
    obtain ⟨rest, rfl⟩ := List.prefix_of_prefix_length_le hr hl (Nat.le_of_lt hlt)
    cases rest with
    | nil => exact absurd hlt (by rw [List.append_nil]; exact Nat.lt_irrefl _)
    | cons c rest =>
      have hpos := c.utf8Size_pos
      rw [utf8_append, utf8_cons, List.length_append, List.length_append,
        String.length_utf8EncodeChar] at h
      omega
  · intro h
    obtain ⟨rest, rfl⟩ := List.prefix_of_prefix_length_le hl hr h
    rw [utf8_append, List.length_append]
    exact Nat.le_add_right _ _

/-! ## ASCII among other characters -/

/-- Bytes of ASCII at the start of a text are its first characters. -/
theorem prefix_of_utf8_prefix (hp : ∀ c ∈ p, IsAscii c) (h : utf8 p <+: utf8 s) : p <+: s := by
  induction p generalizing s with
  | nil => exact List.nil_prefix
  | cons a p ih =>
    obtain ⟨ha, hp⟩ := List.forall_mem_cons.1 hp
    rw [utf8_cons, ha.encode_eq, List.singleton_append] at h
    cases s with
    | nil => exact absurd h (by simp [utf8])
    | cons c s =>
      rw [utf8_cons] at h
      by_cases hc : IsAscii c
      · rw [hc.encode_eq, List.singleton_append, List.cons_prefix_cons] at h
        exact List.cons_prefix_cons.2 ⟨ha.eq_of_toUInt8 hc h.1, ih hp h.2⟩
      · -- the first byte of this character is no ASCII
        obtain ⟨b, bs, hbytes⟩ := List.exists_cons_of_ne_nil (String.utf8EncodeChar_ne_nil (c := c))
        rw [hbytes, List.cons_append, List.cons_prefix_cons] at h
        have hhigh := le_of_mem_utf8EncodeChar hc (hbytes ▸ List.mem_cons_self)
        rw [← h.1, ha.toNat_toUInt8] at hhigh
        exact absurd ha (Nat.not_lt.2 hhigh)

/-- **Where ASCII stands among the bytes of a text, it stands among the characters.** -/
theorem utf8_prefix_drop_iff (hp : ∀ c ∈ p, IsAscii c) (hne : p ≠ []) :
    utf8 p <+: (utf8 s).drop n ↔ ∃ left right, s = left ++ p ++ right ∧ (utf8 left).length = n := by
  constructor
  · intro h
    induction s generalizing n with
    | nil =>
      obtain ⟨a, p, rfl⟩ := List.exists_cons_of_ne_nil hne
      rw [utf8_cons, (hp a List.mem_cons_self).encode_eq] at h
      exact absurd h (by simp [utf8])
    | cons c s ih =>
      rcases Nat.eq_zero_or_pos n with rfl | hn
      · obtain ⟨right, hs⟩ := prefix_of_utf8_prefix hp (s := c :: s) h
        exact ⟨[], right, hs.symm, rfl⟩
      rw [utf8_cons, List.drop_append] at h
      rcases Nat.lt_or_ge n (String.utf8EncodeChar c).length with hlt | hge
      · -- the place is inside a character, whose bytes are no ASCII
        obtain ⟨a, p, rfl⟩ := List.exists_cons_of_ne_nil hne
        have ha := hp a List.mem_cons_self
        have hc : ¬ IsAscii c := by
          intro hc
          rw [hc.encode_eq, List.length_singleton] at hlt
          omega
        rw [List.drop_eq_getElem_cons hlt, utf8_cons, ha.encode_eq, List.singleton_append,
          List.cons_append, List.cons_prefix_cons] at h
        have hhigh := le_of_mem_utf8EncodeChar hc (List.getElem_mem hlt)
        rw [← h.1, ha.toNat_toUInt8] at hhigh
        exact absurd ha (Nat.not_lt.2 hhigh)
      · rw [List.drop_eq_nil_of_le hge, List.nil_append] at h
        obtain ⟨left, right, rfl, hlength⟩ := ih h
        refine ⟨c :: left, right, rfl, ?_⟩
        rw [utf8_cons, List.length_append, hlength]
        omega
  · rintro ⟨left, right, rfl, rfl⟩
    rw [utf8_append, utf8_append, List.append_assoc, List.drop_left]
    exact List.prefix_append _ _

/-- A place between two characters. -/
theorem isValid_of_append {t : String} (h : t.toList = left ++ right) :
    (⟨(utf8 left).length⟩ : String.Pos.Raw).IsValid t := by
  rw [← String.ofList_toList (s := t), String.Pos.Raw.isValid_ofList]
  refine ⟨left.length, ?_⟩
  rw [h, List.take_left, length_utf8]

/-! ## Letter case -/

theorem IsAscii.toUpper (hc : IsAscii c) : IsAscii c.toUpper :=
  hc.of_all (P := fun c => IsAscii c.toUpper) (by unfold IsAscii; decide)

theorem toUpper_of_not_isAscii (hc : ¬ IsAscii c) : c.toUpper = c := by
  have hlast : 'z'.val ≤ 127 := by decide
  unfold Char.toUpper
  refine dif_neg fun h => hc ?_
  rw [isAscii_iff_utf8Size, Char.utf8Size_eq_one_iff]
  exact UInt32.le_trans h.2 hlast

/-- What becomes a character in upper case is that one or its lower case. -/
theorem eq_of_toUpper (h : c.toUpper = d) : c = d ∨ c = d.toLower := by
  obtain rfl := h
  by_cases hc : IsAscii c
  · exact hc.of_all (P := fun c => c = c.toUpper ∨ c = c.toUpper.toLower) (by decide)
  · exact .inl (toUpper_of_not_isAscii hc).symm

theorem toLower_of_not_isAscii (hc : ¬ IsAscii c) : c.toLower = c := by
  have hlast : 'Z'.val ≤ 127 := by decide
  unfold Char.toLower
  refine dif_neg fun h => hc ?_
  rw [isAscii_iff_utf8Size, Char.utf8Size_eq_one_iff]
  exact UInt32.le_trans h.2 hlast

/-- What becomes a character in lower case is that one or its upper case. -/
theorem eq_of_toLower (h : c.toLower = d) : c = d ∨ c = d.toUpper := by
  obtain rfl := h
  by_cases hc : IsAscii c
  · exact hc.of_all (P := fun c => c = c.toLower ∨ c = c.toLower.toUpper) (by decide)
  · exact .inl (toLower_of_not_isAscii hc).symm

/-- Letter case changes no size. -/
theorem utf8Size_toUpper (c : Char) : c.toUpper.utf8Size = c.utf8Size := by
  by_cases hc : IsAscii c
  · rw [isAscii_iff_utf8Size.1 hc, isAscii_iff_utf8Size.1 hc.toUpper]
  · rw [toUpper_of_not_isAscii hc]

theorem length_utf8_upper (s : List Char) : (utf8 (upper s)).length = (utf8 s).length := by
  induction s with
  | nil => rfl
  | cons c s ih =>
    have hsplit : upper (c :: s) = c.toUpper :: upper s := rfl
    rw [hsplit, utf8_cons, utf8_cons, List.length_append, List.length_append, ih,
      String.length_utf8EncodeChar, String.length_utf8EncodeChar, utf8Size_toUpper]

end RecordSql.Text
