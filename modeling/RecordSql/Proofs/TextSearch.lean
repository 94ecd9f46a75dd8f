import Mathlib.Data.List.DropRight
import Mathlib.Data.List.Infix
import RecordSql.Text.Blank
import RecordSql.Text.Search

/-!
# What the searches find

The searches that wire forms are read with, each against what it looks for:

* `after?` answers just when the text begins with the pattern;
* `cut?` answers just when the pattern occurs, and cuts at the first occurrence;
* `pieces` undoes putting separators between parts, and no piece has a separator in it;
* trimming leaves a part of the text, and trimming again changes nothing: what it leaves has no
  blank at its ends, and only blanks stood around it.
-/

namespace RecordSql.Text

variable {p s before rest : List Char}

/-! ## Beginnings and occurrences -/

theorem after?_eq_some : after? p s = some rest ↔ s = p ++ rest := by
  constructor
  · exact append_of_after?
  · intro h
    rw [h]
    exact after?_append p rest

theorem after?_eq_none : after? p s = none ↔ ¬ p <+: s := by
  rw [← Option.not_isSome_iff_eq_none, Option.isSome_iff_exists]
  refine not_congr (exists_congr fun rest => ?_)
  rw [after?_eq_some, eq_comm]

theorem cut?_eq_none : cut? p s = none ↔ ¬ p <:+: s := by
  induction s with
  | nil =>
    rw [cut?, Option.map_eq_none_iff, after?_eq_none, List.prefix_nil, List.infix_nil]
  | cons c s ih =>
    rw [List.infix_cons_iff, not_or, cut?, ← after?_eq_none, ← ih]
    cases after? p (c :: s) with
    | none => simp
    | some rest => simp

/-- A text is cut around the occurrence before which there is none. -/
theorem cut?_eq_some :
    cut? p s = some (before, rest) ↔
      s = before ++ p ++ rest ∧ ∀ b r, s = b ++ p ++ r → before.length ≤ b.length := by
  induction s generalizing before with
  | nil =>
    simp only [cut?, Option.map_eq_some_iff, after?_eq_some, Prod.mk.injEq]
    constructor
    · rintro ⟨r, hr, rfl, rfl⟩
      exact ⟨hr, fun _ _ _ => Nat.zero_le _⟩
    · rintro ⟨h, _⟩
      obtain ⟨hb, hr⟩ := List.append_eq_nil_iff.1 h.symm
      obtain ⟨hb, hp⟩ := List.append_eq_nil_iff.1 hb
      exact ⟨rest, by rw [hp, hr]; rfl, hb.symm, rfl⟩
  | cons c s ih =>
    rw [cut?]
    cases ha : after? p (c :: s) with
    | some r =>
      -- the pattern stands at the very start
      have hs := after?_eq_some.1 ha
      simp only [Option.some.injEq, Prod.mk.injEq]
      constructor
      · rintro ⟨rfl, rfl⟩
        exact ⟨hs, fun _ _ _ => Nat.zero_le _⟩
      · rintro ⟨h, hfirst⟩
        have hb : before = [] := List.length_eq_zero_iff.1 (Nat.le_zero.1 (hfirst [] r hs))
        rw [hb] at h
        exact ⟨hb.symm, List.append_cancel_left (hs.symm.trans h)⟩
    | none =>
      have hnot := after?_eq_none.1 ha
      simp only [Option.map_eq_some_iff, Prod.exists, Prod.mk.injEq]
      constructor
      · rintro ⟨b, r, hcut, rfl, rfl⟩
        obtain ⟨hs, hfirst⟩ := ih.1 hcut
        refine ⟨by rw [hs]; rfl, ?_⟩
        intro b' r' h
        cases b' with
        | nil => exact absurd ⟨r', h.symm⟩ hnot
        | cons c' b' =>
          injection h with _ h
          exact Nat.succ_le_succ (hfirst b' r' h)
      · rintro ⟨h, hfirst⟩
        cases before with
        | nil => exact absurd ⟨rest, h.symm⟩ hnot
        | cons c' b =>
          injection h with hc h
          refine ⟨b, rest, ih.2 ⟨h, ?_⟩, by rw [hc], rfl⟩
          intro b' r' h'
          have hle := hfirst (c :: b') r' (by rw [h']; rfl)
          exact Nat.le_of_succ_le_succ hle

/-! ## Separators -/

section Pieces

variable {sep : Char} {a : List Char} {parts : List (List Char)}

theorem pieces_of_not_mem (h : sep ∉ a) : pieces sep a = [a] := by
  induction a with
  | nil => rfl
  | cons c a ih =>
    obtain ⟨hc, ha⟩ := not_or.1 (mt List.mem_cons.2 h)
    rw [pieces, if_neg (Ne.symm hc), ih ha]

theorem pieces_append (h : sep ∉ a) : pieces sep (a ++ sep :: rest) = a :: pieces sep rest := by
  induction a with
  | nil => simp [pieces]
  | cons c a ih =>
    obtain ⟨hc, ha⟩ := not_or.1 (mt List.mem_cons.2 h)
    rw [List.cons_append, pieces, if_neg (Ne.symm hc), ih ha]

theorem pieces_intercalate (hne : parts ≠ []) (h : ∀ part ∈ parts, sep ∉ part) :
    pieces sep (List.intercalate [sep] parts) = parts := by
  induction parts with
  | nil => exact absurd rfl hne
  | cons part rest ih =>
    have hpart := h part List.mem_cons_self
    cases rest with
    | nil => rw [List.intercalate_singleton, pieces_of_not_mem hpart]
    | cons next rest =>
      rw [List.intercalate_cons_cons, List.append_assoc, List.singleton_append,
        pieces_append hpart, ih (by simp) fun q hq => h q (List.mem_cons_of_mem _ hq)]

/-- The pieces of a text with the separator between them give the text back. -/
theorem intercalate_pieces (sep : Char) (s : List Char) :
    List.intercalate [sep] (pieces sep s) = s ∧ pieces sep s ≠ [] ∧
      ∀ piece ∈ pieces sep s, sep ∉ piece := by
  induction s with
  | nil => simp [pieces]
  | cons c s ih =>
    obtain ⟨hjoin, hne, hnot⟩ := ih
    obtain ⟨piece, others, hs⟩ := List.exists_cons_of_ne_nil hne
    rw [hs] at hjoin hnot
    rw [pieces, hs]
    by_cases hc : c = sep
    · rw [if_pos hc]
      refine ⟨?_, by simp, ?_⟩
      · rw [List.intercalate_cons_cons, hjoin, hc]
        rfl
      · intro q hq
        rcases List.mem_cons.1 hq with rfl | hq
        · simp
        · exact hnot q hq
    · rw [if_neg hc]
      refine ⟨?_, by simp, ?_⟩
      · -- the first piece grows by one character at its front
        cases others with
        | nil =>
          rw [List.intercalate_singleton] at hjoin ⊢
          rw [hjoin]
        | cons next others =>
          rw [List.intercalate_cons_cons] at hjoin ⊢
          rw [List.cons_append, List.cons_append, hjoin]
      · intro q hq
        rcases List.mem_cons.1 hq with rfl | hq
        · rw [List.mem_cons, not_or]
          exact ⟨Ne.symm hc, hnot piece List.mem_cons_self⟩
        · exact hnot q (List.mem_cons_of_mem _ hq)

/-- A piece is a part of the text. -/
theorem infix_of_mem_pieces {piece : List Char} (h : piece ∈ pieces sep s) : piece <:+: s := by
  rw [← (intercalate_pieces sep s).1]
  generalize pieces sep s = parts at h
  induction parts with
  | nil => exact absurd h (by simp)
  | cons part rest ih =>
    cases rest with
    | nil =>
      rw [List.mem_singleton.1 h, List.intercalate_singleton]
    | cons next rest =>
      rw [List.intercalate_cons_cons, List.append_assoc]
      rcases List.mem_cons.1 h with rfl | h
      · exact (List.prefix_append _ _).isInfix
      · exact (ih h).trans ((List.suffix_append _ _).trans (List.suffix_append _ _)).isInfix

/-- A beginning without the separator ends in front of one. -/
theorem prefix_of_prefix_append_sep (hsep : sep ∉ p) (h : p <+: a ++ sep :: rest) : p <+: a := by
  rcases Nat.lt_or_ge a.length p.length with hlt | hle
  · -- a longer beginning would take in the separator behind `a`
    have hin : a ++ [sep] <+: p := by
      refine List.prefix_of_prefix_length_le ⟨rest, ?_⟩ h ?_
      · rw [List.append_assoc, List.singleton_append]
      · rw [List.length_append, List.length_singleton]
        exact hlt
    exact absurd (hin.subset (List.mem_append_right _ (List.mem_singleton.2 rfl))) hsep
  · exact List.prefix_of_prefix_length_le h (List.prefix_append _ _) hle

/-- A pattern without the separator does not reach across one. -/
theorem infix_append_sep (hp : p ≠ []) (hsep : sep ∉ p) :
    p <:+: a ++ sep :: rest ↔ p <:+: a ∨ p <:+: rest := by
  constructor
  · intro h
    induction a with
    | nil =>
      rcases List.infix_cons_iff.1 h with h | h
      · exact absurd (List.prefix_nil.1 (prefix_of_prefix_append_sep hsep h)) hp
      · exact .inr h
    | cons c a ih =>
      rcases List.infix_cons_iff.1 h with h | h
      · exact .inl (prefix_of_prefix_append_sep hsep h).isInfix
      · rcases ih h with h | h
        · exact .inl (List.infix_cons_iff.2 (.inr h))
        · exact .inr h
  · rintro (h | h)
    · exact h.trans (List.prefix_append _ _).isInfix
    · exact h.trans ((List.suffix_cons _ _).trans (List.suffix_append _ _)).isInfix

theorem infix_intercalate (hp : p ≠ []) (hsep : sep ∉ p) :
    p <:+: List.intercalate [sep] parts ↔ ∃ part ∈ parts, p <:+: part := by
  induction parts with
  | nil => simp [hp]
  | cons part rest ih =>
    cases rest with
    | nil => simp
    | cons next rest =>
      rw [List.intercalate_cons_cons, List.append_assoc, List.singleton_append,
        infix_append_sep hp hsep, ih]
      simp

/-- The pieces around a separator are those of both sides. -/
theorem pieces_append_cons (a rest : List Char) :
    pieces sep (a ++ sep :: rest) = pieces sep a ++ pieces sep rest := by
  obtain ⟨hjoin, hne, hnot⟩ := intercalate_pieces sep a
  rw [← hjoin, pieces_intercalate hne hnot]
  generalize pieces sep a = parts at hne hnot
  induction parts with
  | nil => exact absurd rfl hne
  | cons part others ih =>
    obtain ⟨hpart, hothers⟩ := List.forall_mem_cons.1 hnot
    cases others with
    | nil => rw [List.intercalate_singleton, pieces_append hpart, List.singleton_append]
    | cons next others =>
      rw [List.intercalate_cons_cons, List.append_assoc, List.append_assoc, List.singleton_append,
        pieces_append hpart, ih (List.cons_ne_nil _ _) hothers]
      rfl

/-- What starts with the separator is not found in front of the first one. -/
theorem infix_append_of_not_mem (h : sep ∉ a) : sep :: p <:+: a ++ s ↔ sep :: p <:+: s := by
  induction a with
  | nil => rfl
  | cons c a ih =>
    obtain ⟨hc, ha⟩ := not_or.1 (mt List.mem_cons.2 h)
    rw [List.cons_append, List.infix_cons_iff, List.cons_prefix_cons, ih ha]
    exact or_iff_right fun h => hc h.1

/-- A piece begins with a pattern just when the pattern stands behind a separator, one in front of
the text counted in. -/
theorem exists_pieces_prefix_iff (hsep : sep ∉ p) :
    (∃ piece ∈ pieces sep s, p <+: piece) ↔ sep :: p <:+: sep :: s := by
  obtain ⟨hjoin, hne, hnot⟩ := intercalate_pieces sep s
  rw [← hjoin, pieces_intercalate hne hnot]
  generalize pieces sep s = parts at hne hnot
  induction parts with
  | nil => exact absurd rfl hne
  | cons part others ih =>
    obtain ⟨hpart, hothers⟩ := List.forall_mem_cons.1 hnot
    cases others with
    | nil =>
      have hnil : ¬ sep :: p <:+: part := fun h => hpart (h.subset List.mem_cons_self)
      rw [List.intercalate_singleton, List.infix_cons_iff, List.cons_prefix_cons, or_iff_left hnil]
      simp
    | cons next others =>
      have hfirst : p <+: part ++ sep :: List.intercalate [sep] (next :: others) ↔ p <+: part :=
        ⟨prefix_of_prefix_append_sep hsep, fun h => h.trans (List.prefix_append _ _)⟩
      rw [List.intercalate_cons_cons, List.append_assoc, List.singleton_append,
        List.infix_cons_iff, List.cons_prefix_cons, infix_append_of_not_mem hpart, hfirst,
        ← ih (List.cons_ne_nil _ _) hothers]
      simp

end Pieces

/-! ## Blanks -/

theorem infix_trim (s : List Char) : trim s <:+: s :=
  (List.rdropWhile_prefix isBlank _).isInfix.trans (List.dropWhile_suffix isBlank).isInfix

/-- What is left after trimming starts with no blank. -/
theorem trimStart_trim (s : List Char) : trimStart (trim s) = trim s := by
  unfold trimStart
  rw [List.dropWhile_eq_self_iff]
  intro hl
  -- its first character is the one that dropping blanks stopped at
  have hpre : trim s <+: s.dropWhile isBlank := List.rdropWhile_prefix isBlank _
  have hlen : 0 < (s.dropWhile isBlank).length := Nat.lt_of_lt_of_le hl hpre.length_le
  rw [hpre.getElem hl]
  exact List.dropWhile_get_zero_not isBlank s hlen

theorem trim_trim (s : List Char) : trim (trim s) = trim s := by
  unfold trim
  rw [show trimStart (trimEnd (trimStart s)) = trimEnd (trimStart s) from trimStart_trim s]
  exact List.rdropWhile_idempotent isBlank _

/-- A text of blanks only. -/
def Blank (s : List Char) : Prop := ∀ c ∈ s, isBlank c = true

/-- A text that neither starts nor ends with a blank. -/
structure Unpadded (s : List Char) : Prop where
  first : ∀ c ∈ s.head?, isBlank c = false
  last : ∀ c ∈ s.getLast?, isBlank c = false

variable {t left right : List Char}

theorem blank_nil : Blank [] := List.forall_mem_nil _

/-- What passes a test that no blank passes is no blank. -/
theorem not_isBlank_of_any {c : Char} {q : Char → Bool} (hblanks : blanks.any q = false)
    (hc : q c = true) : isBlank c = false := by
  rw [← Bool.not_eq_true]
  intro hblank
  exact List.any_eq_false.1 hblanks c (List.contains_iff_mem.1 hblank) hc

theorem Unpadded.of_not_blank (h : ∀ c ∈ t, isBlank c = false) : Unpadded t where
  first := fun c hc => h c (List.mem_of_mem_head? hc)
  last := fun c hc => h c (List.mem_of_mem_getLast? hc)

theorem trimStart_append (hl : Blank left) : trimStart (left ++ t) = trimStart t := by
  unfold trimStart
  rw [List.dropWhile_append_of_pos hl]

theorem trimEnd_append (hr : Blank right) : trimEnd (t ++ right) = trimEnd t := by
  unfold trimEnd
  rw [List.reverse_append, List.dropWhile_append_of_pos]
  intro c hc
  exact hr c (List.mem_reverse.1 hc)

theorem trimStart_of_first (h : ∀ c ∈ t.head?, isBlank c = false) : trimStart t = t := by
  cases t with
  | nil => rfl
  | cons c t =>
    unfold trimStart
    rw [List.dropWhile_cons_of_neg]
    rw [h c rfl]
    exact Bool.false_ne_true

theorem trimEnd_of_last (h : ∀ c ∈ t.getLast?, isBlank c = false) : trimEnd t = t := by
  unfold trimEnd
  rw [← List.head?_reverse] at h
  have hreverse := trimStart_of_first h
  unfold trimStart at hreverse
  rw [hreverse, List.reverse_reverse]

/-- **Trimming takes the blanks off around a text that has none at its ends.** -/
theorem trim_padded (hl : Blank left) (ht : Unpadded t) (hr : Blank right) :
    trim (left ++ t ++ right) = t := by
  unfold trim
  rw [List.append_assoc, trimStart_append hl]
  cases t with
  | nil =>
    have hnil := trimStart_append (t := []) hr
    rw [List.append_nil] at hnil
    rw [List.nil_append, hnil]
    rfl
  | cons c t =>
    have hfirst : ∀ d ∈ (c :: t ++ right).head?, isBlank d = false := ht.first
    rw [trimStart_of_first hfirst, trimEnd_append hr, trimEnd_of_last ht.last]

/-- A text without blanks is left as it is. -/
theorem trim_of_not_blank {s : List Char} (h : ∀ c ∈ s, isBlank c = false) : trim s = s := by
  have htrim := trim_padded blank_nil (.of_not_blank h) blank_nil
  rwa [List.nil_append, List.append_nil] at htrim

theorem first_trimStart (s : List Char) : ∀ c ∈ (trimStart s).head?, isBlank c = false := by
  intro c hc
  have hdrop := List.head?_dropWhile_not isBlank s
  unfold trimStart at hc
  rw [hc] at hdrop
  exact hdrop

/-- Trimming leaves no blank at the ends. -/
theorem unpadded_trim (s : List Char) : Unpadded (trim s) where
  first := by
    rw [← trimStart_trim]
    exact first_trimStart _
  last := by
    unfold trim trimEnd
    rw [List.getLast?_reverse]
    exact first_trimStart _

/-- A text is what trimming leaves, with blanks around it. -/
theorem exists_padded (s : List Char) :
    ∃ left right, Blank left ∧ Blank right ∧ s = left ++ trim s ++ right := by
  have hstart : s.takeWhile isBlank ++ trimStart s = s := List.takeWhile_append_dropWhile
  have hend : trim s ++ ((trimStart s).reverse.takeWhile isBlank).reverse = trimStart s := by
    unfold trim trimEnd
    rw [← List.reverse_append, List.takeWhile_append_dropWhile, List.reverse_reverse]
  have hblank : ∀ t : List Char, Blank (t.takeWhile isBlank) := fun t c hc =>
    List.mem_takeWhile_imp hc
  refine ⟨s.takeWhile isBlank, ((trimStart s).reverse.takeWhile isBlank).reverse, hblank s, ?_, ?_⟩
  · exact fun c hc => hblank _ c (List.mem_reverse.1 hc)
  · rw [List.append_assoc, hend, hstart]

/-- What trims to nothing is blank. -/
theorem trim_eq_nil : trim s = [] ↔ Blank s := by
  constructor
  · intro h
    obtain ⟨left, right, hl, hr, hs⟩ := exists_padded s
    rw [h, List.append_nil] at hs
    intro c hc
    rw [hs] at hc
    exact (List.mem_append.1 hc).elim (hl c) (hr c)
  · intro h
    have hpadded := trim_padded h (.of_not_blank (List.forall_mem_nil _)) blank_nil
    rwa [List.append_nil, List.append_nil] at hpadded

/-- A text without blanks at its ends, which is not empty. -/
def Trimmed (s : String) : Prop := s ≠ "" ∧ strip s = s

theorem trimmed_iff {s : String} : Trimmed s ↔ s.toList ≠ [] ∧ trim s.toList = s.toList := by
  unfold Trimmed strip
  rw [← String.toList_inj, String.toList_ofList, ne_eq, ← String.toList_eq_nil_iff]

end RecordSql.Text
