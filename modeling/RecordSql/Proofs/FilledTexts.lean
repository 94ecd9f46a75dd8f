import RecordSql.Proofs.Meaning

/-!
# Parentheses are never empty

In a text of the grammar of conditions something stands in every pair of parentheses, and nothing
but a relation has an equals sign. Neither sign is part of a name, an alias, a quote or a
placeholder; operands have parentheses only around the column that they decrypt, and a list of
values has a first placeholder. So it is enough to look at what follows each sign, which two texts
put together do not change as long as each of them already settles it.
-/

namespace RecordSql

open Text Checked

/-! ## What follows a character -/

namespace Text

variable {c d : Char} {p cs ds : List Char}

/-- A text in which something else than a pattern follows a character wherever it stands, and as
much of it as is needed to tell. -/
def Avoids (c : Char) (p : List Char) : List Char → Prop
  | [] => True
  | d :: rest => (d = c → p.length ≤ rest.length ∧ ¬ p <+: rest) ∧ Avoids c p rest

instance decidableAvoids (c : Char) (p : List Char) : ∀ cs, Decidable (Avoids c p cs)
  | [] => isTrue trivial
  | d :: rest =>
    have := decidableAvoids c p rest
    inferInstanceAs (Decidable ((d = c → p.length ≤ rest.length ∧ ¬ p <+: rest) ∧ _))

theorem avoids_of_not_mem (h : c ∉ cs) : Avoids c p cs := by
  induction cs with
  | nil => trivial
  | cons d rest ih =>
    obtain ⟨hd, hrest⟩ := not_or.1 (mt List.mem_cons.2 h)
    exact ⟨fun he => absurd he.symm hd, ih hrest⟩

theorem Avoids.append (hc : Avoids c p cs) (hd : Avoids c p ds) : Avoids c p (cs ++ ds) := by
  induction cs with
  | nil => exact hd
  | cons e rest ih =>
    obtain ⟨hfirst, hrest⟩ := hc
    refine ⟨fun he => ?_, ih hrest⟩
    obtain ⟨hlength, hnot⟩ := hfirst he
    refine ⟨hlength.trans (List.prefix_append rest ds).length_le, fun hp => hnot ?_⟩
    exact List.prefix_of_prefix_length_le hp (List.prefix_append rest ds) hlength

/-- The character and the pattern do not stand together. -/
theorem Avoids.not_occurs (h : Avoids c p cs) : ¬ c :: p <:+: cs := by
  induction cs with
  | nil => simp
  | cons d rest ih =>
    rw [List.infix_cons_iff, List.cons_prefix_cons]
    rintro (⟨hc, hp⟩ | hinfix)
    · exact (h.1 hc.symm).2 hp
    · exact ih h.2 hinfix

/-- A text in which something stands in every pair of parentheses, and which may itself stand in
one. -/
structure Filled (cs : List Char) : Prop where
  avoids : Avoids '(' [')'] cs
  start : ∃ c rest, cs = c :: rest ∧ c ≠ ')'

theorem Filled.append (hc : Filled cs) (hd : Avoids '(' [')'] ds) : Filled (cs ++ ds) := by
  obtain ⟨c, rest, rfl, hne⟩ := hc.start
  exact ⟨hc.avoids.append hd, c, rest ++ ds, rfl, hne⟩

theorem Filled.parentheses (hc : Filled cs) (hd : Avoids '(' [')'] ds) :
    Filled ('(' :: (cs ++ ds)) := by
  obtain ⟨c, rest, rfl, hne⟩ := hc.start
  refine ⟨⟨fun _ => ⟨?_, ?_⟩, hc.avoids.append hd⟩, '(', _, rfl, by decide⟩
  · exact Nat.succ_le_succ (Nat.zero_le _)
  · intro hp
    exact hne (List.cons_prefix_cons.1 hp).1.symm

theorem Filled.not_occurs (h : Filled cs) : ¬ "()".toList <:+: cs := h.avoids.not_occurs

end Text

/-! ## Names and placeholders -/

/-- A character that stands in no name and in no number. -/
def IsSign (c : Char) : Prop := c = '(' ∨ c = '='

section Signs

variable {c : Char} (hc : IsSign c)
include hc

theorem IsSign.not_mem_toDigits (n : Nat) : c ∉ Nat.toDigits 10 n := by
  intro hm
  have hdigit := Nat.isDigit_of_mem_toDigits (by decide) (by decide) hm
  rcases hc with rfl | rfl
  · exact absurd hdigit (by decide)
  · exact absurd hdigit (by decide)

theorem IsSign.not_mem_placeholder (d : Dialect) (n : Nat) :
    c ∉ (d.placeholder (parameterName n)).toList := by
  have hmark : c ≠ d.mark ∧ c ≠ 'p' := by
    rcases hc with rfl | rfl <;> cases d <;> decide
  rw [d.toList_placeholder, List.mem_cons, List.mem_cons]
  rintro (he | he | hm)
  · exact hmark.1 he
  · exact hmark.2 he
  · exact hc.not_mem_toDigits n hm

theorem IsSign.not_mem_qualified (style : Style) (table : TableAlias) {name : String}
    (h : Identifier.check name = .ok ()) : c ∉ (style.qualified table name).toList := by
  have hname : c ∉ name.toList := by
    intro hm
    have hallowed := (Identifier.check_eq_ok.1 h).2.2.1 _ hm
    rcases hc with rfl | rfl
    · exact absurd hallowed (by decide)
    · exact absurd hallowed (by decide)
  have hidentifier : c ∉ (style.identifier name).toList := by
    refine Style.not_mem_identifier hname fun d => ?_
    rcases hc with rfl | rfl <;> cases d <;> decide
  have htable : c ∉ table.text.toList := by
    obtain ⟨letter, n, htext, hletter⟩ := table.toList_text
    rw [htext, List.mem_cons]
    rintro (rfl | hm)
    · rcases hc with rfl | rfl <;> exact absurd hletter (by decide)
    · exact hc.not_mem_toDigits n hm
  have hpoint : c ∉ ".".toList := by
    rcases hc with rfl | rfl <;> decide
  unfold Style.qualified
  rw [String.toList_append, String.toList_append, List.mem_append, List.mem_append]
  rintro ((hm | hm) | hm)
  · exact htable hm
  · exact hpoint hm
  · exact hidentifier hm

end Signs

/-! ## Operands -/

variable {b : Builder} {e : Entity}

/-- The text of an operand: nothing is compared in it, and its parentheses are filled. -/
theorem Builder.filled_operand (style : Style) {target : Target} {operand : Sql}
    (hc : Identifier.check target.columnName = .ok ()) (h : b.operand target = .ok operand) :
    Filled (operand.write style).toList ∧ '=' ∉ (operand.write style).toList := by
  obtain ⟨table, hoperand⟩ := operand_eq_ok h
  obtain ⟨letter, rest, hcolumn, hletter, -⟩ := style.toList_qualified table hc
  have hequal := IsSign.not_mem_qualified (.inr rfl) style table hc
  have hfilled : Filled (style.qualified table target.columnName).toList := by
    refine ⟨avoids_of_not_mem (IsSign.not_mem_qualified (.inl rfl) style table hc), letter, rest,
      hcolumn, ?_⟩
    rcases hletter with rfl | rfl
    · decide
    · decide
  unfold Sql.write
  rw [String.toList_ofList]
  rcases hoperand with rfl | rfl
  · show Filled (_ ++ []) ∧ '=' ∉ (_ ++ [])
    rw [List.append_nil]
    exact ⟨hfilled, hequal⟩
  · show Filled (_ ++ (_ ++ (Dialect.encryptionClosing.toList ++ []))) ∧
      '=' ∉ (_ ++ (_ ++ (Dialect.encryptionClosing.toList ++ [])))
    rw [List.append_nil]
    have hopening : Dialect.decryptOpening.toList =
        "CONVERT(NVARCHAR(MAX), DECRYPTBYKEY".toList ++ ['('] := by decide
    have hclosing : Avoids '(' [')'] Dialect.encryptionClosing.toList := by decide
    have hfront : Filled "CONVERT(NVARCHAR(MAX), DECRYPTBYKEY".toList :=
      ⟨by decide, 'C', _, rfl, by decide⟩
    constructor
    · simp only [Piece.write, hopening, List.append_assoc]
      exact hfront.append (hfilled.parentheses hclosing).avoids
    · have hopening' : '=' ∉ Dialect.decryptOpening.toList := by decide
      have hclosing' : '=' ∉ Dialect.encryptionClosing.toList := by decide
      rw [List.mem_append, List.mem_append]
      rintro (hm | hm | hm)
      · exact hopening' hm
      · exact hequal hm
      · exact hclosing' hm

/-! ## Texts of the grammar -/

section Grammar

variable {R : Reading} {cs : List Char}

theorem Listed.not_mem {c : Char} (hc : IsSign c) {values : List Value} (h : Listed R cs values) :
    c ∉ cs := by
  have hcomma : c ∉ ", ".toList := by
    rcases hc with rfl | rfl <;> decide
  induction h with
  | nil => exact List.not_mem_nil
  | one _ => exact hc.not_mem_placeholder _ _
  | more _ _ ih =>
    rw [List.mem_append, List.mem_append]
    rintro (hm | hm | hm)
    · exact hc.not_mem_placeholder _ _ hm
    · exact hcomma hm
    · exact ih hm

/-- A list of values starts with a placeholder. -/
theorem Listed.start {values : List Value} (h : Listed R cs values) (hne : values ≠ []) :
    ∃ rest, cs = R.dialect.mark :: rest := by
  cases h with
  | nil => exact absurd rfl hne
  | one _ =>
    rw [R.dialect.toList_placeholder]
    exact ⟨_, rfl⟩
  | more _ _ =>
    rw [R.dialect.toList_placeholder]
    exact ⟨_, rfl⟩

/-- **Nothing in the grammar of conditions has an empty pair of parentheses.** -/
theorem Derives.filled {level : Level} {φ : Formula} (h : Derives R level cs φ)
    (ho : ∀ operand, R.operand operand → Filled operand.toList) : Filled cs := by
  have hclose : Avoids '(' [')'] ")".toList := by decide
  induction h with
  | lone _ ih => exact ih
  | single _ ih => exact ih
  | or _ _ ihc ihd =>
    have hor : Avoids '(' [')'] " OR ".toList := by decide
    exact ihc.append (hor.append ihd.avoids)
  | and _ _ ihc ihd =>
    have hand : Avoids '(' [')'] " AND ".toList := by decide
    exact ihc.append (hand.append ihd.avoids)
  | negation _ ih =>
    have hnot : Filled "NOT ".toList := ⟨by decide, 'N', _, rfl, by decide⟩
    exact hnot.append (ih.parentheses hclose).avoids
  | parentheses _ ih => exact ih.parentheses hclose
  | @comparison operand relation values cs hop ht hl =>
    refine (ho operand hop).append ?_
    have hvalues : Avoids '(' [')'] cs := avoids_of_not_mem (hl.not_mem (.inl rfl))
    by_cases hlist : relation = .oneOf
    · -- a list has an item, whose placeholder follows the parenthesis
      subst hlist
      obtain ⟨rest, hcs⟩ := hl.start ht
      have hmark : R.dialect.mark ≠ ')' := by
        cases R.dialect <;> decide
      have hin : Avoids '(' [')'] " IN ".toList := by decide
      exact hin.append (Filled.parentheses ⟨hvalues, _, rest, hcs, hmark⟩ hclose).avoids
    · have hwords : Avoids '(' [')'] relation.opening.toList ∧
          Avoids '(' [')'] relation.closing.toList := by
        revert hlist
        cases relation <;> decide
      exact hwords.1.append (hvalues.append hwords.2)

end Grammar

end RecordSql
