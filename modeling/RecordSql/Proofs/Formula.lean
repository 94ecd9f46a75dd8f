import RecordSql.Proofs.Placeholders

/-!
# Reading a clause

A clause is read in the grammar of SQL conditions, in which `AND` binds more tightly than `OR`:

* a disjunction is conjunctions with ` OR ` between them;
* a conjunction is primaries with ` AND ` between them;
* a primary is `NOT (` with a disjunction and `)`, a disjunction in parentheses, or a comparison.

A comparison is an operand, what it is compared by, and placeholders, which are read as the values
of their parameters. `Derives` is this grammar, along with the formula that a text is read as.

The grammar leaves no choice, if operands can be told from what follows them: a text is read as one
formula. The induction is on the first of two readings. It goes through for texts that go on in
different ways, as long as both go on with something that ends what has been read.
-/

namespace RecordSql

open Text

/-! ## Formulas -/

/-- What an operand is compared by. -/
inductive Relation where
  | isNull
  | isNotNull
  | atLeast
  | atMost
  | oneOf
  | like
  | equals
  deriving DecidableEq, Repr

namespace Relation

/-- The text between the operand and the values. -/
def opening : Relation → String
  | .isNull => " IS NULL"
  | .isNotNull => " IS NOT NULL"
  | .atLeast => " >= "
  | .atMost => " <= "
  | .oneOf => " IN ("
  | .like => " LIKE "
  | .equals => " = "

/-- The text after the values. -/
def closing : Relation → String
  | .oneOf => ")"
  | _ => ""

/-- The values that an operand can be compared with: none, some, or one. -/
def Takes : Relation → List Value → Prop
  | .isNull, values => values = []
  | .isNotNull, values => values = []
  | .oneOf, values => values ≠ []
  | _, values => ∃ value, values = [value]

end Relation

/-- A comparison of an operand with values. -/
structure Test where
  operand : String
  relation : Relation
  values : List Value
  deriving DecidableEq

/-- What a condition says of its comparisons. -/
inductive Formula where
  | test (t : Test)
  | not (φ : Formula)
  | and (φ ψ : Formula)
  | or (φ ψ : Formula)
  deriving DecidableEq

namespace Formula

/-- The truth of a formula when that of its comparisons is given. -/
def Holds (truth : Test → Prop) : Formula → Prop
  | .test t => truth t
  | .not φ => ¬ φ.Holds truth
  | .and φ ψ => φ.Holds truth ∧ ψ.Holds truth
  | .or φ ψ => φ.Holds truth ∨ ψ.Holds truth

/-- The comparisons of a formula, in order. -/
def tests : Formula → List Test
  | .test t => [t]
  | .not φ => φ.tests
  | .and φ ψ => φ.tests ++ ψ.tests
  | .or φ ψ => φ.tests ++ ψ.tests

end Formula

/-! ## The grammar -/

/-- How tightly a part of a condition binds. -/
inductive Level where
  | disjunction
  | conjunction
  | primary

/-- What a reader of a clause knows: the dialect, the operands, and the values of parameters. -/
structure Reading where
  dialect : Dialect
  operand : String → Prop
  value? : String → Option Value

/-- Placeholders with commas between them, and the values of their parameters. -/
inductive Listed (R : Reading) : List Char → List Value → Prop where
  | nil : Listed R [] []
  | one {n : Nat} {value : Value} : R.value? (parameterName n) = some value →
      Listed R (R.dialect.placeholder (parameterName n)).toList [value]
  | more {n : Nat} {value next : Value} {values : List Value} {cs : List Char} :
      R.value? (parameterName n) = some value → Listed R cs (next :: values) →
      Listed R ((R.dialect.placeholder (parameterName n)).toList ++ (", ".toList ++ cs))
        (value :: next :: values)

/-- A text of a level, and the formula that it is read as. -/
inductive Derives (R : Reading) : Level → List Char → Formula → Prop where
  | lone {cs : List Char} {φ : Formula} : Derives R .conjunction cs φ →
      Derives R .disjunction cs φ
  | or {cs ds : List Char} {φ ψ : Formula} : Derives R .conjunction cs φ →
      Derives R .disjunction ds ψ → Derives R .disjunction (cs ++ (" OR ".toList ++ ds)) (.or φ ψ)
  | single {cs : List Char} {φ : Formula} : Derives R .primary cs φ →
      Derives R .conjunction cs φ
  | and {cs ds : List Char} {φ ψ : Formula} : Derives R .primary cs φ →
      Derives R .conjunction ds ψ → Derives R .conjunction (cs ++ (" AND ".toList ++ ds)) (.and φ ψ)
  | negation {cs : List Char} {φ : Formula} : Derives R .disjunction cs φ →
      Derives R .primary ("NOT (".toList ++ (cs ++ ")".toList)) (.not φ)
  | parentheses {cs : List Char} {φ : Formula} : Derives R .disjunction cs φ →
      Derives R .primary ("(".toList ++ (cs ++ ")".toList)) φ
  | comparison {operand : String} {relation : Relation} {values : List Value} {cs : List Char} :
      R.operand operand → relation.Takes values → Listed R cs values →
      Derives R .primary
        (operand.toList ++ (relation.opening.toList ++ (cs ++ relation.closing.toList)))
        (.test ⟨operand, relation, values⟩)

/-! ## Only one reading -/

/-- Operands that can be told from what follows them, and from other primaries. -/
structure Reading.Sharp (R : Reading) : Prop where
  start : ∀ operand, R.operand operand → ∃ c cs, operand.toList = c :: cs ∧ c ≠ '(' ∧ c ≠ 'N'
  ends : ∀ o o' x y, R.operand o → R.operand o' → o.toList ++ ' ' :: x = o'.toList ++ ' ' :: y →
    o = o'

/-- What may come after a list of values: nothing, a blank or a closing parenthesis. -/
def Ends (rest : List Char) : Prop := ∀ c ∈ rest.head?, c = ' ' ∨ c = ')'

/-- What may come after a text of a level. -/
def Level.Follows : Level → List Char → Prop
  | .disjunction, rest => ∀ c ∈ rest.head?, c = ')'
  | .conjunction, rest => (∀ c ∈ rest.head?, c = ')') ∨ " OR ".toList <+: rest
  | .primary, rest =>
    (∀ c ∈ rest.head?, c = ')') ∨ " OR ".toList <+: rest ∨ " AND ".toList <+: rest

theorem Level.Follows.ends {rest : List Char} (h : Level.primary.Follows rest) : Ends rest := by
  intro c hc
  rcases h with h | ⟨t, rfl⟩ | ⟨t, rfl⟩
  · exact .inr (h c hc)
  · exact .inl (Option.some.inj hc).symm
  · exact .inl (Option.some.inj hc).symm

section Unique

variable {R : Reading} {rest rest' x y : List Char}

theorem Ends.not_digit (h : Ends rest) : ∀ c ∈ rest.head?, c.isDigit = false := by
  intro c hc
  rcases h c hc with rfl | rfl
  · rfl
  · rfl

/-- A placeholder ends where its number ends. -/
theorem placeholder_unique {d : Dialect} {n m : Nat} (hx : ∀ c ∈ x.head?, c.isDigit = false)
    (hy : ∀ c ∈ y.head?, c.isDigit = false)
    (h : (d.placeholder (parameterName n)).toList ++ x =
      (d.placeholder (parameterName m)).toList ++ y) : n = m ∧ x = y := by
  rw [d.toList_placeholder, d.toList_placeholder] at h
  injection h with _ h
  injection h with _ h
  -- both numbers go up to the first character that is no digit
  have hdigits := congrArg (List.takeWhile Char.isDigit) h
  rw [List.append_eq, List.append_eq, takeWhile_isDigit n hx, takeWhile_isDigit m hy] at hdigits
  have hread := congrArg (fun digits => Nat.ofDigitChars 10 digits 0) hdigits
  rw [Nat.ofDigitChars_ten_toDigits, Nat.ofDigitChars_ten_toDigits] at hread
  rw [hdigits] at h
  exact ⟨hread, List.append_cancel_left h⟩

/-- What ends a list of values starts no placeholder. -/
theorem Ends.not_placeholder {d : Dialect} {n : Nat} (h : Ends rest)
    (he : rest = (d.placeholder (parameterName n)).toList ++ x) : False := by
  rw [d.toList_placeholder] at he
  have hc := h d.mark (by rw [he]; rfl)
  cases d with
  | sqlServer => exact absurd hc (by decide)
  | oracle => exact absurd hc (by decide)

theorem Ends.not_comma (h : Ends rest) (he : rest = ", ".toList ++ x) : False := by
  have hc := h ',' (by rw [he]; rfl)
  exact absurd hc (by decide)

/-- A list of placeholders is read in one way. -/
theorem listed_unique {cs ds : List Char} {values others : List Value} (h : Listed R cs values)
    (h' : Listed R ds others) (hr : Ends rest) (hr' : Ends rest')
    (he : cs ++ rest = ds ++ rest') : values = others ∧ rest = rest' := by
  have hcomma : ∀ cs : List Char, ∀ c ∈ (", ".toList ++ cs).head?, c.isDigit = false := by
    intro cs c hc
    rw [← Option.some.inj hc]
    rfl
  -- a list that is over is followed by neither a comma nor a placeholder
  induction h generalizing ds others with
  | nil =>
    cases h' with
    | nil => exact ⟨rfl, he⟩
    | one _ => exact (hr.not_placeholder he).elim
    | more _ _ =>
      rw [List.nil_append, List.append_assoc] at he
      exact (hr.not_placeholder he).elim
  | @one n value hv =>
    cases h' with
    | nil => exact (hr'.not_placeholder he.symm).elim
    | one hv' =>
      obtain ⟨rfl, hrest⟩ := placeholder_unique hr.not_digit hr'.not_digit he
      exact ⟨by rw [Option.some.inj (hv.symm.trans hv')], hrest⟩
    | @more m value' next others ds hv' hl' =>
      rw [List.append_assoc, List.append_assoc] at he
      obtain ⟨_, hrest⟩ := placeholder_unique hr.not_digit (hcomma _) he
      exact (hr.not_comma hrest).elim
  | @more n value next values cs hv hl ih =>
    rw [List.append_assoc, List.append_assoc] at he
    cases h' with
    | nil => exact (hr'.not_placeholder he.symm).elim
    | one hv' =>
      obtain ⟨_, hrest⟩ := placeholder_unique (hcomma _) hr'.not_digit he
      exact (hr'.not_comma hrest.symm).elim
    | @more m value' next' others ds hv' hl' =>
      rw [List.append_assoc, List.append_assoc] at he
      obtain ⟨rfl, hrest⟩ := placeholder_unique (hcomma _) (hcomma _) he
      obtain ⟨hvalues, hrest⟩ := ih hl' (List.append_cancel_left hrest)
      exact ⟨by rw [Option.some.inj (hv.symm.trans hv'), hvalues], hrest⟩

/-- No relation's text starts like that of another. -/
theorem opening_unique {r r' : Relation} (h : r.opening.toList ++ x = r'.opening.toList ++ y) :
    r = r' := by
  -- one of the two texts starts the other, so they are one text
  have hprefix : r.opening.toList <+: r'.opening.toList ∨
      r'.opening.toList <+: r.opening.toList :=
    List.prefix_or_prefix_of_prefix ⟨x, rfl⟩ ⟨y, h.symm⟩
  clear h
  revert hprefix
  cases r <;> cases r' <;> decide

/-- What follows an operand starts with a blank, whatever it is compared by. -/
theorem opening_blank (r : Relation) : ∃ cs, r.opening.toList = ' ' :: cs := by
  cases r with
  | isNull => exact ⟨_, rfl⟩
  | isNotNull => exact ⟨_, rfl⟩
  | atLeast => exact ⟨_, rfl⟩
  | atMost => exact ⟨_, rfl⟩
  | oneOf => exact ⟨_, rfl⟩
  | like => exact ⟨_, rfl⟩
  | equals => exact ⟨_, rfl⟩

theorem ends_closing {r : Relation} (h : Ends rest) : Ends (r.closing.toList ++ rest) := by
  cases r with
  | oneOf =>
    intro c hc
    exact .inr (Option.some.inj hc).symm
  | _ => exact h

/-- A comparison is read in one way. -/
theorem comparison_unique (hs : R.Sharp) {o o' : String} {r r' : Relation}
    {values others : List Value} {cs ds : List Char} (ho : R.operand o) (ho' : R.operand o')
    (hl : Listed R cs values) (hl' : Listed R ds others) (hr : Ends rest) (hr' : Ends rest')
    (he : (o.toList ++ (r.opening.toList ++ (cs ++ r.closing.toList))) ++ rest =
      (o'.toList ++ (r'.opening.toList ++ (ds ++ r'.closing.toList))) ++ rest') :
    (⟨o, r, values⟩ : Test) = ⟨o', r', others⟩ ∧ rest = rest' := by
  simp only [List.append_assoc] at he
  obtain ⟨tail, ht⟩ := opening_blank r
  obtain ⟨tail', ht'⟩ := opening_blank r'
  -- read from left to right: the operand, then the relation, then the values
  have hoperand : o = o' := by
    rw [ht, ht', List.cons_append, List.cons_append] at he
    exact hs.ends _ _ _ _ ho ho' he
  subst hoperand
  have hopen := List.append_cancel_left he
  have hrelation := opening_unique hopen
  subst hrelation
  have hlist := List.append_cancel_left hopen
  obtain ⟨hvalues, hclose⟩ := listed_unique hl hl' (ends_closing hr) (ends_closing hr') hlist
  exact ⟨by rw [hvalues], List.append_cancel_left hclose⟩

/-- A conjunction goes on at `AND`. -/
theorem not_follows_and : ¬ Level.conjunction.Follows (" AND ".toList ++ x) := by
  intro h
  rcases h with h | ⟨t, ht⟩
  · exact absurd (h ' ' rfl) (by decide)
  · exact absurd (List.cons.inj (List.cons.inj ht).2).1 (by decide)

/-- A disjunction goes on at `OR`. -/
theorem not_follows_or : ¬ Level.disjunction.Follows (" OR ".toList ++ x) := by
  intro h
  exact absurd (h ' ' rfl) (by decide)

/-- An operand starts like no negation and like no parenthesis. -/
theorem Reading.Sharp.not_start (hs : R.Sharp) {o : String} (ho : R.operand o) {c : Char}
    (hc : c = '(' ∨ c = 'N') (he : o.toList ++ x = c :: y) : False := by
  obtain ⟨d, ds, hd, hparen, hnot⟩ := hs.start o ho
  rw [hd] at he
  injection he with he _
  rcases hc with rfl | rfl
  · exact hparen he
  · exact hnot he

/--
**A text is read as one formula.**

Two readings of a level that go on differently are the same, as long as each goes on with something
that ends the level.
-/
theorem derives_unique (hs : R.Sharp) {level : Level} {cs ds : List Char} {φ ψ : Formula}
    (h : Derives R level cs φ) (h' : Derives R level ds ψ) (hr : level.Follows rest)
    (hr' : level.Follows rest') (he : cs ++ rest = ds ++ rest') : φ = ψ ∧ rest = rest' := by
  have hor : ∀ t : List Char, Level.conjunction.Follows (" OR ".toList ++ t) :=
    fun t => .inr ⟨t, rfl⟩
  have hand : ∀ t : List Char, Level.primary.Follows (" AND ".toList ++ t) :=
    fun t => .inr (.inr ⟨t, rfl⟩)
  have hclose : ∀ t : List Char, Level.disjunction.Follows (")".toList ++ t) :=
    fun t c hc => (Option.some.inj hc).symm
  induction h generalizing ds ψ rest rest' with
  | @lone cs φ hc ih =>
    cases h' with
    | lone hc' => exact ih hc' (.inl hr) (.inl hr') he
    | @or cs' ds' φ' ψ' hc' hd' =>
      rw [List.append_assoc, List.append_assoc] at he
      -- the second reading goes on after the first has ended
      obtain ⟨_, hrest⟩ := ih hc' (.inl hr) (hor _) he
      exact absurd (hrest ▸ hr) not_follows_or
  | @or cs ds₁ φ φ₂ hc hd ihc ihd =>
    rw [List.append_assoc, List.append_assoc] at he
    cases h' with
    | lone hc' =>
      obtain ⟨_, hrest⟩ := ihc hc' (hor _) (.inl hr') he
      exact absurd (hrest ▸ hr') not_follows_or
    | @or cs' ds' φ' ψ' hc' hd' =>
      rw [List.append_assoc, List.append_assoc] at he
      obtain ⟨hφ, hrest⟩ := ihc hc' (hor _) (hor _) he
      obtain ⟨hψ, hrest⟩ := ihd hd' hr hr' (List.append_cancel_left hrest)
      exact ⟨by rw [hφ, hψ], hrest⟩
  | @single cs φ hp ih =>
    -- what ends a conjunction ends its last primary
    have hfollow : ∀ {t}, Level.conjunction.Follows t → Level.primary.Follows t :=
      fun ht => ht.elim .inl fun ht => .inr (.inl ht)
    cases h' with
    | single hp' => exact ih hp' (hfollow hr) (hfollow hr') he
    | @and cs' ds' φ' ψ' hp' hd' =>
      rw [List.append_assoc, List.append_assoc] at he
      obtain ⟨_, hrest⟩ := ih hp' (hfollow hr) (hand _) he
      exact absurd (hrest ▸ hr) not_follows_and
  | @and cs ds₁ φ φ₂ hp hd ihp ihd =>
    rw [List.append_assoc, List.append_assoc] at he
    cases h' with
    | single hp' =>
      have hfollow : Level.primary.Follows rest' := hr'.elim .inl fun ht => .inr (.inl ht)
      obtain ⟨_, hrest⟩ := ihp hp' (hand _) hfollow he
      exact absurd (hrest ▸ hr') not_follows_and
    | @and cs' ds' φ' ψ' hp' hd' =>
      rw [List.append_assoc, List.append_assoc] at he
      obtain ⟨hφ, hrest⟩ := ihp hp' (hand _) (hand _) he
      obtain ⟨hψ, hrest⟩ := ihd hd' hr hr' (List.append_cancel_left hrest)
      exact ⟨by rw [hφ, hψ], hrest⟩
  | @negation cs φ hd ih =>
    rw [List.append_assoc, List.append_assoc] at he
    cases h' with
    | negation hd' =>
      rw [List.append_assoc, List.append_assoc] at he
      obtain ⟨hφ, hrest⟩ := ih hd' (hclose _) (hclose _) (List.append_cancel_left he)
      exact ⟨by rw [hφ], List.append_cancel_left hrest⟩
    | parentheses hd' => exact absurd (List.cons.inj he).1 (by decide)
    | comparison ho' ht' hl' =>
      rw [List.append_assoc] at he
      exact (hs.not_start ho' (.inr rfl) he.symm).elim
  | @parentheses cs φ hd ih =>
    rw [List.append_assoc, List.append_assoc] at he
    cases h' with
    | negation hd' => exact absurd (List.cons.inj he).1 (by decide)
    | parentheses hd' =>
      rw [List.append_assoc, List.append_assoc] at he
      obtain ⟨hφ, hrest⟩ := ih hd' (hclose _) (hclose _) (List.append_cancel_left he)
      exact ⟨hφ, List.append_cancel_left hrest⟩
    | comparison ho' ht' hl' =>
      rw [List.append_assoc] at he
      exact (hs.not_start ho' (.inl rfl) he.symm).elim
  | @comparison o r values cs ho ht hl =>
    cases h' with
    | negation hd' =>
      rw [List.append_assoc] at he
      exact (hs.not_start ho (.inr rfl) he).elim
    | parentheses hd' =>
      rw [List.append_assoc] at he
      exact (hs.not_start ho (.inl rfl) he).elim
    | comparison ho' ht' hl' =>
      obtain ⟨htest, hrest⟩ := comparison_unique hs ho ho' hl hl' hr.ends hr'.ends he
      exact ⟨congrArg Formula.test htest, hrest⟩

end Unique

end RecordSql
