import RecordSql.Proofs.Formula
import RecordSql.Proofs.WireReading

/-!
# The text of a clause means its filter

A clause is a flat text: conditions with `AND` or `OR` between them, and parentheses in only some
places. What it has to say is a formula: the searches of all columns, and one of the conditions of
the global search; or the conditions of an example, all or one of them.

Reading the text gives just that formula. The argument follows how the clause is put together:

* a condition is read as what its search means, wherever it stands. It is a primary, since a range
  with two bounds and a negation have their own parentheses;
* conditions with `AND` between them are a conjunction of primaries, and conditions with `OR` a
  disjunction of them;
* two groups are a conjunction of two primaries, each a group in its parentheses.

A placeholder in the clause is read as the value of its parameter in the whole statement. The
parameters of a clause are numbered from what is bound before it, so the place of a clause is the
number that its first parameter has.
-/

namespace RecordSql

open Text Checked

/-! ## Searches have items -/

namespace Predicate

/-- A predicate in which every list has an item. -/
def Sound : Predicate → Prop
  | .not inner => inner.Sound
  | .list items => items ≠ []
  | _ => True

theorem sound_readPlain {cs : List Char} {p : Predicate} (h : readPlain cs = .ok p) : p.Sound := by
  rcases readPlain_eq_ok.1 h with ⟨-, rfl⟩ | ⟨_, _, -, -, rfl⟩ |
    ⟨-, ⟨_, -, hne, rfl⟩ | ⟨_, -, rfl⟩ | ⟨-, -, -, rfl⟩⟩
  · trivial
  · trivial
  · exact hne
  · trivial
  · trivial

theorem sound_readChars {cs : List Char} {p : Predicate} (h : readChars cs = .ok p) : p.Sound := by
  induction cs using readChars.induct generalizing p with
  | case1 =>
    rw [readChars, if_pos rfl] at h
    injection h with h
    rw [← h]
    trivial
  | case2 h' =>
    rw [readChars, if_neg h', if_pos rfl] at h
    exact absurd h (by simp)
  | case3 rest hnull hnil ih =>
    rw [readChars, if_neg hnull, if_neg hnil, map_eq_ok] at h
    obtain ⟨inner, hi, rfl⟩ := h
    have hinner : inner.Sound := ih hi
    exact hinner
  | case4 cs hne =>
    rw [readChars] at h
    · exact sound_readPlain h
    · exact hne

theorem sound_parse {text : String} {p : Predicate} (h : parse text = .ok (some p)) : p.Sound := by
  unfold parse at h
  split at h
  · exact absurd h (by simp)
  · obtain ⟨q, hq, he⟩ := map_eq_ok.1 h
    rw [← Option.some.inj he]
    exact sound_readChars hq

/-- What a property value asks for has items as well. -/
theorem sound_ofProperty {value : Json} {p : Predicate} (h : ofProperty value = .ok (some p)) :
    p.Sound := by
  unfold ofProperty at h
  split at h
  · exact absurd h (by simp)
  · exact sound_parse h
  · split at h
    · exact absurd h (by simp)
    next hne =>
      injection h with h
      rw [← Option.some.inj h]
      exact hne
  · exact absurd h (by simp)
  · injection h with h
    rw [← Option.some.inj h]
    trivial

end Predicate

/-! ## What a condition means -/

namespace Condition

/-- A condition that asks for something: a list has an item, and a range a bound. -/
def Sound : Condition → Prop
  | .not inner => inner.Sound
  | .range lower upper => lower.isSome ∨ upper.isSome
  | .oneOf items => items ≠ []
  | _ => True

/-- What a condition says of an operand. A text is searched for as a part, between percent signs;
a range without bounds, which no search gives, would let everything through. -/
def meaning (operand : String) : Condition → Formula
  | .isNull => .test ⟨operand, .isNull, []⟩
  | .isNotNull => .test ⟨operand, .isNotNull, []⟩
  | .not inner => .not (inner.meaning operand)
  | .range (some lower) (some upper) =>
    .and (.test ⟨operand, .atLeast, [lower]⟩) (.test ⟨operand, .atMost, [upper]⟩)
  | .range (some lower) none => .test ⟨operand, .atLeast, [lower]⟩
  | .range none (some upper) => .test ⟨operand, .atMost, [upper]⟩
  | .range none none =>
    .or (.test ⟨operand, .isNull, []⟩) (.test ⟨operand, .isNotNull, []⟩)
  | .oneOf items => .test ⟨operand, .oneOf, items⟩
  | .like text => .test ⟨operand, .like, [.text ("%" ++ text ++ "%")]⟩
  | .equals value => .test ⟨operand, .equals, [value]⟩

end Condition

/-- A search that has items gives a condition that asks for something. -/
theorem Predicate.Sound.coerce {type : DataType} {p : Predicate} {c : Condition} (hp : p.Sound)
    (h : p.coerce type = .ok c) : c.Sound := by
  replace h := types_of_coerce h
  induction h with
  | not _ ih => exact ih hp
  | atLeast _ | between _ _ => exact .inl rfl
  | atMost _ => exact .inr rfl
  | list hvalues =>
    intro hn
    have hlength := hvalues.length_eq
    rw [hn] at hlength
    exact hp (List.length_eq_zero_iff.1 hlength)
  | isNull | isNotNull | like | equals _ => trivial

/-! ## Parts in their place -/

namespace Sql

variable {style : Style} {sql : Sql}

theorem bindings_append (a c : Sql) : (a ++ c).bindings = a.bindings ++ c.bindings :=
  List.filterMap_append

theorem charsFrom_append (a c : Sql) (n : Nat) :
    charsFrom style n (a ++ c) =
      charsFrom style n a ++ charsFrom style (n + a.bindings.length) c := by
  induction a generalizing n with
  | nil => rfl
  | cons p rest ih =>
    cases hb : p.binding? with
    | none =>
      have hbind : bindings (p :: rest) = bindings rest := List.filterMap_cons_none hb
      rw [List.cons_append, charsFrom_of_binding?_none hb, charsFrom_of_binding?_none hb, ih,
        hbind, List.append_assoc]
    | some x =>
      -- a bound value moves the numbers of the second part on
      obtain rfl := Piece.eq_bind_of_binding? hb
      have hbind : bindings (.bind x :: rest) = x :: bindings rest := List.filterMap_cons_some hb
      rw [List.cons_append, charsFrom, charsFrom, ih, hbind, List.length_cons, List.append_assoc,
        Nat.add_assoc, Nat.add_comm 1]

theorem bindings_between (a c : Sql) (s : String) :
    bindings (a ++ .text s :: c) = a.bindings ++ c.bindings := by
  rw [bindings_append]
  rfl

/-- Two parts with wording between them; the second is numbered on from the first. -/
theorem charsFrom_between (a c : Sql) (s : String) (n : Nat) :
    charsFrom style n (a ++ .text s :: c) =
      charsFrom style n a ++ (s.toList ++ charsFrom style (n + a.bindings.length) c) := by
  rw [charsFrom_append, charsFrom_of_binding?_none rfl]
  rfl

theorem bindings_wrapped (a : Sql) (s t : String) :
    bindings (.text s :: a ++ [.text t]) = a.bindings := by
  rw [bindings_append]
  exact List.append_nil _

theorem charsFrom_wrapped (a : Sql) (s t : String) (n : Nat) :
    charsFrom style n (.text s :: a ++ [.text t]) =
      s.toList ++ (charsFrom style n a ++ t.toList) := by
  rw [charsFrom_append, charsFrom_of_binding?_none rfl, List.append_assoc]
  show s.toList ++ (charsFrom style n a ++ (t.toList ++ [])) = _
  rw [List.append_nil]

/-- A list of values binds them in order. -/
theorem bindings_list (xs : List Binding) :
    (list (xs.map fun x => [.bind x])).bindings = xs := by
  induction xs with
  | nil => rfl
  | cons x rest ih =>
    cases rest with
    | nil => rfl
    | cons y rest => exact congrArg (List.cons x) ih

/-- Without bound values it does not matter where a part stands. -/
theorem charsFrom_of_bindings_nil (h : sql.bindings = []) (n : Nat) :
    charsFrom style n sql = (sql.write style).toList := by
  unfold write
  rw [String.toList_ofList]
  generalize 0 = m
  induction sql generalizing n m with
  | nil => rfl
  | cons p rest ih =>
    cases hb : p.binding? with
    | none =>
      have hrest : bindings rest = [] := by
        rw [← h]
        exact (List.filterMap_cons_none hb).symm
      -- no other piece looks at its number
      have hwrite : p.write style n = p.write style m := by
        cases p with
        | bind x => exact absurd hb (by simp [Piece.binding?])
        | _ => rfl
      rw [charsFrom_of_binding?_none hb, charsFrom_of_binding?_none hb, ih hrest n m, hwrite]
    | some x =>
      have hbind : bindings (p :: rest) = x :: bindings rest := List.filterMap_cons_some hb
      rw [hbind] at h
      exact absurd h (List.cons_ne_nil _ _)

end Sql

/-- The values bound from the place `n` on are those of their parameters. -/
def Reading.Binds (R : Reading) (n : Nat) (bindings : List Binding) : Prop :=
  ∀ i x, bindings[i]? = some x → R.value? (parameterName (n + i)) = some x.bindValue

/-- A part that is read as a formula wherever it stands. -/
def Reading.Reads (R : Reading) (style : Style) (level : Level) (part : Sql) (φ : Formula) : Prop :=
  ∀ n, R.Binds n part.bindings → Derives R level (Sql.charsFrom style n part) φ

section Places

variable {R : Reading} {n : Nat} {xs ys : List Binding}

theorem Reading.Binds.left (h : R.Binds n (xs ++ ys)) : R.Binds n xs := by
  intro i x hx
  refine h i x ?_
  have hi : i < xs.length := (List.getElem?_eq_some_iff.1 hx).1
  rw [List.getElem?_append_left hi]
  exact hx

theorem Reading.Binds.right (h : R.Binds n (xs ++ ys)) : R.Binds (n + xs.length) ys := by
  intro i x hx
  have hplace := h (xs.length + i) x
  rw [List.getElem?_append_right (Nat.le_add_right _ _), Nat.add_sub_cancel_left] at hplace
  rw [Nat.add_assoc]
  exact hplace hx

/-- A list of bound values is read as their values. -/
theorem listed_charsFrom {style : Style} (hd : R.dialect = style.dialect) (h : R.Binds n xs) :
    Listed R (Sql.charsFrom style n (Sql.list (xs.map fun x => [.bind x])))
      (xs.map Binding.bindValue) := by
  induction xs generalizing n with
  | nil => exact .nil
  | cons x rest ih =>
    have hvalue : R.value? (parameterName n) = some x.bindValue := h 0 x rfl
    have hcons : R.Binds n ([x] ++ rest) := h
    have hrest : R.Binds (n + 1) rest := hcons.right
    -- there is a comma after every value but the last
    cases rest with
    | nil =>
      have hone := Listed.one hvalue
      rw [hd] at hone
      show Listed R (_ ++ []) _
      rw [List.append_nil]
      exact hone
    | cons y rest =>
      have hmore := Listed.more hvalue (ih hrest)
      rw [hd] at hmore
      exact hmore

end Places

/-! ## Conditions -/

/-- An operand that the reader knows, written in the reader's dialect and binding no value. -/
structure Reading.Knows (R : Reading) (style : Style) (operand : Sql) : Prop where
  dialect : R.dialect = style.dialect
  unbound : operand.bindings = []
  operand : R.operand (operand.write style)

section Comparisons

variable {R : Reading} {style : Style} {operand : Sql} {type : DataType}

/-- An operand that is compared with bound values. -/
theorem derives_test {n : Nat} {xs : List Binding} (hk : R.Knows style operand)
    (relation : Relation) (ht : relation.Takes (xs.map Binding.bindValue)) (hb : R.Binds n xs) :
    Derives R .primary
      (Sql.charsFrom style n
          (operand ++ .text relation.opening :: Sql.list (xs.map fun x => [.bind x])) ++
        relation.closing.toList)
      (.test ⟨operand.write style, relation, xs.map Binding.bindValue⟩) := by
  have hlist := listed_charsFrom hk.dialect hb
  rw [Sql.charsFrom_between, hk.unbound, Sql.charsFrom_of_bindings_nil hk.unbound,
    List.append_assoc, List.append_assoc]
  exact .comparison hk.operand ht hlist

/-- A test for null compares with nothing. -/
theorem reads_null (hk : R.Knows style operand) (relation : Relation) (ht : relation.Takes [])
    (hclose : relation.closing = "") :
    R.Reads style .primary (operand ++ [.text relation.opening])
      (.test ⟨operand.write style, relation, []⟩) := by
  have hnil : relation.Takes (List.map Binding.bindValue []) := ht
  intro n _
  have hnone : R.Binds n [] := by
    intro i x hx
    exact absurd hx (by simp)
  have htest := derives_test hk relation hnil hnone
  rw [hclose] at htest
  change Derives R .primary (_ ++ []) _ at htest
  rwa [List.append_nil] at htest

/-- A comparison with one value. -/
theorem reads_single (hk : R.Knows style operand) (relation : Relation) (x : Binding)
    (ht : relation.Takes [x.bindValue]) (hclose : relation.closing = "") :
    R.Reads style .primary (operand ++ .text relation.opening :: [.bind x])
      (.test ⟨operand.write style, relation, [x.bindValue]⟩) := by
  have hone : relation.Takes (List.map Binding.bindValue [x]) := ht
  intro n hb
  rw [Sql.bindings_between, hk.unbound] at hb
  have htest := derives_test hk relation hone hb
  rw [hclose] at htest
  change Derives R .primary (_ ++ []) _ at htest
  rwa [List.append_nil] at htest

/-- What is compared with a column is the value as it was read. -/
theorem bindValue_input (value : Value) (type : DataType) :
    (Binding.input value type).bindValue = value := by
  unfold Binding.bindValue Binding.input
  cases value <;> rfl

/-- A comparison with one value of the type of the column. -/
theorem reads_bound (hk : R.Knows style operand) (relation : Relation) {value : Value}
    (ht : relation.Takes [value]) (hclose : relation.closing = "") :
    R.Reads style .primary (operand ++ .text relation.opening :: Condition.bound type value)
      (.test ⟨operand.write style, relation, [value]⟩) := by
  have hvalue := bindValue_input value type
  have hreads := reads_single hk relation (.input value type) (hvalue.symm ▸ ht) hclose
  rwa [hvalue] at hreads

/-- A range with both bounds: two comparisons, in the parentheses that keep them together. -/
theorem reads_between (hk : R.Knows style operand) (lower upper : Value) :
    R.Reads style .primary ((Condition.range (some lower) (some upper)).sql operand type)
      (.and (.test ⟨operand.write style, .atLeast, [lower]⟩)
        (.test ⟨operand.write style, .atMost, [upper]⟩)) := by
  have hsql : (Condition.range (some lower) (some upper)).sql operand type =
      .text "(" :: ((operand ++ .text " >= " :: Condition.bound type lower) ++ .text " AND " ::
        (operand ++ .text " <= " :: Condition.bound type upper)) ++ [.text ")"] := by
    simp [Condition.sql]
  have hlow : R.Reads style .primary (operand ++ .text " >= " :: Condition.bound type lower) _ :=
    reads_bound hk .atLeast ⟨lower, rfl⟩ rfl
  have hhigh : R.Reads style .primary (operand ++ .text " <= " :: Condition.bound type upper) _ :=
    reads_bound hk .atMost ⟨upper, rfl⟩ rfl
  rw [hsql]
  intro n hb
  rw [Sql.bindings_wrapped, Sql.bindings_between] at hb
  rw [Sql.charsFrom_wrapped, Sql.charsFrom_between]
  exact .parentheses (.lone (.and (hlow n hb.left) (.single (hhigh _ hb.right))))

/-- A list of values, one placeholder for each. -/
theorem reads_oneOf (hk : R.Knows style operand) {items : List Value} (hne : items ≠ []) :
    R.Reads style .primary ((Condition.oneOf items).sql operand type)
      (.test ⟨operand.write style, .oneOf, items⟩) := by
  have hitems : items.map (Condition.bound type) =
      (items.map fun value => Binding.input value type).map fun x => [.bind x] := by
    rw [List.map_map]
    rfl
  have hvalues : (items.map fun value => Binding.input value type).map Binding.bindValue =
      items := by
    rw [List.map_map]
    exact (List.map_congr_left fun value _ => bindValue_input value type).trans
      (List.map_id items)
  have hsql : (Condition.oneOf items).sql operand type =
      (operand ++ .text " IN (" :: Sql.list (items.map (Condition.bound type))) ++
        [.text ")"] := rfl
  rw [hsql, hitems]
  intro n hb
  rw [Sql.bindings_append, Sql.bindings_between, hk.unbound, Sql.bindings_list,
    List.nil_append] at hb
  have htest := derives_test hk .oneOf (hvalues.symm ▸ hne) hb.left
  rw [hvalues] at htest
  rw [Sql.charsFrom_append]
  show Derives R .primary (_ ++ (")".toList ++ [])) _
  rw [List.append_nil]
  exact htest

/-- **A condition is read as what it means, wherever it stands.** -/
theorem Condition.reads_sql (hk : R.Knows style operand) {c : Condition} (hs : c.Sound) :
    R.Reads style .primary (c.sql operand type) (c.meaning (operand.write style)) := by
  induction c with
  | isNull => exact reads_null hk .isNull rfl rfl
  | isNotNull => exact reads_null hk .isNotNull rfl rfl
  | not inner ih =>
    intro n hb
    rw [sql, Sql.bindings_wrapped] at hb
    rw [sql, Sql.charsFrom_wrapped]
    exact .negation (.lone (.single (ih hs n hb)))
  | range lower upper =>
    cases lower with
    | none =>
      cases upper with
      | none => exact absurd hs (by simp [Sound])
      | some u => exact reads_bound hk .atMost ⟨u, rfl⟩ rfl
    | some l =>
      cases upper with
      | none => exact reads_bound hk .atLeast ⟨l, rfl⟩ rfl
      | some u => exact reads_between hk l u
  | oneOf items => exact reads_oneOf hk hs
  | like text => exact reads_single hk .like (.search text) ⟨_, rfl⟩ rfl
  | equals value => exact reads_bound hk .equals ⟨value, rfl⟩ rfl

end Comparisons

/-! ## Joined conditions -/

namespace Combinator

/-- Formulas joined by the combinator, at least one. -/
def formula (c : Combinator) (φ : Formula) : List Formula → Formula
  | [] => φ
  | ψ :: rest =>
    match c with
    | .and => .and φ (c.formula ψ rest)
    | .or => .or φ (c.formula ψ rest)

/-- When formulas joined by the combinator hold: all of them, or one. -/
def Holds (c : Combinator) (truth : Test → Prop) (φs : List Formula) : Prop :=
  match c with
  | .and => ∀ φ ∈ φs, φ.Holds truth
  | .or => ∃ φ ∈ φs, φ.Holds truth

/-- The level of a text joined by the combinator. -/
def level : Combinator → Level
  | .and => .conjunction
  | .or => .disjunction

theorem holds_formula (c : Combinator) (truth : Test → Prop) (φ : Formula) (φs : List Formula) :
    (c.formula φ φs).Holds truth ↔ c.Holds truth (φ :: φs) := by
  induction φs generalizing φ with
  | nil =>
    cases c with
    | and => exact List.forall_mem_singleton.symm
    | or => simp [formula, Holds]
  | cons ψ rest ih =>
    cases c with
    | and => exact (and_congr_right fun _ => ih ψ).trans List.forall_mem_cons.symm
    | or => exact (or_congr_right (ih ψ)).trans (List.exists_mem_cons_iff _ _ _).symm

theorem tests_formula (c : Combinator) (φ : Formula) (φs : List Formula) :
    (c.formula φ φs).tests = (φ :: φs).flatMap Formula.tests := by
  induction φs generalizing φ with
  | nil => exact (List.append_nil _).symm
  | cons ψ rest ih =>
    cases c with
    | and => exact congrArg (φ.tests ++ ·) (ih ψ)
    | or => exact congrArg (φ.tests ++ ·) (ih ψ)

variable {R : Reading} {style : Style}

/-- Joined parts are read as their formulas, joined in the same way. -/
theorem reads_join (c : Combinator) {part : Sql} {parts : List Sql} {φ : Formula}
    {φs : List Formula}
    (h : List.Forall₂ (R.Reads style .primary) (part :: parts) (φ :: φs)) :
    R.Reads style c.level (c.join (part :: parts)) (c.formula φ φs) := by
  induction parts generalizing part φ φs with
  | nil =>
    obtain ⟨hpart, hrest⟩ := List.forall₂_cons.1 h
    cases hrest
    intro n hb
    cases c with
    | and => exact .single (hpart n hb)
    | or => exact .lone (.single (hpart n hb))
  | cons next rest ih =>
    obtain ⟨hpart, hrest⟩ := List.forall₂_cons.1 h
    cases φs with
    | nil => cases hrest
    | cons ψ φs =>
      have hjoin : c.join (part :: next :: rest) =
          part ++ .text (" " ++ c.keyword ++ " ") :: c.join (next :: rest) := rfl
      intro n hb
      rw [hjoin, Sql.bindings_between] at hb
      rw [hjoin, Sql.charsFrom_between]
      -- the others are numbered on from the first part
      have hfirst := hpart n hb.left
      have hothers := ih hrest _ hb.right
      cases c with
      | and => exact .and hfirst hothers
      | or => exact .or (.single hfirst) hothers

/-- Whatever the combinator, the joined parts are a disjunction. -/
theorem reads_disjunction (c : Combinator) {sql : Sql} {φ : Formula}
    (h : R.Reads style c.level sql φ) : R.Reads style .disjunction sql φ := by
  cases c with
  | and => exact fun n hb => .lone (h n hb)
  | or => exact h

end Combinator

/-- Two groups, each in its parentheses. -/
theorem Reading.Reads.both {R : Reading} {style : Style} {x y : Sql} {φ ψ : Formula}
    (hx : R.Reads style .disjunction x φ) (hy : R.Reads style .disjunction y ψ) :
    R.Reads style .disjunction (.text "(" :: x ++ .text ") AND (" :: y ++ [.text ")"])
      (.and φ ψ) := by
  have hsql : (.text "(" :: x ++ .text ") AND (" :: y ++ [.text ")"] : Sql) =
      .text "(" :: (x ++ .text ") AND (" :: y) ++ [.text ")"] := rfl
  intro n hb
  rw [hsql, Sql.bindings_wrapped, Sql.bindings_between] at hb
  rw [hsql, Sql.charsFrom_wrapped, Sql.charsFrom_between]
  -- the wording in the middle closes one group and opens the other
  have hmiddle : ") AND (".toList = ")".toList ++ (" AND ".toList ++ "(".toList) := by decide
  have hgroups := Derives.and (.parentheses (hx n hb.left))
    (.single (.parentheses (hy _ hb.right)))
  rw [hmiddle]
  simp only [List.append_assoc] at hgroups ⊢
  exact .lone hgroups

end RecordSql
