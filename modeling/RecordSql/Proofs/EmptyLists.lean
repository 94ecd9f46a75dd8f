import RecordSql.Proofs.FilledTexts

/-!
# Conditions without values

A condition asks for something when its ranges have a bound and its lists an item. Giving a
predicate its type refuses a range without bounds at every depth, so the text that stands for one,
`1 = 1`, is never written. Lists are not looked at: a list without items becomes a condition without
values, and is written as `IN ()`, which no database reads. Texts and property values give no such
list, so it can only come from a predicate that was put together by hand.

Both are said of the finished text. `1 = 1` is excluded part by part, since an equals sign is always
written in front of a placeholder. `IN ()` is excluded by way of the grammar: a clause whose lists
have items is read as a formula, and no text of the grammar has an empty pair of parentheses.
-/

namespace RecordSql

open Text Checked

variable {b : Builder} {e : Entity}

/-! ## Typing -/

/-- A condition in which every range has a bound. -/
def Condition.Bounded : Condition → Prop
  | .not inner => inner.Bounded
  | .range lower upper => lower.isSome ∨ upper.isSome
  | _ => True

namespace Predicate

variable {type : DataType} {p : Predicate} {c : Condition}

/-- Typing refuses a range without bounds at every depth. -/
theorem bounded_coerce (h : p.coerce type = .ok c) : c.Bounded := by
  replace h := types_of_coerce h
  induction h with
  | not _ ih => exact ih
  | atLeast _ | between _ _ => exact .inl rfl
  | atMost _ => exact .inr rfl
  | isNull | isNotNull | list _ | like | equals _ => trivial

/-- A predicate that lists nothing at some depth is negations of an empty list. It has no value to
type, so it fits every type, and its condition lists nothing either. -/
theorem exists_coerce_of_not_sound (hp : ¬ p.Sound) (type : DataType) :
    ∃ c, p.coerce type = .ok c ∧ c.Bounded ∧ ¬ c.Sound := by
  induction p with
  | not inner ih =>
    obtain ⟨c, hc, hb, hs⟩ := ih hp
    exact ⟨.not c, map_eq_ok.2 ⟨c, hc, rfl⟩, hb, hs⟩
  | list items =>
    obtain rfl : items = [] := not_not.1 hp
    exact ⟨.oneOf [], rfl, trivial, fun hs => hs rfl⟩
  | isNull => exact absurd trivial hp
  | isNotNull => exact absurd trivial hp
  | range lower upper => exact absurd trivial hp
  | like text => exact absurd trivial hp
  | equals text => exact absurd trivial hp

theorem sound_coerce_iff (h : p.coerce type = .ok c) : c.Sound ↔ p.Sound := by
  refine ⟨fun hc => ?_, fun hp => hp.coerce h⟩
  by_contra hp
  obtain ⟨d, hd, -, hs⟩ := exists_coerce_of_not_sound hp type
  rw [Except.ok.inj (hd.symm.trans h)] at hs
  exact hs hc

end Predicate

/-! ## Texts of conditions -/

/-- A part in which, wherever it stands, an equals sign has no number behind it. -/
def Sql.Compares (style : Style) (sql : Sql) : Prop :=
  ∀ n, Avoids '=' " 1".toList (Sql.charsFrom style n sql)

/-- A part that has an empty list, wherever it stands. -/
def Sql.ListsNothing (style : Style) (sql : Sql) : Prop :=
  ∀ n, "IN ()".toList <:+: Sql.charsFrom style n sql

theorem Sql.Compares.not_occurs {sql : Sql} {style : Style} (h : sql.Compares style) (n : Nat) :
    ¬ "1 = 1".toList <:+: Sql.charsFrom style n sql := by
  intro hi
  have hsign : "= 1".toList <:+: "1 = 1".toList := ⟨"1 ".toList, [], rfl⟩
  exact (h n).not_occurs (hsign.trans hi)

theorem not_emptyList_of_filled {cs : List Char} (h : Filled cs) : ¬ "IN ()".toList <:+: cs := by
  intro hi
  have hpair : "()".toList <:+: "IN ()".toList := ⟨"IN ".toList, [], rfl⟩
  exact h.not_occurs (hpair.trans hi)

section Conditions

variable {style : Style} {operand x y : Sql} {type : DataType}

theorem Sql.Compares.append (hx : x.Compares style) (hy : y.Compares style) :
    (x ++ y).Compares style := by
  intro n
  rw [charsFrom_append]
  exact (hx n).append (hy _)

theorem Sql.compares_text {s : String} (h : Avoids '=' " 1".toList s.toList) :
    Sql.Compares style [.text s] := by
  intro n
  show Avoids _ _ (s.toList ++ [])
  rwa [List.append_nil]

/-- What is compared is a placeholder. -/
theorem Sql.compares_bound {s : String} (hs : '=' ∉ s.toList) (value : Value) :
    Sql.Compares style (.text (s ++ "= ") :: Condition.bound type value) := by
  intro n
  have hmark : '1' ≠ style.dialect.mark := by
    cases style.dialect <;> decide
  have hrest := IsSign.not_mem_placeholder (.inr rfl) style.dialect n
  have hplaceholder := style.dialect.toList_placeholder n
  rw [hplaceholder] at hrest
  show Avoids _ _
    ((s ++ "= ").toList ++ ((style.dialect.placeholder (parameterName n)).toList ++ []))
  rw [String.toList_append, List.append_nil, List.append_assoc, hplaceholder]
  refine (avoids_of_not_mem hs).append ⟨fun _ => ⟨by simp, ?_⟩, ?_⟩
  · intro hp
    have hsecond := (List.cons_prefix_cons.1 hp).2
    exact hmark (List.cons_prefix_cons.1 hsecond).1
  · exact (avoids_of_not_mem (by decide : '=' ∉ [' '])).append (avoids_of_not_mem hrest)

theorem Sql.compares_bind (x : Binding) : Sql.Compares style [.bind x] := by
  intro n
  show Avoids _ _ ((style.dialect.placeholder (parameterName n)).toList ++ [])
  rw [List.append_nil]
  exact avoids_of_not_mem (IsSign.not_mem_placeholder (.inr rfl) _ n)

theorem Sql.Compares.between (hx : x.Compares style) {s : String}
    (hs : Avoids '=' " 1".toList s.toList) (hy : y.Compares style) :
    Sql.Compares style (x ++ .text s :: y) :=
  hx.append ((compares_text hs).append hy)

theorem Sql.Compares.wrapped (hx : x.Compares style) {s t : String}
    (hs : Avoids '=' " 1".toList s.toList) (ht : Avoids '=' " 1".toList t.toList) :
    Sql.Compares style (.text s :: x ++ [.text t]) :=
  ((compares_text hs).append hx).append (compares_text ht)

theorem Sql.compares_joined {separator : String} {parts : List Sql}
    (hs : Avoids '=' " 1".toList separator.toList) (h : ∀ part ∈ parts, part.Compares style) :
    (Sql.joined separator parts).Compares style := by
  induction parts with
  | nil => exact fun _ => trivial
  | cons part rest ih =>
    obtain ⟨hpart, hrest⟩ := List.forall_mem_cons.1 h
    cases rest with
    | nil => exact hpart
    | cons next rest =>
      rw [Sql.joined]
      · exact hpart.between hs (ih hrest)
      · simp

/-- A condition with bounds never reads `1 = 1`. -/
theorem Condition.compares_sql (ho : operand.Compares style) {c : Condition} (hc : c.Bounded) :
    (c.sql operand type).Compares style := by
  induction c with
  | isNull => exact ho.append (Sql.compares_text (by decide))
  | isNotNull => exact ho.append (Sql.compares_text (by decide))
  | not inner ih => exact Sql.Compares.wrapped (ih hc) (by decide) (by decide)
  | range lower upper =>
    have hlow : ∀ v, Sql.Compares style (operand ++ .text " >= " :: bound type v) := fun v =>
      ho.append (Sql.compares_bound (s := " >") (by decide) v)
    have hhigh : ∀ v, Sql.Compares style (operand ++ .text " <= " :: bound type v) := fun v =>
      ho.append (Sql.compares_bound (s := " <") (by decide) v)
    cases lower with
    | none =>
      cases upper with
      | none => exact absurd hc (by simp [Bounded])
      | some u => exact hhigh u
    | some l =>
      cases upper with
      | none => exact hlow l
      | some u =>
        have hboth := ((hlow l).between (s := " AND ") (by decide) (hhigh u)).wrapped
          (s := "(") (t := ")") (by decide) (by decide)
        simpa [Condition.sql] using hboth
  | oneOf items =>
    have hitems : ∀ part ∈ items.map (bound type), Sql.Compares style part := by
      intro part hpart
      obtain ⟨value, -, rfl⟩ := List.mem_map.1 hpart
      exact Sql.compares_bind _
    have hlist : (Sql.list (items.map (bound type))).Compares style :=
      Sql.compares_joined (by decide) hitems
    exact (ho.between (by decide) hlist).append (Sql.compares_text (by decide))
  | like text => exact ho.between (by decide) (Sql.compares_bind _)
  | equals value => exact ho.append (Sql.compares_bound (s := " ") (by decide) value)

theorem Sql.ListsNothing.append_left (h : x.ListsNothing style) (y : Sql) :
    (x ++ y).ListsNothing style := by
  intro n
  rw [charsFrom_append]
  exact (h n).trans (List.prefix_append _ _).isInfix

theorem Sql.ListsNothing.append_right (h : y.ListsNothing style) (x : Sql) :
    (x ++ y).ListsNothing style := by
  intro n
  rw [charsFrom_append]
  exact (h _).trans (List.suffix_append _ _).isInfix

theorem Sql.ListsNothing.wrapped (h : x.ListsNothing style) (s t : String) :
    Sql.ListsNothing style (.text s :: x ++ [.text t]) :=
  (h.append_right [.text s]).append_left [.text t]

/-- A condition that lists nothing at some depth reads `IN ()` there. -/
theorem Condition.listsNothing_sql {c : Condition} (hb : c.Bounded) (hs : ¬ c.Sound) :
    (c.sql operand type).ListsNothing style := by
  induction c with
  | not inner ih => exact Sql.ListsNothing.wrapped (ih hb hs) _ _
  | oneOf items =>
    obtain rfl : items = [] := not_not.1 hs
    intro n
    have hsql : (Condition.oneOf []).sql operand type =
        operand ++ .text " IN (" :: ([.text ")"] : Sql) := by
      simp [Condition.sql, Sql.list, Sql.joined]
    rw [hsql, Sql.charsFrom_between]
    exact ⟨Sql.charsFrom style n operand ++ [' '], [], by simp [Sql.charsFrom, Piece.write]⟩
  | isNull => exact absurd trivial hs
  | isNotNull => exact absurd trivial hs
  | range lower upper => exact absurd hb hs
  | like text => exact absurd trivial hs
  | equals value => exact absurd trivial hs

end Conditions

/-! ## Clauses -/

section Joined

variable {style : Style} {parts columns searches : List Sql} {clause : Sql}

theorem Sql.listsNothing_joined {separator : String} {part : Sql} (hp : part ∈ parts)
    (h : part.ListsNothing style) : (Sql.joined separator parts).ListsNothing style := by
  induction parts with
  | nil => exact absurd hp List.not_mem_nil
  | cons first rest ih =>
    cases rest with
    | nil =>
      obtain rfl := List.mem_singleton.1 hp
      exact h
    | cons next rest =>
      rw [Sql.joined]
      · rcases List.mem_cons.1 hp with rfl | hp
        · exact h.append_left _
        · exact ((ih hp).append_right [.text separator]).append_right first
      · simp

/-- The clause has all parts of the groups. -/
theorem Builder.combine_eq_some (h : combine columns searches = some clause) :
    (columns ≠ [] ∧ searches = [] ∧ clause = Combinator.and.join columns) ∨
      (columns = [] ∧ searches ≠ [] ∧ clause = Combinator.or.join searches) ∨
      (columns ≠ [] ∧ searches ≠ [] ∧ clause =
        .text "(" :: (Combinator.and.join columns ++ .text ") AND (" ::
          Combinator.or.join searches) ++ [.text ")"]) := by
  cases columns with
  | nil =>
    cases searches with
    | nil => exact absurd h (by simp [combine])
    | cons search searches =>
      exact .inr (.inl ⟨rfl, List.cons_ne_nil _ _, (Option.some.inj h).symm⟩)
  | cons column columns =>
    cases searches with
    | nil => exact .inl ⟨List.cons_ne_nil _ _, rfl, (Option.some.inj h).symm⟩
    | cons search searches =>
      refine .inr (.inr ⟨List.cons_ne_nil _ _, List.cons_ne_nil _ _, ?_⟩)
      rw [← Option.some.inj h]
      simp

theorem Combinator.compares_join (c : Combinator) (h : ∀ part ∈ parts, part.Compares style) :
    (c.join parts).Compares style := by
  refine Sql.compares_joined ?_ h
  cases c <;> decide

theorem Builder.compares_combine (h : combine columns searches = some clause)
    (hc : ∀ part ∈ columns, part.Compares style) (hs : ∀ part ∈ searches, part.Compares style) :
    clause.Compares style := by
  have hcolumns := Combinator.and.compares_join hc
  have hsearches := Combinator.or.compares_join hs
  rcases combine_eq_some h with ⟨-, -, rfl⟩ | ⟨-, -, rfl⟩ | ⟨-, -, rfl⟩
  · exact hcolumns
  · exact hsearches
  · exact (hcolumns.between (by decide) hsearches).wrapped (by decide) (by decide)

theorem Builder.listsNothing_combine (h : combine columns searches = some clause) {part : Sql}
    (hp : part ∈ columns ∨ part ∈ searches) (hn : part.ListsNothing style) :
    clause.ListsNothing style := by
  have hjoin : ∀ {parts} (c : Combinator), part ∈ parts → (c.join parts).ListsNothing style :=
    fun c hm => Sql.listsNothing_joined hm hn
  rcases combine_eq_some h with ⟨-, hnil, rfl⟩ | ⟨hnil, -, rfl⟩ | ⟨-, -, rfl⟩
  · rw [hnil] at hp
    exact hjoin .and (hp.resolve_right List.not_mem_nil)
  · rw [hnil] at hp
    exact hjoin .or (hp.resolve_left List.not_mem_nil)
  · refine Sql.ListsNothing.wrapped ?_ _ _
    rcases hp with hp | hp
    · exact (hjoin .and hp).append_left _
    · exact ((hjoin .or hp).append_right [.text ") AND ("]).append_right _

end Joined

namespace Builder

variable {target : Target} {search : Predicate} {condition : Condition} {operand : Sql}

theorem compares_condition (hc : e.check = .ok ()) (hr : e.Reaches target)
    (hs : search.coerce target.dataType = .ok condition) (ho : b.operand target = .ok operand) :
    (condition.sql operand target.dataType).Compares b.style := by
  refine Condition.compares_sql (fun n => ?_) (Predicate.bounded_coerce hs)
  rw [Sql.charsFrom_of_bindings_nil (bindings_operand ho)]
  exact avoids_of_not_mem (filled_operand b.style (hr.declares.check hc) ho).2

theorem listsNothing_condition (hs : search.coerce target.dataType = .ok condition)
    (hp : ¬ search.Sound) :
    (condition.sql operand target.dataType).ListsNothing b.style :=
  Condition.listsNothing_sql (Predicate.bounded_coerce hs)
    (fun hsound => hp ((Predicate.sound_coerce_iff hs).1 hsound))

/-- The text of a clause that means something. -/
theorem filled_of_means (hc : e.check = .ok ()) {clause : Sql} {φ : Formula}
    (h : b.Means e clause φ) (n : Nat) : Filled (Sql.charsFrom b.style n clause) := by
  -- some statement has the clause behind so many values
  have hplace := (h.read (List.replicate n (.bind (.search ""))) []).filled fun text hop => by
    obtain ⟨target, operand, hr, ho, rfl⟩ := hop
    exact (filled_operand b.style (hr.declares.check hc) ho).1
  have hcount : ∀ n, Sql.bindings (List.replicate n (.bind (.search ""))) =
      List.replicate n (.search "") := by
    intro n
    exact (List.filterMap_replicate_of_some rfl)
  rwa [hcount, List.length_replicate] at hplace

variable {l : Listing} {clause : Sql}

theorem filterClause_compares (hc : e.check = .ok ())
    (h : b.filterClause e l = .ok (some clause)) : clause.Compares b.style := by
  obtain ⟨columns, searches, hcolumns, hsearches, hclause⟩ := filterClause_eq_ok.1 h
  refine compares_combine hclause ?_ ?_
  · intro part hp
    obtain ⟨c, -, hpart⟩ := exists_of_mem_mapM hcolumns hp
    obtain ⟨target, condition, operand, ht, hs, ho, rfl⟩ := columnCondition_eq_ok.1 hpart
    exact compares_condition hc (Entity.reaches_of_resolve? ht) hs ho
  · intro part hp
    obtain ⟨search, -, name, -, target, ht, condition, hs, operand, ho, rfl⟩ :=
      exists_of_mem_searchConditions hsearches hp
    exact compares_condition hc (Entity.reaches_of_resolve? ht) hs ho

/-- A list without items is written, whatever else the clause has. -/
theorem filterClause_listsNothing (h : b.filterClause e l = .ok (some clause)) (hl : ¬ l.Sound) :
    clause.ListsNothing b.style := by
  obtain ⟨columns, searches, hcolumns, hsearches, hclause⟩ := filterClause_eq_ok.1 h
  by_cases hown : ∀ c ∈ searchedColumns l, c.2.Sound
  · have hsearch : ∃ search, l.search = some search ∧ searchableColumns l ≠ [] ∧
        ¬ search.Sound := by
      by_contra hnone
      refine hl ⟨hown, fun search hs hne => ?_⟩
      by_contra hp
      exact hnone ⟨search, hs, hne, hp⟩
    obtain ⟨search, hs, hne, hp⟩ := hsearch
    obtain ⟨name, hname⟩ := List.exists_mem_of_ne_nil _ hne
    obtain ⟨target, -, hkept⟩ := mem_searchConditions hsearches hs hname
    obtain ⟨condition, hcoerce, -⟩ := Predicate.exists_coerce_of_not_sound hp target.dataType
    obtain ⟨operand, -, hmem⟩ := hkept condition hcoerce
    exact listsNothing_combine hclause (.inr hmem) (listsNothing_condition hcoerce hp)
  · simp only [not_forall] at hown
    obtain ⟨c, hcm, hp⟩ := hown
    obtain ⟨part, hpm, hpart⟩ := exists_of_mapM_mem hcolumns hcm
    obtain ⟨target, condition, operand, -, hs, -, rfl⟩ := columnCondition_eq_ok.1 hpart
    exact listsNothing_combine hclause (.inl hpm) (listsNothing_condition hs hp)

theorem filterClause_filled (hc : e.check = .ok ()) (h : b.filterClause e l = .ok (some clause))
    (hl : l.Sound) (n : Nat) : Filled (Sql.charsFrom b.style n clause) := by
  obtain ⟨columns, searches, hcolumns, hsearches, hclause⟩ := filterClause_eq_ok.1 h
  have hsays := says_combine (columnConditions_answer_of_sound hl hcolumns)
    (searchConditions_answer_of_sound hl hsearches)
  obtain ⟨φ, hmeans, -⟩ := hsays.present clause hclause
  exact filled_of_means hc hmeans n

variable {combinator : Combinator}

theorem exampleClause_compares (hc : e.check = .ok ())
    (h : b.exampleClause e combinator = .ok (some clause)) : clause.Compares b.style := by
  obtain ⟨conditions, hconditions, hclause⟩ := exampleClause_eq_ok.1 h
  split at hclause
  · exact absurd hclause (by simp)
  obtain rfl := Option.some.inj hclause
  refine combinator.compares_join fun part hp => ?_
  obtain ⟨f, hf, hpart⟩ := exists_of_mem_filterMap_id hconditions hp
  rcases exampleCondition_eq_ok.1 hpart with ⟨-, hnone⟩ | ⟨_, condition, operand, -, hs, ho, hsome⟩
  · exact absurd hnone (by simp)
  · obtain rfl := Option.some.inj hsome
    exact compares_condition hc (.field hf : e.Reaches (.field f)) hs ho

theorem exampleClause_filled (hc : e.check = .ok ())
    (h : b.exampleClause e combinator = .ok (some clause)) (n : Nat) :
    Filled (Sql.charsFrom b.style n clause) := by
  obtain ⟨conditions, hconditions, hclause⟩ := exampleClause_eq_ok.1 h
  have hsays := says_group combinator (exampleConditions_answer hconditions)
  obtain ⟨φ, hmeans, -⟩ := hsays.present clause hclause
  exact filled_of_means hc hmeans n

/--
**Conditions ask for something, empty lists apart.**

A typed condition has a bound in each of its ranges, and an item in each of its lists just when its
predicate has; a predicate that lists nothing fits every type. So the text of a clause never has
`1 = 1` in it, and has `IN ()` just when a predicate that the clause is made of lists nothing. The
predicates of texts and of property values always have items.
-/
theorem conditions_ask (b : Builder) :
    (∀ (p : Predicate) type c, p.coerce type = .ok c → c.Bounded ∧ (c.Sound ↔ p.Sound)) ∧
    (∀ p : Predicate, ¬ p.Sound → ∀ type, ∃ c, p.coerce type = .ok c) ∧
    (∀ text p, Predicate.parse text = .ok (some p) → p.Sound) ∧
    (∀ value p, Predicate.ofProperty value = .ok (some p) → p.Sound) ∧
    ∀ e : Entity, e.check = .ok () →
      (∀ l clause, b.filterClause e l = .ok (some clause) → ∀ n,
        ¬ "1 = 1".toList <:+: Sql.charsFrom b.style n clause ∧
        ("IN ()".toList <:+: Sql.charsFrom b.style n clause ↔ ¬ l.Sound)) ∧
      ∀ combinator clause, b.exampleClause e combinator = .ok (some clause) → ∀ n,
        ¬ "1 = 1".toList <:+: Sql.charsFrom b.style n clause ∧
        ¬ "IN ()".toList <:+: Sql.charsFrom b.style n clause := by
  refine ⟨fun p type c h => ⟨Predicate.bounded_coerce h, Predicate.sound_coerce_iff h⟩, ?_,
    fun _ _ h => Predicate.sound_parse h, fun _ _ h => Predicate.sound_ofProperty h, ?_⟩
  · intro p hp type
    obtain ⟨c, hc, -⟩ := Predicate.exists_coerce_of_not_sound hp type
    exact ⟨c, hc⟩
  · intro e hc
    refine ⟨fun l clause h n => ⟨(filterClause_compares hc h).not_occurs n, ?_⟩,
      fun combinator clause h n => ⟨(exampleClause_compares hc h).not_occurs n,
        not_emptyList_of_filled (exampleClause_filled hc h n)⟩⟩
    constructor
    · intro hi hl
      exact not_emptyList_of_filled (filterClause_filled hc h hl n) hi
    · exact fun hl => filterClause_listsNothing h hl n

/-- Cards up to a name, whose number is in no list. -/
def unlistedIds : Listing :=
  { Listing.empty with
    columns := [⟨"Id", false, some (.not (.list []))⟩,
      ⟨"Name", false, some (.range none (some "Bob"))⟩] }

theorem conditions_ask_unlistedIds :
    (∃ c, (Predicate.not (.list [])).coerce .integer = .ok c ∧ c.Bounded ∧ ¬ c.Sound) ∧
    (∃ p, Predicate.parse "NOT_LIST_ 7,," = .ok (some p) ∧ p.Sound) ∧
    (∃ p, Predicate.ofProperty (.array [.null, .string ""]) = .ok (some p) ∧ p.Sound) ∧
    annsCard.check = .ok () ∧
    (∃ clause, Builder.default.filterClause annsCard unlistedIds = .ok (some clause) ∧
      ¬ "1 = 1".toList <:+: Sql.charsFrom Builder.default.style 0 clause ∧
      "IN ()".toList <:+: Sql.charsFrom Builder.default.style 0 clause) ∧
    ∃ clause, Builder.default.exampleClause annsCard .or = .ok (some clause) ∧
      ¬ "IN ()".toList <:+: Sql.charsFrom Builder.default.style 0 clause := by
  obtain ⟨hcoerce, hfits, hparse, hproperty, hclauses⟩ := conditions_ask .default
  have hlist : ¬ Predicate.Sound (.not (.list [])) := fun h => h rfl
  have hcheck : annsCard.check = .ok () := rfl
  have hlisting : ¬ unlistedIds.Sound := by
    intro h
    exact hlist (h.columns ("Id", .not (.list [])) List.mem_cons_self)
  obtain ⟨c, hc⟩ := hfits _ hlist .integer
  obtain ⟨hbounded, hsound⟩ := hcoerce _ _ c hc
  have hfilter := (hclauses annsCard hcheck).1 unlistedIds _ rfl 0
  have hexample := (hclauses annsCard hcheck).2 .or _ rfl 0
  exact ⟨⟨c, hc, hbounded, mt hsound.1 hlist⟩, ⟨_, rfl, hparse "NOT_LIST_ 7,," _ rfl⟩,
    ⟨_, rfl, hproperty (.array [.null, .string ""]) _ rfl⟩, hcheck,
    ⟨_, rfl, hfilter.1, hfilter.2.2 hlisting⟩, _, rfl, hexample.2⟩

/-- **A list without items is let through**, and the select that is written for it has nothing to
compare the column with. -/
theorem empty_list_selected :
    (Predicate.list []).coerce .integer = .ok (.oneOf []) ∧ ¬ Condition.Sound (.oneOf []) ∧
    ∃ s, Builder.default.run (.select annsCard (some unlistedIds)) = .ok s ∧
      s.text = "SELECT t0.Id, t0.Name FROM Card t0 WHERE NOT (t0.Id IN ()) AND t0.Name <= @p0" :=
  ⟨rfl, fun h => h rfl, _, rfl, by decide +kernel⟩

end Builder

end RecordSql
