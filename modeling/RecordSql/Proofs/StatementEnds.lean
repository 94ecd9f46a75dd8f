import RecordSql.Proofs.KeyCalls

/-!
# Where statements end

Semicolons are shed from the end of a statement piece by piece. The text would shed the same if none
but wording could end in a semicolon. Names could, as nothing checks the alias of a function, but no
statement ends with a name that stands by itself: it **rests** on wording, a parameter, a variable
or a column.
-/

namespace RecordSql

open Text Checked

variable {b : Builder} {e : Entity} {r : Request} {a c sql : Sql} {s : String}

/-- Whether SQL may end with a piece: it is no label, and nothing that an expression starts with. -/
def Piece.rests : Piece → Bool
  | .name _ => false
  | .keyed _ => false
  | _ => true

namespace Sql

/-- Apart from the semicolons that it sheds, SQL ends with such a piece. -/
def Rests (sql : Sql) : Prop := ∀ p ∈ sql.withoutSemicolons.getLast?, p.rests = true

theorem rests_nil : Rests [] := fun _ hp => absurd hp (by simp [withoutSemicolons, dropLeading])

theorem rests_piece {p : Piece} (hp : p.rests = true) : Rests [p] := by
  intro q hq
  by_cases ht : ∃ s, p = .text s
  · obtain ⟨s, rfl⟩ := ht
    have htext := withoutSemicolons_text [] s
    rw [List.nil_append] at htext
    rw [htext] at hq
    split at hq
    · exact rests_nil q hq
    · rw [← Option.some.inj hq]
      rfl
  · have hone := withoutSemicolons_of_ne_text [] fun s he => ht ⟨s, he⟩
    rw [List.nil_append] at hone
    rw [hone] at hq
    rwa [← Option.some.inj hq]

namespace Rests

theorem append (ha : Rests a) (hc : Rests c) : Rests (a ++ c) := by
  intro p hp
  rw [withoutSemicolons_append] at hp
  split at hp
  · exact ha p hp
  · next hne =>
    rw [List.getLast?_append_of_ne_nil _ hne] at hp
    exact hc p hp

theorem cons {p : Piece} (hp : p.rests = true) (h : Rests sql) : Rests (p :: sql) :=
  (rests_piece hp).append h

/-- Whatever stands in front of what stays does not end the SQL. -/
theorem after (hne : withoutSemicolons c ≠ []) (hc : Rests c) : Rests (a ++ c) := by
  intro p hp
  rw [withoutSemicolons_append, if_neg hne, List.getLast?_append_of_ne_nil _ hne] at hp
  exact hc p hp

theorem behind (hs : dropSemicolons s ≠ "") (hc : Rests c) : Rests (a ++ .text s :: c) := by
  refine .after ?_ (hc.cons rfl)
  have hsplit : Piece.text s :: c = [] ++ [.text s] ++ c := rfl
  rw [hsplit, withoutSemicolons_append]
  split
  · rw [withoutSemicolons_text, if_neg hs]
    simp
  · simp

theorem wrapped (hs : dropSemicolons s ≠ "") : Rests (a ++ [.text s]) := behind hs rests_nil

theorem joined {separator : String} {parts : List Sql} (h : ∀ part ∈ parts, Rests part) :
    Rests (Sql.joined separator parts) :=
  joined_induction rests_nil (fun _ _ ha hc => ha.append (hc.cons rfl)) h

theorem flatten {parts : List Sql} (h : ∀ part ∈ parts, Rests part) : Rests parts.flatten := by
  induction parts with
  | nil => exact rests_nil
  | cons part rest ih =>
    obtain ⟨hpart, hrest⟩ := List.forall_mem_cons.1 h
    rw [List.flatten_cons]
    exact hpart.append (ih hrest)

end Rests

end Sql

open Sql

/-! ## Clauses -/

theorem Target.rests_column (target : Target) : (a ++ target.column).Rests := by
  cases target with
  | field f => exact .after (List.cons_ne_nil _ _) (rests_piece rfl)
  | joined index column => exact .after (List.cons_ne_nil _ _) (rests_piece rfl)

theorem Condition.rests_sql (operand : Sql) (type : DataType) (condition : Condition) :
    (condition.sql operand type).Rests := by
  have hbound : ∀ s value, dropSemicolons s ≠ "" →
      Rests (operand ++ .text s :: bound type value) := fun s value hs =>
    .behind hs (rests_piece rfl)
  cases condition with
  | range lower upper =>
    cases lower with
    | none =>
      cases upper with
      | none => exact rests_piece rfl
      | some upper => exact hbound _ _ (by decide)
    | some lower =>
      cases upper with
      | none => exact hbound _ _ (by decide)
      | some upper => exact .wrapped (by decide)
  | like text => exact .behind (by decide) (rests_piece rfl)
  | equals value => exact hbound _ _ (by decide)
  | oneOf items => exact .wrapped (by decide)
  | _ => exact .wrapped (by decide)

theorem rests_fromClause (h : fromClause e = .ok sql) : sql.Rests := by
  obtain ⟨joins, hjoins, rfl⟩ := fromClause_eq_ok.1 h
  refine .behind (by decide) (.flatten fun join hm => ?_)
  obtain ⟨t, _, ht⟩ := exists_of_mem_mapM hjoins hm
  obtain ⟨target, _, rfl⟩ := joinClause_eq_ok.1 ht
  exact target.rests_column

namespace Builder

theorem rests_operand {target : Target} (h : b.operand target = .ok sql) : sql.Rests := by
  cases target with
  | field f =>
    rcases readField_eq_ok.1 h with ⟨_, rfl⟩ | ⟨_, _, _, rfl⟩
    · exact rests_piece rfl
    · exact .wrapped (a := [.keyed _, .column _ _]) (by decide)
  | joined index column =>
    obtain rfl := Except.ok.inj h
    exact rests_piece rfl

theorem rests_combine {columns searches : List Sql} {clause : Sql}
    (hc : ∀ condition ∈ columns, Sql.Rests condition)
    (hs : ∀ condition ∈ searches, Sql.Rests condition)
    (h : combine columns searches = some clause) : clause.Rests := by
  unfold combine at h
  split at h
  · exact absurd h (by simp)
  · obtain rfl := Option.some.inj h
    exact .joined hc
  · obtain rfl := Option.some.inj h
    exact .joined hs
  · obtain rfl := Option.some.inj h
    exact .wrapped (by decide)

theorem rests_filterClause {l : Listing} {filter : Option Sql}
    (h : b.filterClause e l = .ok filter) : ∀ clause ∈ filter, Sql.Rests clause := by
  rintro clause rfl
  obtain ⟨columns, searches, hc, hs, hcombine⟩ := filterClause_eq_ok.1 h
  refine rests_combine (fun condition hm => ?_) (fun condition hm => ?_) hcombine
  · obtain ⟨⟨name, search⟩, _, hone⟩ := exists_of_mem_mapM hc hm
    obtain ⟨target, condition, operand, _, _, _, rfl⟩ := columnCondition_eq_ok.1 hone
    exact condition.rests_sql operand _
  · obtain ⟨_, _, _, _, target, _, condition, _, operand, _, rfl⟩ :=
      exists_of_mem_searchConditions hs hm
    exact condition.rests_sql operand _

theorem rests_filterClause? {l : Option Listing} {filter : Option Sql}
    (h : b.filterClause? e l = .ok filter) : ∀ clause ∈ filter, Sql.Rests clause := by
  cases l with
  | none =>
    obtain rfl := Except.ok.inj h
    exact fun _ hm => absurd hm (by simp)
  | some l => exact rests_filterClause h

theorem rests_exampleClause {combinator : Combinator} {filter : Option Sql}
    (h : b.exampleClause e combinator = .ok filter) : ∀ clause ∈ filter, Sql.Rests clause := by
  rintro clause rfl
  obtain ⟨conditions, hconditions, hclause⟩ := exampleClause_eq_ok.1 h
  split at hclause
  · exact absurd hclause (by simp)
  · obtain rfl := Option.some.inj hclause
    refine .joined fun condition hm => ?_
    obtain ⟨f, _, hone⟩ := exists_of_mem_filterMap_id hconditions hm
    rcases exampleCondition_eq_ok.1 hone with ⟨_, hnone⟩ | ⟨_, condition, operand, _, _, _, hsome⟩
    · exact absurd hnone (by simp)
    · obtain rfl := Option.some.inj hsome
      exact condition.rests_sql operand _

theorem rests_keyCondition {replacement : Option String}
    (h : keyCondition e replacement = .ok sql) : sql.Rests := by
  obtain ⟨key, _, ⟨name, _, rfl⟩ | ⟨_, _, _, value, _, rfl⟩⟩ := keyCondition_eq_ok.1 h
  · exact .cons rfl (.cons rfl (rests_piece rfl))
  · exact .cons rfl (.cons rfl (rests_piece rfl))

/-! ## Statements -/

theorem rests_whereSuffix {filter : Option Sql} (h : ∀ clause ∈ filter, Sql.Rests clause) :
    (Sql.whereSuffix filter).Rests := by
  cases filter with
  | none => exact rests_nil
  | some clause => exact (h clause rfl).cons rfl

theorem rests_plainSelect {select : PagedSelect} (hs : select.source.Rests)
    (hf : ∀ clause ∈ select.filter, Sql.Rests clause) (ho : select.orderBy.Rests) :
    (plainSelect select).Rests := by
  have horder :
      Rests (if select.orderBy.isEmpty then [] else .text " ORDER BY " :: select.orderBy) := by
    split
    · exact rests_nil
    · exact ho.cons rfl
  exact ((Rests.behind (s := " ") (by decide) hs).append (rests_whereSuffix hf)).append horder

theorem rests_sortTerms? {l : Option Listing} {terms : List Sql}
    (h : b.sortTerms? e l = .ok terms) : (Sql.list terms).Rests := by
  refine .joined fun term hm => ?_
  obtain ⟨column, direction, hterm⟩ := exists_of_mem_sortTerms? h hm
  obtain ⟨target, _, operand, _, rfl⟩ := sortTerm_eq_ok.1 hterm
  exact .wrapped (by cases direction <;> decide)

theorem rests_aggregateBody {a : Aggregation} {source : AggregateSource}
    (h : b.aggregateBody e a source = .ok sql) : sql.Rests := by
  obtain ⟨_, groups, hg, rollup, hr, calls, hc, filter, hf, having, hh, rows, hrows, rfl⟩ :=
    aggregateBody_eq_ok.1 h
  have hwhere : (Sql.whereSuffix filter).Rests := by
    cases source with
    | «example» combinator => exact rests_whereSuffix (rests_exampleClause hf)
    | listing l => exact rests_whereSuffix (rests_filterClause hf)
  have hgroup : (groupSuffix a.rollup.isSome (groups.map Prod.fst)).Rests := by
    have hterms : (Sql.list (groups.map Prod.fst)).Rests := by
      refine .joined (List.forall_mem_map.2 fun term hm => ?_)
      obtain ⟨name, _, hterm⟩ := exists_of_mem_mapM hg hm
      obtain ⟨target, _, operand, ho, rfl⟩ := groupTerm_eq_ok.1 hterm
      exact rests_operand ho
    unfold groupSuffix
    split
    · exact rests_nil
    · split
      · exact .wrapped (by decide)
      · exact hterms.cons rfl
  have hhaving : (havingSuffix (having.filterMap id)).Rests := by
    unfold havingSuffix
    split
    · exact rests_nil
    · refine Rests.cons rfl (.joined fun condition hm => ?_)
      obtain ⟨call, _, hcondition⟩ := exists_of_mem_filterMap_id hh hm
      rcases havingCondition_eq_ok.1 hcondition with ⟨_, hnone⟩ | ⟨_, _, _, _, _, _, _, hsome⟩
      · exact absurd hnone (by simp)
      · obtain rfl := Option.some.inj hsome
        exact .after (List.cons_ne_nil _ _) (.cons rfl (rests_piece rfl))
  refine Rests.append (Rests.append (Rests.append ?_ hwhere) hgroup) hhaving
  exact Rests.behind (s := " ") (by decide) (rests_fromClause hrows)

theorem rests_insert {parts : InsertParts} {key : KeyReturn} :
    (Dialect.sqlServer.insert parts key).Rests := by
  have hvalues : (Dialect.insertValues parts).Rests := .wrapped (by decide)
  have hne : (Dialect.insertValues parts).withoutSemicolons ≠ [] := by
    rw [Dialect.insertValues, withoutSemicolons_text, if_neg (by decide)]
    simp
  cases key with
  | «omit» => exact .after hne hvalues
  | «return» column output => exact .after hne hvalues
  | capture column name =>
    exact .after (List.cons_ne_nil _ _) (.cons rfl (.cons rfl (rests_piece rfl)))

theorem rests_updateBody {names : Option (List String)} {links : Links}
    (hd : b.dialect = .sqlServer) (h : b.updateBody e names links = .ok sql) : sql.Rests := by
  obtain ⟨_, assignments, _, _, condition, hc, rfl⟩ := updateBody_eq_ok.1 h
  rw [hd]
  exact .behind (by decide) (rests_keyCondition hc)

/-- The last line of a batch is the commit, or hands the keys out. -/
theorem rests_batch {parts : BatchParts} : (Dialect.sqlServer.batch parts).Rests := by
  have hhanded : ∀ line ∈ Dialect.sqlServer.closingLines parts.keyVariables, Sql.Rests line := by
    intro line hm
    rw [Dialect.closingLines] at hm
    split at hm
    · exact absurd hm List.not_mem_nil
    · rw [List.mem_singleton.1 hm]
      refine Rests.append (Rests.cons rfl (.joined (List.forall_mem_map.2 fun v _ => ?_)))
        (rests_piece rfl)
      exact .cons rfl (rests_piece rfl)
  rw [Dialect.batch, Dialect.batchLines_eq, Sql.joined_append (List.cons_ne_nil _ _)]
  cases hclosing : Dialect.sqlServer.closingLines parts.keyVariables with
  | nil => exact .wrapped (by decide)
  | cons next rest =>
    rw [hclosing] at hhanded
    exact .behind (by decide) (Rests.cons rfl (.joined hhanded))

/-- **Apart from its semicolons, no statement ends with a name by itself.** -/
theorem rests_body (hd : b.dialect = .sqlServer) (h : b.body r = .ok sql) : sql.Rests := by
  cases r with
  | select e l =>
    obtain ⟨items, _, source, hs, filter, hf, terms, hterms, hpaged⟩ := selectBody_eq_ok.1 h
    rcases pagedSelect_eq_ok.1 hpaged with ⟨_, rfl⟩ | ⟨_, _, w, _, order, _, rfl⟩
    · exact rests_plainSelect (rests_fromClause hs) (rests_filterClause? hf)
        (rests_sortTerms? hterms)
    · rw [hd]
      exact .after (List.cons_ne_nil _ _) (.cons rfl (rests_piece rfl))
  | count e l =>
    obtain ⟨source, hs, filter, hf, rfl⟩ := countBody_eq_ok.1 h
    exact rests_plainSelect (rests_fromClause hs) (rests_filterClause? hf) rests_nil
  | selectByKey e =>
    obtain ⟨items, _, source, hs, condition, hc, rfl⟩ := selectByKeyBody_eq_ok.1 h
    refine rests_plainSelect (rests_fromClause hs) ?_ rests_nil
    rintro _ ⟨⟩
    exact rests_keyCondition hc
  | selectByExample e combinator =>
    obtain ⟨items, _, source, hs, filter, hf, rfl⟩ := selectByExampleBody_eq_ok.1 h
    exact rests_plainSelect (rests_fromClause hs) (rests_exampleClause hf) rests_nil
  | insert e =>
    obtain ⟨entries, _, _, rfl⟩ := insertBody_eq_ok.1 h
    rw [hd]
    exact rests_insert
  | update e => exact rests_updateBody hd h
  | updateProperties e names => exact rests_updateBody hd h
  | delete e =>
    obtain ⟨condition, hc, rfl⟩ := deleteBody_eq_ok.1 h
    rw [hd]
    exact .behind (by decide) (rests_keyCondition hc)
  | aggregate e a source => exact rests_aggregateBody h
  | batch steps =>
    obtain ⟨_, _, fragments, _, rfl⟩ := batchBody_eq_ok.1 h
    rw [hd]
    exact rests_batch

end Builder

/-! ## Shedding semicolons from the text -/

namespace Text

/-- A text that does not end in a semicolon. -/
def Unended (cs : List Char) : Prop := ∀ c ∈ cs.getLast?, c ≠ ';'

theorem unended_of_not_mem {cs : List Char} (h : ';' ∉ cs) : Unended cs := fun _ hc hs =>
  h (hs ▸ List.mem_of_getLast? hc)

theorem unended_dropSemicolons (s : String) : Unended (Sql.dropSemicolons s).toList := by
  intro c hc
  rw [Sql.dropSemicolons, String.toList_ofList, List.getLast?_reverse] at hc
  have hhead := List.head?_dropWhile_not (fun c => decide (c = ';')) s.toList.reverse
  rw [Option.mem_def.1 hc] at hhead
  exact of_decide_eq_false hhead

/-- The semicolons behind such a text are shed, and nothing else. -/
theorem dropSemicolons_append_replicate {cs : List Char} (h : Unended cs) (count : Nat) :
    Sql.dropSemicolons (String.ofList (cs ++ List.replicate count ';')) = String.ofList cs := by
  have hcs : cs.reverse.dropWhile (fun c => decide (c = ';')) = cs.reverse := by
    cases hlast : cs.reverse with
    | nil => rfl
    | cons c rest =>
      have hc : c ≠ ';' := h c (by rw [← List.head?_reverse, hlast]; rfl)
      rw [List.dropWhile_cons_of_neg (by simpa using hc)]
  rw [Sql.dropSemicolons, String.toList_ofList, List.reverse_append, List.reverse_replicate,
    List.dropWhile_append_of_pos (by simp), hcs, List.reverse_reverse]

end Text

namespace Sql

variable {style : Style} {n : Nat}

theorem exists_dropSemicolons (s : String) : ∃ count,
    s.toList = (dropSemicolons s).toList ++ List.replicate count ';' := by
  have hlost : ∀ c ∈ s.toList.reverse.takeWhile (fun c => decide (c = ';')), c = ';' := fun c hc =>
    of_decide_eq_true (List.mem_takeWhile_imp (p := fun c => decide (c = ';')) hc)
  refine ⟨(s.toList.reverse.takeWhile fun c => decide (c = ';')).length, ?_⟩
  rw [dropSemicolons, String.toList_ofList, ← List.reverse_replicate,
    ← List.eq_replicate_of_mem hlost, ← List.reverse_append, List.takeWhile_append_dropWhile,
    List.reverse_reverse]

/-- What a statement sheds at its end are semicolons, and nothing else. -/
theorem exists_charsFrom_withoutSemicolons (sql : Sql) (style : Style) (n : Nat) : ∃ count,
    charsFrom style n sql =
      charsFrom style n sql.withoutSemicolons ++ List.replicate count ';' := by
  induction sql using List.reverseRecOn with
  | nil => exact ⟨0, rfl⟩
  | append_singleton init p ih =>
    by_cases ht : ∃ s, p = .text s
    · obtain ⟨s, rfl⟩ := ht
      obtain ⟨count, hs⟩ := exists_dropSemicolons s
      rw [withoutSemicolons_text]
      split
      -- when the text is lost as a whole, what is in front of it may lose some as well
      · next hempty =>
        obtain ⟨more, hinit⟩ := ih
        refine ⟨more + count, ?_⟩
        rw [charsFrom_append, hinit, Dialect.charsFrom_wording, hs, hempty,
          ← List.replicate_append_replicate, List.append_assoc]
        rfl
      · refine ⟨count, ?_⟩
        rw [charsFrom_append, charsFrom_append, Dialect.charsFrom_wording,
          Dialect.charsFrom_wording, hs, List.append_assoc]
    · rw [withoutSemicolons_of_ne_text init fun s he => ht ⟨s, he⟩]
      exact ⟨0, (List.append_nil _).symm⟩

/-- What is left at the end is a piece of the statement, or wording that has shed its semicolons. -/
theorem getLast?_withoutSemicolons {p : Piece} (h : p ∈ sql.withoutSemicolons.getLast?) :
    (p ∈ sql ∧ ∀ s, p ≠ .text s) ∨ ∃ s, p = .text s ∧ s ≠ "" ∧ Unended s.toList := by
  induction sql using List.reverseRecOn with
  | nil => exact absurd h (by simp [withoutSemicolons, dropLeading])
  | append_singleton init q ih =>
    by_cases ht : ∃ s, q = .text s
    · obtain ⟨s, rfl⟩ := ht
      rw [withoutSemicolons_text] at h
      split at h
      · exact (ih h).imp_left fun hp => ⟨List.mem_append_left _ hp.1, hp.2⟩
      · next hne =>
        rw [List.getLast?_concat] at h
        exact .inr ⟨_, (Option.some.inj h).symm, hne, unended_dropSemicolons s⟩
    · have hq : ∀ s, q ≠ .text s := fun s he => ht ⟨s, he⟩
      rw [withoutSemicolons_of_ne_text init hq, List.getLast?_concat] at h
      obtain rfl := Option.some.inj h
      exact .inl ⟨List.mem_append_right _ List.mem_cons_self, hq⟩

/-- SQL ends as its last piece does. -/
theorem unended_charsFrom
    (h : ∀ p ∈ sql.getLast?, ∀ n, p.write style n ≠ "" ∧ Unended (p.write style n).toList)
    (n : Nat) : Unended (charsFrom style n sql) := by
  rcases List.eq_nil_or_concat sql with rfl | ⟨init, p, rfl⟩
  · exact fun _ hc => absurd hc (by simp [charsFrom])
  · obtain ⟨m, hchars⟩ := exists_charsFrom_cons style p [] (n + (bindings init).length)
    obtain ⟨hne, hp⟩ := h p (by simp) (n + (bindings init).length)
    rw [charsFrom, List.append_nil] at hchars
    intro c hc
    rw [List.concat_eq_append, charsFrom_append, hchars,
      List.getLast?_append_of_ne_nil _ (mt String.toList_eq_nil_iff.1 hne)] at hc
    exact hp c hc

end Sql

/-- A text that is there, without a semicolon. -/
def Text.Shut (s : String) : Prop := s ≠ "" ∧ ';' ∉ s.toList

instance (s : String) : Decidable (Text.Shut s) := inferInstanceAs (Decidable (_ ∧ _))

theorem Text.Plain.semicolon_not_mem (h : Plain s) : ';' ∉ s.toList := fun hm =>
  absurd (h _ hm) (by decide)

theorem Text.Shut.append {t : String} (hs : Shut s) (ht : ';' ∉ t.toList) : Shut (s ++ t) := by
  refine ⟨fun he => hs.1 ?_, ?_⟩
  · exact (String.append_eq_empty_iff.1 he).1
  · rw [String.toList_append, List.mem_append, not_or]
    exact ⟨hs.2, ht⟩

theorem shut_placeholder (d : Dialect) (n : Nat) : Shut (d.placeholder (parameterName n)) := by
  have hname : Plain (parameterName n) := Plain.append (by decide) (plain_nat n)
  cases d with
  | sqlServer => exact Shut.append (s := "@") (by decide) hname.semicolon_not_mem
  | oracle => exact Shut.append (s := ":") (by decide) hname.semicolon_not_mem

theorem shut_batchVariable (d : Dialect) (k : Nat) : Shut (d.batchVariable k) := by
  have hnumber := (plain_nat k).semicolon_not_mem
  cases d with
  | sqlServer => exact Shut.append (s := "@id") (by decide) hnumber
  | oracle => exact Shut.append (s := "v_id") (by decide) hnumber

theorem Style.shut_qualified {style : Style} (table : TableAlias) {name : String}
    (h : Identifier.check name = .ok ()) : Shut (style.qualified table name) := by
  have htable : Shut (table.text ++ ".") := by
    refine ⟨fun he => ?_, ?_⟩
    · exact absurd (String.append_eq_empty_iff.1 he).2 (by decide)
    · rw [String.toList_append, List.mem_append, not_or]
      exact ⟨table.plain_text.semicolon_not_mem, by decide⟩
  refine htable.append (not_mem_identifier (plain_of_check h).semicolon_not_mem fun d => ?_)
  cases d with
  | sqlServer => decide
  | oracle => decide

namespace Builder

/-- The pieces that a statement may end with are there, and have no semicolon. -/
theorem shut_stock (hc : ∀ e ∈ r.entities, e.check = .ok ()) (h : b.body r = .ok sql) {p : Piece}
    (hp : p ∈ sql) (hr : p.rests = true) (ht : ∀ s, p ≠ .text s) (n : Nat) :
    Shut (p.write b.style n) := by
  obtain ⟨e, hm, hs⟩ := (formed_body h).stock p hp
  have hcheck : ∀ {name}, e.Declares name → Identifier.check name = .ok () :=
    fun hd => hd.check (hc e hm)
  cases hs with
  | wording _ => exact absurd rfl (ht _)
  | binding => exact shut_placeholder b.dialect n
  | field hf => exact Style.shut_qualified _ (hcheck (.column hf))
  | pulled hj hcol => exact Style.shut_qualified _ (hcheck (.pulled hj hcol))
  | onColumn hj => exact Style.shut_qualified _ (hcheck (.onColumn hj))
  | target hf => exact Style.shut_qualified _ (hcheck (.column hf))
  | name _ => exact absurd hr (by simp [Piece.rests])
  | decrypt _ => exact absurd hr (by simp [Piece.rests])
  | encrypt _ _ => exact absurd hr (by simp [Piece.rests])
  | extra ha =>
    cases ha with
    | label _ => exact absurd hr (by simp [Piece.rests])
    | batch ha =>
      cases ha with
      | kept hv =>
        obtain ⟨k, hk⟩ := keyVariablesFrom_names _ hv
        rw [Piece.write, hk]
        exact shut_batchVariable b.dialect k
      | frame _ => exact absurd rfl (ht _)
      | assign => exact absurd rfl (ht _)

/-- **The text of a statement sheds the semicolons that its pieces shed.** -/
theorem dropSemicolons_body (hd : b.dialect = .sqlServer) (hc : ∀ e ∈ r.entities, e.check = .ok ())
    (h : b.body r = .ok sql) :
    Sql.dropSemicolons (sql.write b.style) = sql.withoutSemicolons.write b.style := by
  have hlast : ∀ p ∈ sql.withoutSemicolons.getLast?, ∀ n,
      p.write b.style n ≠ "" ∧ Unended (p.write b.style n).toList := by
    intro p hp n
    rcases Sql.getLast?_withoutSemicolons hp with ⟨hm, ht⟩ | ⟨s, rfl, hne, hs⟩
    · have hshut := shut_stock hc h hm (rests_body hd h p hp) ht n
      exact ⟨hshut.1, unended_of_not_mem hshut.2⟩
    · exact ⟨hne, hs⟩
  obtain ⟨count, hcount⟩ := sql.exists_charsFrom_withoutSemicolons b.style 0
  rw [Sql.write, hcount, dropSemicolons_append_replicate (Sql.unended_charsFrom hlast 0)]
  rfl

end Builder

end RecordSql
