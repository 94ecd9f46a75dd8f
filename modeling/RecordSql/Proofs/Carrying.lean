import RecordSql.Proofs.Parts

/-!
# Every use shows

The parts of a statement say what it may do with fields at most. Here is the other half: whatever a
request does with a field, its statement does.

SQL **carries** a part when it starts with it, or has it behind wording that is not the equals sign
of a join. So the part stands outside of conditions that join tables, and inside of no other part.
Every template carries what is put into it, and finishing a statement keeps it.
-/

namespace RecordSql

open Checked

variable {b : Builder} {e : Entity} {f : Field} {part sql : Sql} {s : Statement}

/-! ## Carrying a part -/

namespace Sql

/-- SQL starts with a part, or has it behind wording that does not compare. -/
def Carries (part sql : Sql) : Prop :=
  part <+: sql ∨ ∃ s : String, s ≠ " = " ∧ .text s :: part <:+: sql

namespace Carries

variable {a : Sql}

theorem refl : Carries part part := .inl List.prefix_rfl

theorem append (h : Carries part a) (c : Sql) : Carries part (a ++ c) := by
  rcases h with h | ⟨s, hs, h⟩
  · exact .inl (h.trans (List.prefix_append a c))
  · exact .inr ⟨s, hs, h.trans (List.prefix_append a c).isInfix⟩

/-- Wording may stand in front of what carries a part, and anything in front of that. -/
theorem after (h : Carries part a) (before : Sql) (s : String) (hs : s ≠ " = ") :
    Carries part (before ++ .text s :: a) := by
  rcases h with ⟨rest, rfl⟩ | ⟨s', hs', h⟩
  · exact .inr ⟨s, hs, before, rest, by simp⟩
  · refine .inr ⟨s', hs', h.trans ?_⟩
    exact (List.suffix_cons _ _).isInfix.trans (List.suffix_append before _).isInfix

theorem ne_nil (h : Carries part sql) (hp : part ≠ []) : sql ≠ [] := by
  rintro rfl
  rcases h with h | ⟨s, _, h⟩
  · exact hp (List.prefix_nil.1 h)
  · exact absurd (List.infix_nil.1 h) (by simp)

theorem joined {separator : String} {parts : List Sql} (h : Carries part a) (hm : a ∈ parts)
    (hs : separator ≠ " = ") : Carries part (Sql.joined separator parts) := by
  induction parts with
  | nil => exact absurd hm (by simp)
  | cons first rest ih =>
    cases rest with
    | nil => exact List.mem_singleton.1 hm ▸ h
    | cons next rest =>
      rcases List.mem_cons.1 hm with rfl | hm
      · exact h.append _
      · exact (ih hm).after first separator hs

theorem list {parts : List Sql} (h : Carries part a) (hm : a ∈ parts) :
    Carries part (Sql.list parts) :=
  h.joined hm (by decide)

theorem join {combinator : Combinator} {conditions : List Sql} (h : Carries part a)
    (hm : a ∈ conditions) : Carries part (combinator.join conditions) := by
  cases combinator with
  | and => exact h.joined hm (by decide)
  | or => exact h.joined hm (by decide)

end Carries

theorem infix_flatten {parts : List Sql} {part : Sql} (hm : part ∈ parts) :
    part <:+: parts.flatten := by
  obtain ⟨before, after, rfl⟩ := List.append_of_mem hm
  exact ⟨before.flatten, after.flatten, by simp⟩

/-- Semicolons are only lost behind the last piece that has something else. -/
theorem exists_withoutSemicolons (a rest : Sql) {p : Piece} (hp : withoutSemicolons [p] = [p]) :
    ∃ rest', (a ++ p :: rest).withoutSemicolons = a ++ p :: rest' := by
  have hkept : withoutSemicolons (a ++ [p]) = a ++ [p] := by
    rw [withoutSemicolons_append, hp, if_neg (List.cons_ne_nil _ _)]
  rw [show a ++ p :: rest = (a ++ [p]) ++ rest by simp, withoutSemicolons_append]
  split
  · exact ⟨[], hkept⟩
  · exact ⟨_, by rw [List.append_assoc]; rfl⟩

theorem infix_withoutSemicolons {a sql : Sql} {p : Piece} (hp : withoutSemicolons [p] = [p])
    (h : a ++ [p] <:+: sql) : a ++ [p] <:+: sql.withoutSemicolons := by
  obtain ⟨before, rest, rfl⟩ := h
  obtain ⟨rest', h'⟩ := exists_withoutSemicolons (before ++ a) rest hp
  refine ⟨before, rest', ?_⟩
  simp only [List.append_assoc, List.singleton_append] at h' ⊢
  exact h'.symm

theorem Carries.withoutSemicolons {a sql : Sql} {p : Piece} (hp : withoutSemicolons [p] = [p])
    (h : Carries (a ++ [p]) sql) : Carries (a ++ [p]) sql.withoutSemicolons := by
  rcases h with ⟨rest, rfl⟩ | ⟨s, hs, h⟩
  · obtain ⟨rest', h'⟩ := exists_withoutSemicolons a rest hp
    refine .inl ⟨rest', ?_⟩
    simp only [List.append_assoc, List.singleton_append] at h' ⊢
    exact h'.symm
  · exact .inr ⟨s, hs, infix_withoutSemicolons (a := .text s :: a) hp h⟩

end Sql

theorem Dialect.keyOpening_ne (keys : EncryptionKeys) : keyOpening keys ≠ " = " := by
  intro h
  have hchars := congrArg String.toList h
  unfold keyOpening at hchars
  simp only [String.toList_append, List.append_assoc] at hchars
  have hfirst : some 'O' = some ' ' := congrArg List.head? hchars
  exact absurd hfirst (by decide)

/-! ## Finishing -/

namespace Builder

open Sql

/-- What does not end in semicolons is kept when a statement is finished. -/
theorem infix_finish {a : Sql} {p : Piece} (hp : Sql.withoutSemicolons [p] = [p])
    (h : a ++ [p] <:+: sql) (hf : b.finish sql = .ok s) : a ++ [p] <:+: s.sql := by
  rcases finish_cases hf with ⟨_, rfl⟩ | ⟨_, _, keys, _, rfl⟩
  · exact h
  · exact (infix_withoutSemicolons hp h).trans
      ((List.suffix_cons _ _).isInfix.trans (List.prefix_append _ _).isInfix)

theorem carries_finish {a : Sql} {p : Piece} (hp : Sql.withoutSemicolons [p] = [p])
    (h : Carries (a ++ [p]) sql) (hf : b.finish sql = .ok s) : Carries (a ++ [p]) s.sql := by
  rcases finish_cases hf with ⟨_, rfl⟩ | ⟨_, _, keys, _, rfl⟩
  · exact h
  · exact ((h.withoutSemicolons hp).after [] _ (Dialect.keyOpening_ne keys)).append _

/-! ## Conditions -/

/-- SQL carries the expression that reads a field. -/
def Reads (b : Builder) (f : Field) (sql : Sql) : Prop :=
  ∃ operand, b.readField f = .ok operand ∧ Carries operand sql

theorem Reads.map {a c : Sql} (h : b.Reads f a)
    (hc : ∀ part, Carries part a → Carries part c) : b.Reads f c := by
  obtain ⟨operand, ho, ha⟩ := h
  exact ⟨operand, ho, hc operand ha⟩

end Builder

open Sql

/-- A condition made from a predicate carries its operand: a range without bounds, whose condition
would not, is none. -/
theorem Condition.carries {search : Predicate} {type : DataType} {c : Condition} (operand : Sql)
    (h : search.coerce type = .ok c) (type' : DataType) :
    Carries operand (c.sql operand type') := by
  replace h := Predicate.types_of_coerce h
  induction h with
  | isNull | isNotNull | atLeast _ | atMost _ | like | equals _ => exact Carries.refl.append _
  | not _ ih => exact (ih.after [] "NOT (" (by decide)).append _
  | between _ _ =>
    have hopen : Carries operand (.text "(" :: operand) := Carries.refl.after [] "(" (by decide)
    exact ((((hopen.append _).append _).append _).append _)
  | list _ => exact (Carries.refl.append _).append _

namespace Builder

/-- What a name stands for is read by its operand. -/
theorem readField_of_operand {name : String} {target : Target} {operand : Sql}
    (hn : e.resolve? name = some (.field f)) (ht : e.resolve? name = some target)
    (h : b.operand target = .ok operand) : b.readField f = .ok operand := by
  obtain rfl := Option.some.inj (hn.symm.trans ht)
  exact h

/-- Both groups of conditions are in the clause. -/
theorem exists_combine {columns searches : List Sql} {c : Sql} (hm : c ∈ columns ∨ c ∈ searches)
    (h : b.Reads f c) : ∃ clause, combine columns searches = some clause ∧ b.Reads f clause := by
  obtain ⟨operand, ho, hcarries⟩ := h
  unfold combine
  split
  · exact absurd hm (by simp)
  · exact ⟨_, rfl, operand, ho, hcarries.join (hm.resolve_right (by simp))⟩
  · exact ⟨_, rfl, operand, ho, hcarries.join (hm.resolve_left (by simp))⟩
  · refine ⟨_, rfl, operand, ho, ?_⟩
    rcases hm with hm | hm
    · have hall : Carries operand (Combinator.and.join columns) := hcarries.join hm
      exact ((hall.after [] "(" (by decide)).append _).append _
    · have hone : Carries operand (Combinator.or.join searches) := hcarries.join hm
      exact (hone.after (.text "(" :: Combinator.and.join columns) ") AND (" (by decide)).append _

theorem reads_filterClause {l : Listing} {clause : Option Sql} (hl : l.FiltersBy e f)
    (h : b.filterClause e l = .ok clause) : ∃ c, clause = some c ∧ b.Reads f c := by
  obtain ⟨columns, searches, hc, hs, rfl⟩ := filterClause_eq_ok.1 h
  cases hl with
  | @column name search hm hn =>
    obtain ⟨c, hmem, hcond⟩ := exists_of_mapM_mem hc hm
    obtain ⟨target, condition, operand, ht, hcoerce, ho, rfl⟩ := columnCondition_eq_ok.1 hcond
    exact exists_combine (.inl hmem)
      ⟨operand, readField_of_operand hn ht ho, Condition.carries operand hcoerce _⟩
  | @search name search hl hm hn hk =>
    obtain ⟨target, ht, hkept⟩ := mem_searchConditions hs hl hm
    obtain rfl := Option.some.inj (hn.symm.trans ht)
    -- the field can hold what is searched for, so its condition is not left out
    obtain ⟨condition, hcoerce⟩ := hk
    obtain ⟨operand, ho, hmem⟩ := hkept condition hcoerce
    exact exists_combine (.inr hmem) ⟨operand, ho, Condition.carries operand hcoerce _⟩

theorem reads_exampleClause {combinator : Combinator} {clause : Option Sql} (hx : e.Exemplifies f)
    (h : b.exampleClause e combinator = .ok clause) : ∃ c, clause = some c ∧ b.Reads f c := by
  obtain ⟨conditions, hall, rfl⟩ := exampleClause_eq_ok.1 h
  obtain ⟨hf, search, hsearch⟩ := hx
  obtain ⟨o, hmem, hcond⟩ := exists_of_mapM_mem hall hf
  rcases exampleCondition_eq_ok.1 hcond with ⟨hnone, _⟩ | ⟨search', c, operand, _, hcoerce, ho, rfl⟩
  · exact absurd (hsearch.symm.trans hnone) (by simp)
  have hin : c.sql operand f.dataType ∈ conditions.filterMap id :=
    List.mem_filterMap.2 ⟨_, hmem, rfl⟩
  rw [if_neg (List.ne_nil_of_mem hin)]
  exact ⟨_, rfl, operand, ho, (Condition.carries operand hcoerce _).join hin⟩

theorem carries_keyCondition {replacement : Option String} {key : Field} (hk : e.key? = some key)
    (h : keyCondition e replacement = .ok sql) : Carries [.column .root key.columnName] sql := by
  obtain ⟨key', hk', ⟨name, _, rfl⟩ | ⟨_, json, _, value, _, rfl⟩⟩ := keyCondition_eq_ok.1 h
  · obtain rfl := Option.some.inj (hk.symm.trans hk')
    exact Carries.refl.append _
  · obtain rfl := Option.some.inj (hk.symm.trans hk')
    exact Carries.refl.append _

/-! ## Reading -/

theorem reads_projection {items : List Item} (hf : f ∈ e.fields) (hp : f.isProjected = true)
    (h : b.projection e = .ok items) : b.Reads f (Sql.items items) := by
  obtain ⟨fields, hall, _, rfl⟩ := projection_eq_ok.1 h
  obtain ⟨item, hmem, hitem⟩ := exists_of_mapM_mem hall (List.mem_filter.2 ⟨hf, hp⟩)
  have hin : item.sql ∈ (fields ++ e.joinedTables.flatMap JoinedTable.items).map Item.sql :=
    List.mem_map_of_mem (List.mem_append_left _ hmem)
  have hread : b.Reads f item.sql := by
    have hplain : f.dataType ≠ .encrypted → b.readField f = .ok [.column .root f.columnName] :=
      fun hne => readField_eq_ok.2 (.inl ⟨hne, rfl⟩)
    rcases fieldItem_eq_ok.1 hitem with ⟨hd, rfl⟩ | ⟨_, value, hv, rfl⟩ | ⟨_, hne, rfl⟩
    · refine ⟨_, hplain (by rw [hd]; decide), ?_⟩
      -- a date is shown as a text that is made from its column
      unfold Item.sql Dialect.dateToString
      cases b.dialect with
      | sqlServer =>
        exact ((Carries.refl.after [] "CONVERT(VARCHAR(10), " (by decide)).append _).append _
      | oracle => exact ((Carries.refl.after [] "TO_CHAR(" (by decide)).append _).append _
    · exact ⟨value, hv, Carries.refl.append _⟩
    · refine ⟨_, hplain hne, ?_⟩
      split
      · exact .refl
      · exact Carries.refl.append _
  exact hread.map fun _ hc => hc.list hin

theorem reads_sortTerms {l : Listing} {terms : List Sql} (hl : l.SortsBy e f)
    (h : b.sortTerms e l = .ok terms) : ∃ term ∈ terms, b.Reads f term := by
  obtain ⟨targets, htargets, hterms⟩ := sortTerms_eq_ok.1 h
  obtain ⟨sort, hsort, column, hcolumn, hn⟩ := hl
  obtain ⟨target, hmem, htarget⟩ := exists_of_mapM_mem htargets hsort
  unfold Listing.sortTarget at htarget
  rw [hcolumn] at htarget
  obtain rfl := Except.ok.inj htarget
  obtain ⟨term, hm, hterm⟩ := exists_of_mapM_mem hterms hmem
  obtain ⟨target, ht, operand, ho, rfl⟩ := sortTerm_eq_ok.1 hterm
  exact ⟨_, hm, operand, readField_of_operand hn ht ho, Carries.refl.append _⟩

end Builder

/-- A listing carries a part in its projection, in its condition or in its order. -/
def PagedSelect.Carries (part : Sql) (select : PagedSelect) : Prop :=
  Sql.Carries part select.projection ∨ (∃ c, select.filter = some c ∧ Sql.Carries part c) ∨
    (select.orderBy ≠ [] ∧ Sql.Carries part select.orderBy)

namespace Builder

theorem carries_plainSelect {select : PagedSelect} (h : select.Carries part) :
    Carries part (plainSelect select) := by
  unfold plainSelect
  rcases h with h | ⟨c, hc, h⟩ | ⟨hne, h⟩
  · exact (((h.after [] "SELECT " (by decide)).append _).append _).append _
  · rw [hc]
    exact (h.after _ " WHERE " (by decide)).append _
  · rw [List.isEmpty_eq_false_iff.2 hne]
    exact h.after _ " ORDER BY " (by decide)

theorem carries_paginate {d : Dialect} {select : PagedSelect} {w : Window}
    (h : select.Carries part) : Carries part (d.paginate select w) := by
  unfold Dialect.paginate
  cases d with
  | sqlServer =>
    rcases h with h | ⟨c, hc, h⟩ | ⟨_, h⟩
    · have hselect := h.after [] "SELECT * FROM (SELECT " (by decide)
      exact (((hselect.append _).append _).append _).append _
    · rw [hc]
      exact (h.after _ " WHERE " (by decide)).append _
    · exact (((h.after _ ", ROW_NUMBER() OVER (ORDER BY " (by decide)).append _).append _).append _
  | oracle =>
    rcases h with h | ⟨c, hc, h⟩ | ⟨_, h⟩
    · have hselect := h.after [] "SELECT " (by decide)
      exact (((hselect.append _).append _).append _).append _
    · rw [hc]
      exact ((h.after _ " WHERE " (by decide)).append _).append _
    · exact (h.after _ " ORDER BY " (by decide)).append _

theorem infix_plainSelect (select : PagedSelect) : select.source <:+: plainSelect select :=
  (List.suffix_cons (.text " ") select.source).isInfix.trans
    ((List.suffix_append _ _).isInfix.trans
      ((List.prefix_append _ _).isInfix.trans (List.prefix_append _ _).isInfix))

theorem infix_paginate (d : Dialect) (select : PagedSelect) (w : Window) :
    select.source <:+: d.paginate select w := by
  cases d with
  | sqlServer =>
    exact (List.suffix_cons (.text ") AS RowNum ") select.source).isInfix.trans
      ((List.suffix_append _ _).isInfix.trans
        ((List.prefix_append _ _).isInfix.trans (List.prefix_append _ _).isInfix))
  | oracle =>
    exact (List.suffix_cons (.text " ") select.source).isInfix.trans
      ((List.suffix_append _ _).isInfix.trans
        ((List.prefix_append _ _).isInfix.trans
          ((List.prefix_append _ _).isInfix.trans (List.prefix_append _ _).isInfix)))

theorem carries_pagedSelect {projection source : Sql} {filter : Option Sql} {terms : List Sql}
    {l : Option Listing}
    (hc : PagedSelect.Carries part ⟨projection, source, filter, Sql.list terms⟩)
    (h : b.pagedSelect e projection source filter terms l = .ok sql) : Carries part sql := by
  rcases pagedSelect_eq_ok.1 h with ⟨_, rfl⟩ | ⟨_, _, w, _, orderBy, ho, rfl⟩
  · exact carries_plainSelect hc
  · refine carries_paginate (hc.imp_right (Or.imp_right ?_))
    rintro ⟨hne, hterms⟩
    -- what is sorted by is kept as the order of the page
    rcases windowOrder_eq_ok.1 ho with ⟨rfl, _⟩ | ⟨_, rfl⟩
    · exact absurd rfl hne
    · exact ⟨hne, hterms⟩

theorem infix_pagedSelect {projection source : Sql} {filter : Option Sql} {terms : List Sql}
    {l : Option Listing} (h : b.pagedSelect e projection source filter terms l = .ok sql) :
    source <:+: sql := by
  rcases pagedSelect_eq_ok.1 h with ⟨_, rfl⟩ | ⟨_, _, w, _, orderBy, _, rfl⟩
  · exact infix_plainSelect ⟨projection, source, filter, Sql.list terms⟩
  · exact infix_paginate _ ⟨projection, source, filter, orderBy⟩ _

theorem readField_ne_nil (h : b.readField f = .ok sql) : sql ≠ [] := by
  rcases readField_eq_ok.1 h with ⟨_, rfl⟩ | ⟨_, _, _, rfl⟩
  · exact List.cons_ne_nil _ _
  · exact List.cons_ne_nil _ _

theorem reads_selectBody {l : Option Listing} (hf : (Request.select e l).uses.reads f)
    (h : b.selectBody e l = .ok sql) : b.Reads f sql := by
  obtain ⟨items, hi, source, _, filter, hfilter, terms, hterms, h⟩ := selectBody_eq_ok.1 h
  rcases hf with ⟨hf, hp⟩ | hasks
  · exact (reads_projection hf hp hi).map fun _ hc => carries_pagedSelect (.inl hc) h
  cases l with
  | none => exact absurd hasks id
  | some l =>
    rcases hasks with hfilters | hsorts
    · obtain ⟨c, hc, hread⟩ := reads_filterClause hfilters hfilter
      exact hread.map fun _ hcarries => carries_pagedSelect (.inr (.inl ⟨c, hc, hcarries⟩)) h
    · obtain ⟨term, hm, operand, ho, hcarries⟩ := reads_sortTerms hsorts hterms
      have hlist := hcarries.list hm
      exact ⟨operand, ho,
        carries_pagedSelect (.inr (.inr ⟨hlist.ne_nil (readField_ne_nil ho), hlist⟩)) h⟩

theorem picks_selectBody {l : Option Listing} (hf : (Request.select e l).Picks f)
    (h : b.selectBody e l = .ok sql) : Carries [.column .root f.columnName] sql := by
  obtain ⟨items, _, source, _, filter, _, terms, hterms, h⟩ := selectBody_eq_ok.1 h
  cases l with
  | none => exact absurd hf id
  | some l =>
    obtain ⟨hw, hsorts, hk⟩ := hf
    rcases pagedSelect_eq_ok.1 h with ⟨hnone, _⟩ | ⟨l', _, w, _, orderBy, ho, rfl⟩
    · exact absurd hnone (by simp [hw])
    rcases windowOrder_eq_ok.1 ho with ⟨_, key, hk', rfl⟩ | ⟨hne, _⟩
    · obtain rfl := Option.some.inj (hk.symm.trans hk')
      exact carries_paginate (.inr (.inr ⟨List.cons_ne_nil _ _, Carries.refl.append _⟩))
    · exact absurd ((sorts_eq_nil hterms).2 hsorts) hne

end Builder

/-- The local side of a join stands behind the equals sign of its condition. -/
theorem infix_fromClause (hf : e.JoinsOn f) (h : fromClause e = .ok sql) :
    [.text " = ", .column .root f.columnName] <:+: sql := by
  obtain ⟨joins, hall, rfl⟩ := fromClause_eq_ok.1 h
  obtain ⟨t, ht, hs⟩ := hf
  obtain ⟨join, hm, hjoin⟩ := exists_of_mapM_mem hall ht
  obtain ⟨target, hs', rfl⟩ := joinClause_eq_ok.1 hjoin
  obtain rfl := Except.ok.inj (hs.symm.trans hs')
  have hone : [.text " = ", .column .root f.columnName] <:+:
      Piece.text s!" {t.join.direction.keywords} " :: Sql.table t.join.table ++
        [.text s!" {t.tableAlias.text} ON ", .column t.tableAlias t.join.onColumn, .text " = "] ++
        (Target.field f).column :=
    ⟨.text s!" {t.join.direction.keywords} " :: Sql.table t.join.table ++
      [.text s!" {t.tableAlias.text} ON ", .column t.tableAlias t.join.onColumn], [], by
      simp [Target.column]⟩
  have hjoins := hone.trans (infix_flatten hm)
  exact hjoins.trans ((List.suffix_cons _ _).trans (List.suffix_append _ _)).isInfix

namespace Builder

theorem infix_selectBody {l : Option Listing} (hf : e.JoinsOn f)
    (h : b.selectBody e l = .ok sql) : [.text " = ", .column .root f.columnName] <:+: sql := by
  obtain ⟨_, _, source, hs, _, _, _, _, h⟩ := selectBody_eq_ok.1 h
  exact (infix_fromClause hf hs).trans (infix_pagedSelect h)

/-! ## Writing -/

theorem carries_update {d : Dialect} {table tableAlias a condition : Sql} {assignments : List Sql}
    (h : (a ∈ assignments ∧ Carries part a) ∨ Carries part condition) :
    Carries part (d.update table tableAlias assignments condition) := by
  unfold Dialect.update
  cases d with
  | sqlServer =>
    rcases h with ⟨hm, h⟩ | h
    · exact ((((h.list hm).after _ " SET " (by decide)).append _).append _).append _
    · exact h.after _ " WHERE " (by decide)
  | oracle =>
    rcases h with ⟨hm, h⟩ | h
    · exact ((h.list hm).after _ " SET " (by decide)).append _
    · exact h.after _ " WHERE " (by decide)

theorem carries_delete {d : Dialect} {table tableAlias condition : Sql}
    (h : Carries part condition) :
    Carries part (d.delete table tableAlias condition) := by
  cases d with
  | sqlServer => exact h.after _ " WHERE " (by decide)
  | oracle => exact h.after _ " WHERE " (by decide)

theorem picks_updateBody {names : Option (List String)} {links : Links} (hk : e.key? = some f)
    (h : b.updateBody e names links = .ok sql) : Carries [.column .root f.columnName] sql := by
  obtain ⟨_, assignments, _, _, condition, hc, rfl⟩ := updateBody_eq_ok.1 h
  exact carries_update (a := []) (.inr (carries_keyCondition hk hc))

theorem assigns_updateBody {names : Option (List String)} {links : Links}
    (hf : f ∈ updateFields e names) (h : b.updateBody e names links = .ok sql) :
    Carries [.target .root f.columnName] sql := by
  obtain ⟨_, assignments, hall, _, condition, _, rfl⟩ := updateBody_eq_ok.1 h
  obtain ⟨a, hm, ha⟩ := exists_of_mapM_mem hall hf
  obtain ⟨value, _, rfl⟩ := assignment_eq_ok.1 ha
  exact carries_update (.inl ⟨hm, Carries.refl.append _⟩)

theorem picks_deleteBody {links : Links} (hk : e.key? = some f)
    (h : b.deleteBody e links = .ok sql) : Carries [.column .root f.columnName] sql := by
  obtain ⟨condition, hc, rfl⟩ := deleteBody_eq_ok.1 h
  exact carries_delete (carries_keyCondition hk hc)

/-! ## Aggregating -/

theorem reads_sourceClause {source : AggregateSource} {clause : Option Sql}
    (hf : source.FiltersBy e f) (h : b.sourceClause e source = .ok clause) :
    ∃ c, clause = some c ∧ b.Reads f c := by
  cases source with
  | «example» combinator => exact reads_exampleClause hf h
  | listing l => exact reads_filterClause hf h

theorem reads_groupTerms {names : List String} {groups : List (Sql × Item)} {name : String}
    (hn : e.resolve? name = some (.field f)) (hm : name ∈ names)
    (h : names.mapM (b.groupTerm e) = .ok groups) :
    ∃ item ∈ groups.map Prod.snd, b.Reads f item.sql := by
  obtain ⟨term, hterm, hone⟩ := exists_of_mapM_mem h hm
  obtain ⟨target, ht, operand, ho, rfl⟩ := groupTerm_eq_ok.1 hone
  exact ⟨_, List.mem_map_of_mem hterm, operand, readField_of_operand hn ht ho,
    Carries.refl.append _⟩

theorem reads_calls {a : Aggregation} {calls : List AggregateCall} {c : AggregateColumn}
    {name : String} (hn : e.resolve? name = some (.field f)) (hm : c ∈ a.columns)
    (hc : c.field = some name) (h : a.columns.mapM (b.aggregateCall e) = .ok calls) :
    ∃ item ∈ callItems a calls, b.Reads f item.sql := by
  obtain ⟨call, hcall, hone⟩ := exists_of_mapM_mem h hm
  rcases aggregateCall_eq_ok.1 hone with ⟨hnone, _⟩ | ⟨name', hc', target, ht, operand, ho, rfl⟩
  · exact absurd (hc.symm.trans hnone) (by simp)
  obtain rfl := Option.some.inj (hc.symm.trans hc')
  -- every call has an alias, so it is among the items
  have hlength : calls.length ≤ a.resolvedAliases.length := by
    rw [← (mapM_eq_ok.1 h).length_eq, a.resolvedAliases_forall₂.length_eq]
  rw [← List.map_fst_zip hlength] at hcall
  obtain ⟨pair, hpair, hfst⟩ := List.mem_map.1 hcall
  refine ⟨_, List.mem_map_of_mem hpair, operand, readField_of_operand hn ht ho, ?_⟩
  show Carries operand (pair.1.sql ++ Sql.as pair.2)
  rw [hfst]
  exact ((Carries.refl.after [] _ (by cases c.function <;> decide)).append _).append _

theorem reads_aggregateBody {a : Aggregation} {source : AggregateSource}
    (hf : (Request.aggregate e a source).uses.reads f)
    (h : b.aggregateBody e a source = .ok sql) : b.Reads f sql := by
  obtain ⟨_, groups, hg, rollup, _, calls, hc, filter, hfilter, having, _, rows, _, rfl⟩ :=
    aggregateBody_eq_ok.1 h
  rcases hf with hshows | ⟨name, hname, hn⟩ | hsource
  · exact absurd hshows id
  · have hitem : ∃ item ∈ groups.map Prod.snd ++ rollup ++ callItems a calls,
        b.Reads f item.sql := by
      rcases hname with hm | ⟨c, hm, hcolumn⟩
      · obtain ⟨item, hi, hread⟩ := reads_groupTerms hn hm hg
        exact ⟨item, List.mem_append_left _ (List.mem_append_left _ hi), hread⟩
      · obtain ⟨item, hi, hread⟩ := reads_calls hn hm hcolumn hc
        exact ⟨item, List.mem_append_right _ hi, hread⟩
    obtain ⟨item, hi, hread⟩ := hitem
    refine hread.map fun _ hcarries => ?_
    have hselect := (hcarries.list (List.mem_map_of_mem hi)).after [] "SELECT " (by decide)
    exact (((hselect.append _).append _).append _).append _
  · obtain ⟨c, rfl, hread⟩ := reads_sourceClause hsource hfilter
    refine hread.map fun _ hcarries => ?_
    exact ((hcarries.after _ " WHERE " (by decide)).append _).append _

/-! ## Batches -/

/-- A batch carries what one of its fragments does. -/
theorem carries_batch {d : Dialect} {parts : BatchParts} {fragment : Sql}
    (hm : fragment ∈ parts.fragments) (h : Carries part fragment) :
    Carries part (d.batch parts) := by
  unfold Dialect.batch Dialect.batchLines
  cases d with
  | sqlServer =>
    refine (h.append [.text ";"]).joined ?_ (by decide)
    simp [hm]
  | oracle =>
    refine ((h.after [] "  " (by decide)).append [.text ";"]).joined ?_ (by decide)
    simp [hm]

theorem carries_batchBody {steps : List BatchStep} {step : BatchStep} (hm : step ∈ steps)
    (hstep : ∀ index sql, b.stepBody (b.keyVariables steps) step index = .ok sql →
      Carries part sql) (h : b.batchBody steps = .ok sql) : Carries part sql := by
  obtain ⟨_, _, fragments, hall, rfl⟩ := batchBody_eq_ok.1 h
  obtain ⟨index, hi⟩ := List.mem_iff_getElem?.1 hm
  obtain ⟨fragment, hfragment, hone⟩ :=
    exists_of_mapM_mem hall (List.mk_mem_zipIdx_iff_getElem?.2 hi)
  exact carries_batch hfragment (hstep index fragment hone)

/-! ## Requests -/

/-- **Every field that a request shows or asks for is read.** -/
theorem reads_body {r : Request} (hf : r.uses.reads f) (h : b.body r = .ok sql) :
    b.Reads f sql := by
  cases r with
  | select e l => exact reads_selectBody hf h
  | count e l =>
    obtain ⟨source, _, filter, hfilter, rfl⟩ := countBody_eq_ok.1 h
    cases l with
    | none => exact absurd hf (by simp [Request.uses, Request.Shows, Request.Asks])
    | some l =>
      obtain ⟨c, hc, hread⟩ := reads_filterClause (hf.resolve_left id) hfilter
      exact hread.map fun _ hcarries => carries_plainSelect (.inr (.inl ⟨c, hc, hcarries⟩))
  | selectByKey e =>
    obtain ⟨items, hi, source, _, condition, _, rfl⟩ := selectByKeyBody_eq_ok.1 h
    obtain ⟨hf, hp⟩ := hf.resolve_right id
    exact (reads_projection hf hp hi).map fun _ hcarries => carries_plainSelect (.inl hcarries)
  | selectByExample e combinator =>
    obtain ⟨items, hi, source, _, filter, hfilter, rfl⟩ := selectByExampleBody_eq_ok.1 h
    rcases hf with ⟨hf, hp⟩ | hx
    · exact (reads_projection hf hp hi).map fun _ hcarries => carries_plainSelect (.inl hcarries)
    · obtain ⟨c, hc, hread⟩ := reads_exampleClause hx hfilter
      exact hread.map fun _ hcarries => carries_plainSelect (.inr (.inl ⟨c, hc, hcarries⟩))
  | aggregate e a source => exact reads_aggregateBody hf h
  | _ => exact absurd hf (by simp [Request.uses, Request.Shows, Request.Asks])

/-- Every field that a request picks rows by stands for itself, decrypted or not. -/
theorem picks_body {r : Request} (hf : r.Picks f) (h : b.body r = .ok sql) :
    Carries [.column .root f.columnName] sql := by
  cases r with
  | select e l => exact picks_selectBody hf h
  | selectByKey e =>
    obtain ⟨items, _, source, _, condition, hc, rfl⟩ := selectByKeyBody_eq_ok.1 h
    exact carries_plainSelect (.inr (.inl ⟨condition, rfl, carries_keyCondition hf hc⟩))
  | update e => exact picks_updateBody hf h
  | updateProperties e names => exact picks_updateBody hf h
  | delete e => exact picks_deleteBody hf h
  | batch steps =>
    obtain ⟨step, hm, hop, hk⟩ := hf
    refine carries_batchBody hm (fun index fragment hone => ?_) h
    obtain ⟨_, links, _, hone⟩ := stepBody_eq_ok.1 hone
    rcases hone with ⟨hinsert, _⟩ | ⟨_, hone⟩ | ⟨_, hone⟩
    · exact absurd hinsert hop
    · exact picks_updateBody hk hone
    · exact picks_deleteBody hk hone
  | _ => exact absurd hf id

theorem joins_body {r : Request} (hf : r.Joins f) (h : b.body r = .ok sql) :
    [.text " = ", .column .root f.columnName] <:+: sql := by
  cases r with
  | select e l => exact infix_selectBody hf h
  | count e l =>
    obtain ⟨source, hs, _, _, rfl⟩ := countBody_eq_ok.1 h
    exact (infix_fromClause hf hs).trans (infix_plainSelect ⟨_, source, _, _⟩)
  | selectByKey e =>
    obtain ⟨_, _, source, hs, _, _, rfl⟩ := selectByKeyBody_eq_ok.1 h
    exact (infix_fromClause hf hs).trans (infix_plainSelect ⟨_, source, _, _⟩)
  | selectByExample e combinator =>
    obtain ⟨_, _, source, hs, _, _, rfl⟩ := selectByExampleBody_eq_ok.1 h
    exact (infix_fromClause hf hs).trans (infix_plainSelect ⟨_, source, _, _⟩)
  | aggregate e a source =>
    obtain ⟨_, _, _, _, _, _, _, _, _, _, _, rows, hrows, rfl⟩ := aggregateBody_eq_ok.1 h
    refine (infix_fromClause hf hrows).trans ?_
    exact ((List.suffix_cons (.text " ") rows).trans (List.suffix_append _ _)).isInfix.trans
      ((List.prefix_append _ _).trans ((List.prefix_append _ _).trans
        (List.prefix_append _ _))).isInfix
  | _ => exact absurd hf id

theorem assigns_body {r : Request} (hf : r.Assigns f) (h : b.body r = .ok sql) :
    Carries [.target .root f.columnName] sql := by
  cases r with
  | update e => exact assigns_updateBody hf h
  | updateProperties e names => exact assigns_updateBody hf h
  | batch steps =>
    obtain ⟨step, hm, hop, hf⟩ := hf
    refine carries_batchBody hm (fun index fragment hone => ?_) h
    obtain ⟨_, links, _, hone⟩ := stepBody_eq_ok.1 hone
    rcases hone with ⟨hinsert, _⟩ | ⟨_, hone⟩ | ⟨hdelete, _⟩
    · exact absurd (hop.symm.trans hinsert) (by decide)
    · exact assigns_updateBody hf hone
    · exact absurd (hop.symm.trans hdelete) (by decide)
  | _ => exact absurd hf id

end Builder

end RecordSql
