import RecordSql.Proofs.KeyCalls
import RecordSql.Proofs.Placeholders
import RecordSql.Proofs.SafeNames
import RecordSql.Proofs.TableAliases

/-!
# Quoting only changes how names are written

Whether names are quoted is part of the style that a finished statement is written in. No builder
looks at it before, so two builders that differ in nothing else write the same pieces and refuse the
same requests for the same reasons. The texts of their statements differ in the quotes only: a quote
is put around each name, and one inside of a name is written twice.

A table name is quoted part by part. Each part of a checked name is an identifier, which has neither
dots nor quotes in it, so the dots between the parts stand outside of the quotes. No other name has
a dot either, unless an aggregate makes it up.
-/

namespace RecordSql

open Checked Text

variable {b : Builder} {e : Entity} {r : Request} {s : Statement} {sql : Sql}

/-! ## Texts without quotes -/

namespace Text

variable {keep : Char → Bool} {opening mark : Char}

theorem filter_doubled (hm : keep mark = false) (cs : List Char) :
    (doubled mark cs).filter keep = cs.filter keep := by
  induction cs with
  | nil => rfl
  | cons c rest ih =>
    unfold doubled
    split
    · next hc =>
      subst hc
      rw [List.filter_cons_of_neg (by simp [hm]), List.filter_cons_of_neg (by simp [hm]), ih,
        List.filter_cons_of_neg (by simp [hm])]
    · rw [List.filter_cons, List.filter_cons, ih]

/-- Between quotes that are not kept, nothing is kept but what is kept of the name. -/
theorem filter_between (ho : keep opening = false) (hm : keep mark = false) (cs : List Char) :
    (between opening mark cs).filter keep = cs.filter keep := by
  have hclosing : [mark].filter keep = [] := List.filter_cons_of_neg (by simp [hm])
  rw [between, List.cons_append, List.filter_cons_of_neg (by simp [ho]), List.filter_append,
    filter_doubled hm, hclosing, List.append_nil]

theorem doubled_of_not_mem {cs : List Char} (h : mark ∉ cs) : doubled mark cs = cs := by
  induction cs with
  | nil => rfl
  | cons c rest ih =>
    obtain ⟨hc, hrest⟩ := not_or.1 (mt List.mem_cons.2 h)
    rw [doubled, if_neg (Ne.symm hc), ih hrest]

end Text

namespace Dialect

/-- Whether a character is none of the quotes of the dialect. -/
def isBare (d : Dialect) (c : Char) : Bool := c ≠ d.quotes.1 && c ≠ d.quotes.2

/-- A text without the quotes of the dialect. -/
def withoutQuotes (d : Dialect) (text : String) : String :=
  String.ofList (text.toList.filter d.isBare)

end Dialect

/-- Without quotes, a name is written alike in every style of the dialect. -/
theorem Style.filter_identifier (style : Style) (name : String) :
    (style.identifier name).toList.filter style.dialect.isBare =
      name.toList.filter style.dialect.isBare := by
  unfold identifier
  split
  · unfold quoteIdentifier
    rw [String.toList_ofList]
    exact filter_between (by simp [Dialect.isBare]) (by simp [Dialect.isBare]) _
  · rfl

theorem Piece.filter_write (d : Dialect) (quoted quoted' : Bool) (n : Nat) (p : Piece) :
    (p.write ⟨d, quoted⟩ n).toList.filter d.isBare =
      (p.write ⟨d, quoted'⟩ n).toList.filter d.isBare := by
  have hname : ∀ name, ((Style.mk d quoted).identifier name).toList.filter d.isBare =
      ((Style.mk d quoted').identifier name).toList.filter d.isBare := fun name =>
    ((Style.mk d quoted).filter_identifier name).trans
      ((Style.mk d quoted').filter_identifier name).symm
  have hqualified : ∀ table name,
      ((Style.mk d quoted).qualified table name).toList.filter d.isBare =
        ((Style.mk d quoted').qualified table name).toList.filter d.isBare := by
    intro table name
    unfold Style.qualified
    simp only [String.toList_append, List.filter_append, hname]
  cases p with
  | name name => exact hname name
  | column table name => exact hqualified table name
  | target table name => exact hqualified table name
  | _ => rfl

theorem Sql.filter_charsFrom (d : Dialect) (quoted quoted' : Bool) (n : Nat) (sql : Sql) :
    (charsFrom ⟨d, quoted⟩ n sql).filter d.isBare =
      (charsFrom ⟨d, quoted'⟩ n sql).filter d.isBare := by
  induction sql generalizing n with
  | nil => rfl
  | cons p rest ih =>
    have hp := p.filter_write d quoted quoted' n
    cases p with
    | bind x =>
      rw [charsFrom, charsFrom, List.filter_append, List.filter_append, hp, ih]
    | _ =>
      rw [charsFrom_of_binding?_none rfl, charsFrom_of_binding?_none rfl, List.filter_append,
        List.filter_append, hp, ih]

/-! ## Two builders -/

namespace Builder

/-- The builder with this choice of whether names are quoted. -/
def requoted (b : Builder) (quoted : Bool) : Builder :=
  { b with config := { b.config with quoteIdentifiers := quoted } }

/-- No body depends on whether names are quoted. -/
theorem body_requoted (b : Builder) (quoted : Bool) (r : Request) :
    (b.requoted quoted).body r = b.body r := by
  cases r <;> rfl

/-- Two statements of the same pieces, each in the style of its builder. -/
def SamePieces (b : Builder) (quoted : Bool) (s s' : Statement) : Prop :=
  s.sql = s'.sql ∧ s.style = b.style ∧ s'.style = (b.requoted quoted).style

theorem agree_finish (b : Builder) (quoted : Bool) (sql : Sql) :
    Agree (b.SamePieces quoted) (b.finish sql) ((b.requoted quoted).finish sql) := by
  unfold finish
  split
  · have hkeys : (b.requoted quoted).config.encryption = b.config.encryption := rfl
    rw [hkeys]
    cases b.config.encryption with
    | none => exact .error _
    | some keys => exact .bind_same fun wrapped _ => .ok ⟨rfl, rfl, rfl⟩
  · exact .ok ⟨rfl, rfl, rfl⟩

/-- **Two builders that differ in the quotes only agree on every request.** -/
theorem agree_requoted (b : Builder) (quoted : Bool) (r : Request) :
    Agree (b.SamePieces quoted) (b.run r) ((b.requoted quoted).run r) := by
  have hfinished : Agree (b.SamePieces quoted) (b.body r >>= b.finish)
      ((b.requoted quoted).body r >>= (b.requoted quoted).finish) := by
    rw [body_requoted]
    exact .bind_same fun sql _ => agree_finish b quoted sql
  cases r with
  | batch steps => exact hfinished
  | _ => exact .bind_same fun _ _ => hfinished

/-- The same pieces have the same parameters, and the same text but for the quotes. -/
theorem SamePieces.texts {quoted : Bool} {s s' : Statement} (h : b.SamePieces quoted s s') :
    s.parameters = s'.parameters ∧
      b.dialect.withoutQuotes s.text = b.dialect.withoutQuotes s'.text := by
  obtain ⟨hsql, hs, hs'⟩ := h
  refine ⟨congrArg Sql.parameters hsql, congrArg String.ofList ?_⟩
  rw [Statement.text, Statement.text, hs, hs', hsql, Sql.write, Sql.write, String.toList_ofList,
    String.toList_ofList]
  exact Sql.filter_charsFrom b.dialect _ _ 0 s'.sql

end Builder

/-! ## Table names -/

/-- A chain of joins names each of its tables. -/
theorem JoinChain.infix_table {scope : List TableAlias} {tables : List JoinedTable}
    (h : JoinChain e scope tables sql) {t : JoinedTable} (ht : t ∈ tables) :
    Sql.table t.join.table <:+: sql := by
  induction h with
  | nil => exact absurd ht (by simp)
  | cons _ _ _ ih =>
    rcases List.mem_cons.1 ht with rfl | ht
    · exact ((List.suffix_cons _ _).isInfix.trans (List.prefix_append _ _).isInfix).trans
        (List.prefix_append _ _).isInfix
    · exact (ih ht).trans (List.suffix_append _ _).isInfix

/-- The tables that a request names: those of its entities, and of the joins of the one that it
reads. -/
def Request.tables (r : Request) : List String :=
  r.entities.map Entity.table ++
    r.source?.toList.flatMap fun e => e.joinedTables.map fun t => t.join.table

theorem Entity.DeclaresTables.infix_table {source : Sql} (h : e.DeclaresTables source)
    {table : String} (ht : table = e.table ∨ ∃ t ∈ e.joinedTables, table = t.join.table) :
    Sql.table table <:+: source := by
  obtain ⟨joins, rfl, hchain⟩ := h
  rcases ht with rfl | ⟨t, ht, rfl⟩
  · exact ⟨[.text "FROM "], .text " t0" :: joins, by simp⟩
  · have hjoins : joins <:+ .text "FROM " :: Sql.table e.table ++ .text " t0" :: joins :=
      (List.suffix_cons _ _).trans (List.suffix_append _ _)
    exact (hchain.infix_table ht).trans hjoins.isInfix

namespace Dialect

theorem infix_insert (d : Dialect) (parts : InsertParts) (key : KeyReturn) :
    parts.table <:+: d.insert parts key := by
  have hhead : parts.table <:+: insertHead parts :=
    ⟨[.text "INSERT INTO "], .text " (" :: Sql.list parts.columns ++ [.text ")"], by
      simp [insertHead]⟩
  have hvalues : parts.table <:+: insertHead parts ++ insertValues parts :=
    hhead.trans (List.prefix_append _ _).isInfix
  unfold insert
  split
  · exact (hhead.trans (List.prefix_append _ _).isInfix).trans (List.prefix_append _ _).isInfix
  · exact hvalues.trans (List.prefix_append _ _).isInfix
  · exact (hvalues.trans (List.prefix_append _ _).isInfix).trans (List.prefix_append _ _).isInfix
  · exact (hvalues.trans (List.prefix_append _ _).isInfix).trans (List.prefix_append _ _).isInfix
  · exact hvalues

theorem infix_update (d : Dialect) (table tableAlias : Sql) (assignments : List Sql)
    (condition : Sql) : table <:+: d.update table tableAlias assignments condition := by
  cases d with
  | sqlServer =>
    exact ⟨.text "UPDATE " :: tableAlias ++ .text " SET " :: Sql.list assignments ++
      [.text " FROM "], .text " " :: tableAlias ++ .text " WHERE " :: condition, by simp [update]⟩
  | oracle =>
    exact ⟨[.text "UPDATE "], .text " " :: tableAlias ++ .text " SET " :: Sql.list assignments ++
      .text " WHERE " :: condition, by simp [update]⟩

theorem infix_delete (d : Dialect) (table tableAlias condition : Sql) :
    table <:+: d.delete table tableAlias condition := by
  cases d with
  | sqlServer =>
    exact ⟨.text "DELETE " :: tableAlias ++ [.text " FROM "],
      .text " " :: tableAlias ++ .text " WHERE " :: condition, by simp [delete]⟩
  | oracle =>
    exact ⟨[.text "DELETE FROM "], .text " " :: tableAlias ++ .text " WHERE " :: condition, by
      simp [delete]⟩

theorem infix_batch (d : Dialect) {parts : BatchParts} {fragment : Sql}
    (hm : fragment ∈ parts.fragments) : fragment <:+: d.batch parts := by
  unfold batch batchLines
  cases d with
  | sqlServer =>
    refine (List.prefix_append fragment [.text ";"]).isInfix.trans (Sql.infix_joined ?_)
    simp [hm]
  | oracle =>
    have hline : fragment <:+: .text "  " :: fragment ++ [.text ";"] :=
      ⟨[.text "  "], [.text ";"], rfl⟩
    refine hline.trans (Sql.infix_joined ?_)
    simp [hm]

end Dialect

namespace Builder

theorem infix_table_updateBody {names : Option (List String)} {links : Links}
    (h : b.updateBody e names links = .ok sql) : Sql.table e.table <:+: sql := by
  obtain ⟨_, _, _, _, _, _, rfl⟩ := updateBody_eq_ok.1 h
  exact b.dialect.infix_update _ _ _ _

theorem infix_table_deleteBody {links : Links} (h : b.deleteBody e links = .ok sql) :
    Sql.table e.table <:+: sql := by
  obtain ⟨_, _, rfl⟩ := deleteBody_eq_ok.1 h
  exact b.dialect.infix_delete _ _ _

theorem infix_table_insertBody {links : Links} {handling : KeyHandling}
    (h : b.insertBody e links handling = .ok sql) : Sql.table e.table <:+: sql := by
  obtain ⟨entries, _, _, rfl⟩ := insertBody_eq_ok.1 h
  exact b.dialect.infix_insert ⟨Sql.table e.table, _, _⟩ _

theorem infix_table_batchBody {steps : List BatchStep} {step : BatchStep} (hm : step ∈ steps)
    (h : b.batchBody steps = .ok sql) : Sql.table step.entity.table <:+: sql := by
  obtain ⟨_, _, fragments, hall, rfl⟩ := batchBody_eq_ok.1 h
  obtain ⟨index, hi⟩ := List.mem_iff_getElem?.1 hm
  obtain ⟨fragment, hfragment, hone⟩ :=
    exists_of_mapM_mem hall (List.mk_mem_zipIdx_iff_getElem?.2 hi)
  obtain ⟨_, _, _, ⟨_, h⟩ | ⟨_, h⟩ | ⟨_, h⟩⟩ := stepBody_eq_ok.1 hone
  · exact (infix_table_insertBody h).trans (b.dialect.infix_batch hfragment)
  · exact (infix_table_updateBody h).trans (b.dialect.infix_batch hfragment)
  · exact (infix_table_deleteBody h).trans (b.dialect.infix_batch hfragment)

/-- **Every table of a request stands in its body**, with each part of its name on its own. -/
theorem infix_table_body (h : b.body r = .ok sql) {table : String} (ht : table ∈ r.tables) :
    Sql.table table <:+: sql := by
  have hread : ∀ {e}, r.source? = some e →
      (table = e.table ∨ ∃ t ∈ e.joinedTables, table = t.join.table) →
        Sql.table table <:+: sql := by
    intro e hr ht
    obtain ⟨source, hs, front, rest, page, rfl, _⟩ := readsFrom_body hr h
    refine ((declaresTables_fromClause hs).infix_table ht).trans ⟨front, rest ++ page, ?_⟩
    simp
  rcases List.mem_append.1 ht with ht | ht
  · obtain ⟨e, he, rfl⟩ := List.mem_map.1 ht
    cases r with
    | batch steps =>
      obtain ⟨step, hm, rfl⟩ := List.mem_map.1 he
      exact infix_table_batchBody hm h
    | insert e' =>
      obtain rfl := List.mem_singleton.1 he
      exact infix_table_insertBody h
    | update e' =>
      obtain rfl := List.mem_singleton.1 he
      exact infix_table_updateBody h
    | updateProperties e' names =>
      obtain rfl := List.mem_singleton.1 he
      exact infix_table_updateBody h
    | delete e' =>
      obtain rfl := List.mem_singleton.1 he
      exact infix_table_deleteBody h
    | select e' _ | count e' _ | selectByKey e' | selectByExample e' _ | aggregate e' _ _ =>
      obtain rfl := List.mem_singleton.1 he
      exact hread rfl (.inl rfl)
  · obtain ⟨e, he, ht⟩ := List.mem_flatMap.1 ht
    obtain ⟨t, hm, rfl⟩ := List.mem_map.1 ht
    exact hread (Option.mem_toList.1 he) (.inr ⟨t, hm, rfl⟩)

/-- The tables of checked entities have table names. -/
theorem requireTable_of_mem_tables (hc : ∀ e ∈ r.entities, e.check = .ok ()) {table : String}
    (ht : table ∈ r.tables) : Identifier.requireTable table = .ok () := by
  rcases List.mem_append.1 ht with ht | ht
  · obtain ⟨e, he, rfl⟩ := List.mem_map.1 ht
    exact (Entity.check_eq_ok.1 (hc e he)).2.1
  · obtain ⟨e, he, ht⟩ := List.mem_flatMap.1 ht
    obtain ⟨t, hm, rfl⟩ := List.mem_map.1 ht
    have hin : e ∈ r.entities := by
      have hr : r.source? = some e := Option.mem_toList.1 he
      cases r with
      | select e' _ | count e' _ | selectByKey e' | selectByExample e' _ | aggregate e' _ _ =>
        exact List.mem_singleton.2 (Option.some.inj hr).symm
      | _ => exact absurd hr (by simp [Request.source?])
    exact (Entity.checkJoin_eq_ok.1 (Entity.check_join_of_check (hc e hin) hm)).1

end Builder

/-- A table name as it is written: each part in the style, dots between them. -/
def Style.tableName (style : Style) (table : String) : String :=
  String.ofList (List.intercalate ['.']
    ((Identifier.tableParts table).map fun part => (style.identifier part).toList))

/-- A statement names a table with each part of the name quoted on its own, or not at all. -/
structure Builder.NamesTable (b : Builder) (table : String) (s : Statement) : Prop where
  /-- The dots of the name are those between its parts. -/
  parts : List.intercalate ['.'] ((Identifier.tableParts table).map String.toList) = table.toList ∧
    ∀ part ∈ Identifier.tableParts table, '.' ∉ part.toList
  /-- A part stands between the quotes as it is. -/
  quoted : ∀ part ∈ Identifier.tableParts table,
    (b.style.identifier part).toList =
      if b.config.quoteIdentifiers then
        b.dialect.quotes.1 :: part.toList ++ [b.dialect.quotes.2]
      else part.toList
  /-- The parts are in the text, with the dots outside of the quotes. -/
  written : (b.style.tableName table).toList <:+: s.text.toList

/-- A table name ends in a name, which has no semicolons to lose. -/
theorem Sql.exists_table_eq (table : String) :
    ∃ front part, Sql.table table = front ++ [.name part] := by
  have hne : Identifier.tableParts table ≠ [] :=
    mt List.map_eq_nil_iff.1 (intercalate_pieces '.' table.toList).2.1
  unfold Sql.table
  generalize Identifier.tableParts table = parts at hne
  induction parts with
  | nil => exact absurd rfl hne
  | cons part rest ih =>
    cases rest with
    | nil => exact ⟨[], part, rfl⟩
    | cons next rest =>
      obtain ⟨front, last, hfront⟩ := ih (List.cons_ne_nil _ _)
      refine ⟨.name part :: .text "." :: front, last, ?_⟩
      rw [List.map_cons] at hfront
      rw [List.map_cons, List.map_cons, Sql.joined, hfront]
      · rfl
      · exact List.cons_ne_nil _ _

namespace Builder

theorem namesTable_of_body (hc : ∀ e ∈ r.entities, e.check = .ok ()) (h : b.body r = .ok sql)
    (hf : b.finish sql = .ok s) {table : String} (ht : table ∈ r.tables) :
    b.NamesTable table s := by
  have hchecked := (Identifier.requireTable_eq_ok.1 (requireTable_of_mem_tables hc ht)).2
  have hparts : (Identifier.tableParts table).map String.toList = pieces '.' table.toList := by
    simp [Identifier.tableParts, Function.comp_def]
  obtain ⟨hjoin, _, hdots⟩ := intercalate_pieces '.' table.toList
  constructor
  · refine ⟨hparts ▸ hjoin, fun part hp => hdots _ ?_⟩
    rw [← hparts]
    exact List.mem_map_of_mem hp
  · intro part hp
    unfold Style.identifier
    show String.toList (if b.config.quoteIdentifiers then _ else _) = _
    split
    · -- an identifier has no quotes that would be doubled
      have hquote : b.dialect.quotes.2 ∉ part.toList := by
        intro hm
        have hplain := plain_of_check (hchecked part hp) _ hm
        revert hplain
        cases b.dialect <;> decide
      rw [quoteIdentifier, String.toList_ofList, between]
      exact congrArg (fun cs => b.dialect.quotes.1 :: cs ++ _) (doubled_of_not_mem hquote)
    · rfl
  · obtain ⟨front, part, htable⟩ := Sql.exists_table_eq table
    have hbody := infix_table_body h ht
    rw [htable] at hbody
    obtain ⟨n, hn⟩ :=
      exists_charsFrom_infix_text (Sql.withoutSemicolons_of_ne_text [] (by simp)) hbody hf
    rw [← htable, charsFrom_table] at hn
    rw [Style.tableName, String.toList_ofList]
    exact hn

/-- **Quoting only changes how names are written.** Builders that differ in nothing else answer the
same requests, with the same parameters and with texts that are equal without the quotes, and refuse
all others for the same reasons. The parts of a table name are quoted one by one, so its dots stand
outside of the quotes; no name has a dot in it, but for what an aggregate makes up. -/
theorem quoting_run (b : Builder) (quoted : Bool) (r : Request) :
    Agree
        (fun s s' => s.parameters = s'.parameters ∧
          b.dialect.withoutQuotes s.text = b.dialect.withoutQuotes s'.text)
        (b.run r) ((b.requoted quoted).run r) ∧
      ∀ s, b.run r = .ok s → (∀ table ∈ r.tables, b.NamesTable table s) ∧
        ∀ n ∈ s.sql.names, '.' ∈ n.toList → n ∈ r.madeUp := by
  refine ⟨(agree_requoted b quoted r).imp fun _ _ h => h.texts, fun s h => ?_⟩
  obtain ⟨hc, sql, hbody, hfinish⟩ := run_eq_ok h
  refine ⟨fun table ht => namesTable_of_body hc hbody hfinish ht, fun n hn hdot => ?_⟩
  rw [names_finish hfinish] at hn
  refine (names_body hc hbody hn).resolve_left fun hcheck => ?_
  exact absurd ((Identifier.check_eq_ok.1 hcheck).2.2.1 '.' hdot) (by decide)

theorem quoting_run_departmentCount :
    ∃ s s', Builder.default.run departmentCount = .ok s ∧
      (Builder.default.requoted true).run departmentCount = .ok s' ∧
      s.parameters = s'.parameters ∧
      Dialect.sqlServer.withoutQuotes s.text = Dialect.sqlServer.withoutQuotes s'.text ∧
      (Builder.default.requoted true).NamesTable "dbo.Dept" s' ∧
      (Builder.default.requoted true).style.tableName "dbo.Dept" = "[dbo].[Dept]" := by
  refine ⟨_, _, rfl, rfl, ?_⟩
  have htexts := (quoting_run .default true departmentCount).1.related rfl rfl
  have htables := ((quoting_run (Builder.default.requoted true) false departmentCount).2 _ rfl).1
  exact ⟨htexts.1, htexts.2, htables "dbo.Dept" (by decide), by decide⟩

end Builder

end RecordSql
