import RecordSql.Proofs.Uses
import RecordSql.Proofs.Weaving

/-!
# The parts of statements

`Part b e u extra` lists the parts that statements about an entity are woven from:

* fixed wording, bound values, and names that the entity declares;
* a field as it is read: its column, or the whole decryption of it;
* a field that rows are picked by, one that is assigned to, the condition of a join;
* a value as it is encrypted.

What a statement does with which fields is limited by `u`. The parts that it adds of its own, such
as the aliases of an aggregation and the variables of a batch, come from `extra`.

Every body that a builder writes is woven from these parts, with the uses that its request has for
fields, and so is every answer. Questions about places in a statement are answered by going through
the constructors of `Part`.
-/

namespace RecordSql

open Checked Text

variable {b : Builder} {e : Entity} {u : Uses} {extra : Piece → Prop} {sql : Sql}

/-- A piece that calls no function that needs an open key. -/
def Piece.Keyless : Piece → Prop
  | .text s => Text.Keyless s
  | .keyed _ => False
  | _ => True

instance : (p : Piece) → Decidable p.Keyless
  | .text s => inferInstanceAs (Decidable (Text.Keyless s))
  | .keyed _ => .isFalse id
  | .name _ | .column _ _ | .target _ _ | .bind _ | .variable _ => .isTrue trivial

/-- The parts of statements about an entity. -/
inductive Part (b : Builder) (e : Entity) (u : Uses) (extra : Piece → Prop) : Sql → Prop where
  | wording {s : String} : Wording s → Part b e u extra [.text s]
  | binding {x : Binding} : Part b e u extra [.bind x]
  | name {n : String} : e.Declares n → Part b e u extra [.name n]
  | pulled {t : JoinedTable} {c : JoinColumn} : t ∈ e.joinedTables → c ∈ t.join.columns →
      Part b e u extra [.column t.tableAlias c.source]
  | plain {f : Field} : f ∈ e.fields → u.reads f → f.dataType ≠ .encrypted →
      Part b e u extra [.column .root f.columnName]
  | decrypted {f : Field} : f ∈ e.fields → u.reads f → f.dataType = .encrypted →
      b.dialect = .sqlServer →
      Part b e u extra [.keyed Dialect.decryptOpening, .column .root f.columnName,
        .text Dialect.encryptionClosing]
  | picked {f : Field} : f ∈ e.fields → u.picks f → Part b e u extra [.column .root f.columnName]
  | on {t : JoinedTable} {target : Target} : t ∈ e.joinedTables → e.joinSource t = .ok target →
      (∀ f, target = .field f → u.joins f) →
      Part b e u extra (.text s!" {t.tableAlias.text} ON " ::
        .column t.tableAlias t.join.onColumn :: .text " = " :: target.column)
  | assigned {f : Field} : f ∈ e.fields → u.assigns f →
      Part b e u extra [.target .root f.columnName]
  | encrypted {f : Field} {keys : EncryptionKeys} {x : Binding} : f ∈ e.fields →
      f.dataType = .encrypted → b.dialect = .sqlServer → b.config.encryption = some keys →
      Part b e u extra [.keyed (Dialect.encryptOpening keys), .bind x,
        .text Dialect.encryptionClosing]
  | extra {p : Piece} : extra p → p.Keyless → Part b e u extra [p]

namespace Part

theorem stocked : Sql.Stocked (Part b e u extra) where
  wording _ hs := .wording hs
  binding _ := .binding

theorem weaken {extra' : Piece → Prop} {a : Sql} (h : Part b e u extra a)
    (hw : ∀ p, extra p → extra' p) : Part b e u extra' a := by
  cases h with
  | wording hs => exact .wording hs
  | binding => exact .binding
  | name hn => exact .name hn
  | pulled ht hc => exact .pulled ht hc
  | plain hf hu hp => exact .plain hf hu hp
  | decrypted hf hu he hd => exact .decrypted hf hu he hd
  | picked hf hu => exact .picked hf hu
  | on ht hs hu => exact .on ht hs hu
  | assigned hf hu => exact .assigned hf hu
  | encrypted hf he hd hk => exact .encrypted hf he hd hk
  | extra hp hk => exact .extra (hw _ hp) hk

/-- Only wording loses semicolons. The parts that end in wording close something, and keep it. -/
theorem withoutSemicolons {a : Sql} (h : Part b e u extra a)
    (hx : ∀ s, extra (.text s) → extra (.text (Sql.dropSemicolons s))) :
    Sql.Woven (Part b e u extra) a.withoutSemicolons := by
  have hcolumn : ∀ (init : Sql) {p : Piece}, (∀ s, p ≠ .text s) → Part b e u extra (init ++ [p]) →
      Sql.Woven (Part b e u extra) (init ++ [p]).withoutSemicolons := by
    intro init p hp hpart
    rw [Sql.withoutSemicolons_of_ne_text init hp]
    exact .part hpart
  have hclosed : ∀ init : Sql, Part b e u extra (init ++ [.text Dialect.encryptionClosing]) →
      Sql.Woven (Part b e u extra)
        (Sql.withoutSemicolons (init ++ [.text Dialect.encryptionClosing])) := by
    intro init hpart
    have hkept : Sql.dropSemicolons Dialect.encryptionClosing = Dialect.encryptionClosing := by
      decide
    rw [Sql.withoutSemicolons_text, hkept, if_neg (by decide)]
    exact .part hpart
  cases h with
  | wording hs =>
    exact .text_withoutSemicolons (.wording (hs.of_start (Sql.dropSemicolons_prefix _)))
  | binding => exact hcolumn [] (by simp) .binding
  | name hn => exact hcolumn [] (by simp) (.name hn)
  | pulled ht hc => exact hcolumn [] (by simp) (.pulled ht hc)
  | plain hf hu hp => exact hcolumn [] (by simp) (.plain hf hu hp)
  | decrypted hf hu he hd => exact hclosed [_, _] (.decrypted hf hu he hd)
  | picked hf hu => exact hcolumn [] (by simp) (.picked hf hu)
  | @on t target ht hs hu =>
    cases target with
    | field f => exact hcolumn [_, _, _] (by simp) (.on ht hs hu)
    | joined index c => exact hcolumn [_, _, _] (by simp) (.on ht hs hu)
  | assigned hf hu => exact hcolumn [] (by simp) (.assigned hf hu)
  | encrypted hf he hd hk => exact hclosed [_, _] (.encrypted hf he hd hk)
  | @extra p hp hk =>
    cases p with
    | text s =>
      exact .text_withoutSemicolons
        (.extra (hx s hp) (Text.Keyless.of_start hk (Sql.dropSemicolons_prefix s)))
    | keyed s => exact absurd hk id
    | _ => exact hcolumn [] (by simp) (.extra hp hk)

theorem woven_table : Sql.Woven (Part b e u extra) (Sql.table e.table) :=
  Sql.woven_table stocked fun _ hp => .name (.tablePart hp)

theorem woven_alias : Sql.Woven (Part b e u extra) [.text TableAlias.root.text] :=
  .text stocked TableAlias.root.text (by decide)

end Part

namespace Builder

open RecordSql.Part (stocked woven_table woven_alias)

/-! ## Operands and conditions -/

theorem woven_readField {f : Field} (hf : f ∈ e.fields) (hu : u.reads f)
    (h : b.readField f = .ok sql) : Sql.Woven (Part b e u extra) sql := by
  rcases readField_eq_ok.1 h with ⟨hp, rfl⟩ | ⟨he, hd, _, rfl⟩
  · exact .part (.plain hf hu hp)
  · exact .part (.decrypted hf hu he hd)

theorem woven_operand {target : Target} (ht : e.Reaches target)
    (hu : ∀ f, target = .field f → u.reads f) (h : b.operand target = .ok sql) :
    Sql.Woven (Part b e u extra) sql := by
  cases ht with
  | field hf => exact woven_readField hf (hu _ rfl) h
  | joined htab hc =>
    injection h with h
    rw [← h]
    exact .part (.pulled htab hc)

/-- What a name stands for may be read when the field that it stands for may. -/
theorem woven_resolved {name : String} {target : Target} (ht : e.resolve? name = some target)
    (hu : ∀ f, e.resolve? name = some (.field f) → u.reads f) (h : b.operand target = .ok sql) :
    Sql.Woven (Part b e u extra) sql :=
  woven_operand (Entity.reaches_of_resolve? ht) (fun f hf => hu f (ht.trans (congrArg some hf))) h

theorem woven_columnCondition {name : String} {search : Predicate}
    (hu : ∀ f, e.resolve? name = some (.field f) → u.reads f)
    (h : b.columnCondition e name search = .ok sql) : Sql.Woven (Part b e u extra) sql := by
  obtain ⟨target, condition, operand, ht, _, ho, rfl⟩ := columnCondition_eq_ok.1 h
  exact Condition.woven_sql stocked (woven_resolved ht hu ho) condition

theorem woven_searchCondition {name : String} {search : Predicate}
    (hu : ∀ f, e.resolve? name = some (.field f) →
      (∃ condition, search.coerce f.dataType = .ok condition) → u.reads f)
    (h : b.searchCondition e search name = .ok (some sql)) :
    Sql.Woven (Part b e u extra) sql := by
  obtain ⟨target, ht, ⟨_, _, hn⟩ | ⟨condition, hc, operand, ho, he⟩⟩ := searchCondition_eq_ok.1 h
  · exact absurd hn (by simp)
  · rw [← Option.some.inj he]
    have hreaches := Entity.reaches_of_resolve? ht
    refine Condition.woven_sql stocked (woven_operand hreaches ?_ ho) condition
    rintro f rfl
    exact hu f ht ⟨condition, hc⟩

theorem woven_join {combinator : Combinator} {conditions : List Sql}
    (h : ∀ c ∈ conditions, Sql.Woven (Part b e u extra) c) :
    Sql.Woven (Part b e u extra) (combinator.join conditions) := by
  cases combinator with
  | and => exact .joined (.wording (by decide)) rfl rfl h
  | or => exact .joined (.wording (by decide)) rfl rfl h

theorem woven_combine {columns searches : List Sql} {clause : Sql}
    (hc : ∀ c ∈ columns, Sql.Woven (Part b e u extra) c)
    (hs : ∀ c ∈ searches, Sql.Woven (Part b e u extra) c)
    (h : combine columns searches = some clause) : Sql.Woven (Part b e u extra) clause := by
  have hcolumns : Sql.Woven (Part b e u extra) (Combinator.and.join columns) := woven_join hc
  have hsearches : Sql.Woven (Part b e u extra) (Combinator.or.join searches) := woven_join hs
  unfold combine at h
  split at h
  · exact absurd h (by simp)
  · rw [← Option.some.inj h]; exact hcolumns
  · rw [← Option.some.inj h]; exact hsearches
  · rw [← Option.some.inj h]
    -- only two groups stand in parentheses
    have hopen := hcolumns.after stocked "(" (by decide)
    have hboth := hopen.join stocked ") AND (" (by decide) hsearches
    exact hboth.closed stocked ")" (by decide)

theorem woven_filterClause {l : Listing} {clause : Sql} (hu : ∀ f, l.FiltersBy e f → u.reads f)
    (h : b.filterClause e l = .ok (some clause)) : Sql.Woven (Part b e u extra) clause := by
  obtain ⟨columns, searches, hc, hs, h⟩ := filterClause_eq_ok.1 h
  refine woven_combine ?_ ?_ h
  · intro c hmem
    obtain ⟨⟨name, search⟩, hm, hcond⟩ := exists_of_mem_mapM hc hmem
    exact woven_columnCondition (fun f hf => hu f (.column hm hf)) hcond
  · intro c hmem
    rcases searchConditions_eq_ok.1 hs with ⟨_, rfl⟩ | ⟨search, hl, conditions, hm, rfl⟩
    · exact absurd hmem (by simp)
    · obtain ⟨name, hname, hcond⟩ := exists_of_mem_filterMap_id hm hmem
      exact woven_searchCondition (fun f hf hk => hu f (.search hl hname hf hk)) hcond

theorem woven_filterClause? {l : Option Listing} {clause : Option Sql}
    (hu : ∀ l' ∈ l, ∀ f, l'.FiltersBy e f → u.reads f) (h : b.filterClause? e l = .ok clause) :
    ∀ c ∈ clause, Sql.Woven (Part b e u extra) c := by
  intro c hc
  cases l with
  | none =>
    injection h with h
    rw [← h] at hc
    exact absurd hc (by simp)
  | some l => exact woven_filterClause (hu l rfl) (h.trans (congrArg _ hc))

theorem woven_exampleClause {combinator : Combinator} {clause : Option Sql}
    (hu : ∀ f, e.Exemplifies f → u.reads f) (h : b.exampleClause e combinator = .ok clause) :
    ∀ c ∈ clause, Sql.Woven (Part b e u extra) c := by
  obtain ⟨conditions, hm, rfl⟩ := exampleClause_eq_ok.1 h
  intro c hc
  split at hc
  · exact absurd hc (by simp)
  rw [← Option.some.inj hc]
  refine woven_join ?_
  intro part hp
  obtain ⟨f, hf, hcond⟩ := exists_of_mem_filterMap_id hm hp
  rcases exampleCondition_eq_ok.1 hcond with ⟨_, hn⟩ | ⟨search, condition, operand, hs, _, ho, he⟩
  · exact absurd hn (by simp)
  · rw [← Option.some.inj he]
    exact Condition.woven_sql stocked (woven_readField hf (hu f ⟨hf, search, hs⟩) ho) condition

theorem woven_keyCondition {replacement : Option String} (hu : ∀ f, e.key? = some f → u.picks f)
    (hr : ∀ name ∈ replacement, extra (.variable name))
    (h : keyCondition e replacement = .ok sql) : Sql.Woven (Part b e u extra) sql := by
  obtain ⟨key, hk, hvalue⟩ := keyCondition_eq_ok.1 h
  have hcolumn : Sql.Woven (Part b e u extra) [.column .root key.columnName] :=
    .part (.picked (Entity.mem_fields_of_key? hk) (hu key hk))
  rcases hvalue with ⟨name, hn, rfl⟩ | ⟨_, json, _, value, _, rfl⟩
  · exact hcolumn.join stocked " = " (by decide) (.part (.extra (hr name hn) trivial))
  · exact hcolumn.join stocked " = " (by decide) (.bind stocked _)

/-! ## Reading -/

theorem woven_fieldItem {f : Field} {item : Item} (hf : f ∈ e.fields) (hu : u.reads f)
    (h : b.fieldItem f = .ok item) : Sql.Woven (Part b e u extra) item.sql := by
  have hcolumn : f.dataType ≠ .encrypted →
      Sql.Woven (Part b e u extra) [.column .root f.columnName] := fun hp => .part (.plain hf hu hp)
  rcases fieldItem_eq_ok.1 h with ⟨hd, rfl⟩ | ⟨_, value, hv, rfl⟩ | ⟨_, hp, rfl⟩
  · have hdate := hcolumn (by rw [hd]; decide)
    exact Sql.woven_as stocked (Dialect.woven_dateToString stocked hdate) (.name (.field hf))
  · exact Sql.woven_as stocked (woven_readField hf hu hv) (.name (.field hf))
  · split
    · exact hcolumn hp
    · exact Sql.woven_as stocked (hcolumn hp) (.name (.field hf))

theorem woven_pulledItem {t : JoinedTable} {item : Item} (ht : t ∈ e.joinedTables)
    (h : item ∈ t.items) : Sql.Woven (Part b e u extra) item.sql := by
  obtain ⟨c, hc, rfl⟩ := List.mem_map.1 h
  have hcolumn : Sql.Woven (Part b e u extra) [.column t.tableAlias c.source] :=
    .part (.pulled ht hc)
  unfold JoinedTable.item
  cases hl : c.label with
  | none => exact hcolumn
  | some label => exact Sql.woven_as stocked hcolumn (.name (.pulledAlias ht hc hl))

theorem woven_items {items : List Item}
    (h : ∀ item ∈ items, Sql.Woven (Part b e u extra) item.sql) :
    Sql.Woven (Part b e u extra) (Sql.items items) := by
  refine Sql.woven_list stocked ?_
  intro part hp
  obtain ⟨item, hi, rfl⟩ := List.mem_map.1 hp
  exact h item hi

theorem woven_projection {items : List Item}
    (hu : ∀ f ∈ e.fields, f.isProjected = true → u.reads f) (h : b.projection e = .ok items) :
    Sql.Woven (Part b e u extra) (Sql.items items) := by
  obtain ⟨fields, hf, _, rfl⟩ := projection_eq_ok.1 h
  refine woven_items ?_
  intro item hi
  rcases List.mem_append.1 hi with hi | hi
  · obtain ⟨f, hmem, hitem⟩ := exists_of_mem_mapM hf hi
    obtain ⟨hin, hp⟩ := List.mem_filter.1 hmem
    exact woven_fieldItem hin (hu f hin hp) hitem
  · obtain ⟨t, ht, hitem⟩ := List.mem_flatMap.1 hi
    exact woven_pulledItem ht hitem

end Builder

open RecordSql.Part (stocked woven_table woven_alias)

theorem woven_joinClause {t : JoinedTable} (hu : ∀ f, e.JoinsOn f → u.joins f)
    (ht : t ∈ e.joinedTables) (h : joinClause e t = .ok sql) :
    Sql.Woven (Part b e u extra) sql ∧ Sql.Trails sql := by
  obtain ⟨target, hs, rfl⟩ := joinClause_eq_ok.1 h
  have hkey : Lead s!" {t.join.direction.keywords} " ∧
      Text.starts s!" {t.join.direction.keywords} " = true := by
    -- whatever the direction, its keywords stand between blanks
    cases t.join.direction with
    | inner => decide
    | left => decide
    | right => decide
  have hon : Text.starts s!" {t.tableAlias.text} ON " = true :=
    Text.starts_append (Text.starts_append (s := " ") (by decide) _) _
  have htable : Sql.Woven (Part b e u extra) (Sql.table t.join.table) :=
    Sql.woven_table stocked fun _ hp => .name (.joinedPart ht hp)
  have hcondition : Sql.Woven (Part b e u extra) (.text s!" {t.tableAlias.text} ON " ::
      .column t.tableAlias t.join.onColumn :: .text " = " :: target.column) :=
    .part (.on ht hs fun f hf => hu f ⟨t, ht, hf ▸ hs⟩)
  have hall := (htable.after stocked _ hkey.1).append hcondition (Sql.trails_text hon)
  refine ⟨?_, Sql.trails_text hkey.2⟩
  rw [List.append_assoc]
  exact hall

/-- The joins follow each other, each opening with its keywords. -/
theorem woven_fromClause (hu : ∀ f, e.JoinsOn f → u.joins f) (h : fromClause e = .ok sql) :
    Sql.Woven (Part b e u extra) sql := by
  obtain ⟨joins, hj, rfl⟩ := fromClause_eq_ok.1 h
  have hjoins : Sql.Woven (Part b e u extra) joins.flatten ∧ Sql.Trails joins.flatten := by
    refine Sql.Woven.flatten fun join hm => ?_
    obtain ⟨t, ht, hjoin⟩ := exists_of_mem_mapM hj hm
    exact woven_joinClause hu ht hjoin
  have hfrom : Sql.Woven (Part b e u extra) (.text "FROM " :: Sql.table e.table) :=
    woven_table.after stocked "FROM " (by decide)
  have hroot := hfrom.closed stocked s!" {TableAlias.root.text}" (by decide)
  have hall := hroot.append hjoins.1 hjoins.2
  rw [List.append_assoc] at hall
  exact hall

namespace Builder

theorem woven_sortTerm {column : ListColumn} {direction : SortDirection}
    (hu : ∀ f, e.resolve? column.data = some (.field f) → u.reads f)
    (h : b.sortTerm e column direction = .ok sql) : Sql.Woven (Part b e u extra) sql := by
  obtain ⟨target, ht, operand, ho, rfl⟩ := sortTerm_eq_ok.1 h
  have hkey : Tail s!" {direction.keyword}" := by
    cases direction with
    | asc => decide
    | desc => decide
  exact (woven_resolved ht hu ho).closed stocked _ hkey

/-- The columns that a listing is sorted by are those that its sorts point to. -/
theorem mem_sortTargets {l : Listing} {targets : List (ListColumn × SortDirection)}
    {target : ListColumn × SortDirection} (h : l.sortTargets = .ok targets)
    (hm : target ∈ targets) :
    ∃ sort ∈ l.sorts, l.columns[sort.column.toNat]? = some target.1 := by
  obtain ⟨sort, hs, htarget⟩ := exists_of_mem_mapM h hm
  unfold Listing.sortTarget at htarget
  split at htarget
  · next column hcolumn =>
    injection htarget with htarget
    exact ⟨sort, hs, htarget ▸ hcolumn⟩
  · exact absurd htarget (by simp)

theorem woven_sortTerms? {l : Option Listing} {terms : List Sql}
    (hu : ∀ l' ∈ l, ∀ f, l'.SortsBy e f → u.reads f) (h : b.sortTerms? e l = .ok terms) :
    ∀ term ∈ terms, Sql.Woven (Part b e u extra) term := by
  intro term hm
  cases l with
  | none =>
    injection h with h
    rw [← h] at hm
    exact absurd hm (by simp)
  | some l =>
    obtain ⟨targets, htargets, hterms⟩ := sortTerms_eq_ok.1 h
    obtain ⟨⟨column, direction⟩, hmem, hterm⟩ := exists_of_mem_mapM hterms hm
    obtain ⟨sort, hsort, hcolumn⟩ := mem_sortTargets htargets hmem
    exact woven_sortTerm (fun f hf => hu l rfl f ⟨sort, hsort, column, hcolumn, hf⟩) hterm

/-- A listing without sorts has no terms. -/
theorem sorts_eq_nil {l : Listing} {terms : List Sql} (h : b.sortTerms e l = .ok terms) :
    terms = [] ↔ l.sorts = [] := by
  obtain ⟨targets, htargets, hterms⟩ := sortTerms_eq_ok.1 h
  have htargetsLength := (mapM_eq_ok.1 htargets).length_eq
  have htermsLength := (mapM_eq_ok.1 hterms).length_eq
  rw [← List.length_eq_zero_iff, ← htermsLength, ← htargetsLength, List.length_eq_zero_iff]

theorem woven_windowOrder {terms : List Sql}
    (hu : terms = [] → ∀ f, e.key? = some f → u.picks f)
    (ht : ∀ term ∈ terms, Sql.Woven (Part b e u extra) term)
    (h : windowOrder e terms = .ok sql) : Sql.Woven (Part b e u extra) sql := by
  rcases windowOrder_eq_ok.1 h with ⟨hn, key, hk, rfl⟩ | ⟨_, rfl⟩
  · have hcolumn : Sql.Woven (Part b e u extra) [.column .root key.columnName] :=
      .part (.picked (Entity.mem_fields_of_key? hk) (hu hn key hk))
    exact hcolumn.closed stocked s!" {SortDirection.asc.keyword}" (by decide)
  · exact Sql.woven_list stocked ht

theorem woven_selectBody {l : Option Listing} (h : b.selectBody e l = .ok sql) :
    Sql.Woven (Part b e (Request.select e l).uses extra) sql := by
  obtain ⟨items, hi, source, hs, filter, hf, terms, ht, h⟩ := selectBody_eq_ok.1 h
  have hitems : Sql.Woven (Part b e (Request.select e l).uses extra) (Sql.items items) :=
    woven_projection (fun f hf hp => .inl ⟨hf, hp⟩) hi
  have hsource : Sql.Woven (Part b e (Request.select e l).uses extra) source :=
    woven_fromClause (fun _ hj => hj) hs
  have hfilter : ∀ c ∈ filter, Sql.Woven (Part b e (Request.select e l).uses extra) c :=
    woven_filterClause? (by rintro l' rfl f hf; exact .inr (.inl hf)) hf
  have hterms : ∀ term ∈ terms, Sql.Woven (Part b e (Request.select e l).uses extra) term :=
    woven_sortTerms? (by rintro l' rfl f hf; exact .inr (.inr hf)) ht
  rcases pagedSelect_eq_ok.1 h with ⟨_, rfl⟩ | ⟨l', hl, w, _, orderBy, ho, rfl⟩
  · exact woven_plainSelect stocked hitems hsource hfilter (Sql.woven_list stocked hterms)
  · -- a page without sorts is in the order of the key
    obtain ⟨rfl, hw⟩ := Option.filter_eq_some_iff.1 hl
    refine Dialect.woven_paginate stocked hitems hsource hfilter (woven_windowOrder ?_ hterms ho)
    exact fun hn f hk => ⟨hw, (sorts_eq_nil ht).1 hn, hk⟩

theorem woven_selectByKeyBody (h : b.selectByKeyBody e = .ok sql) :
    Sql.Woven (Part b e (Request.selectByKey e).uses extra) sql := by
  obtain ⟨items, hi, source, hs, condition, hc, rfl⟩ := selectByKeyBody_eq_ok.1 h
  refine woven_plainSelect stocked (woven_projection (fun f hf hp => .inl ⟨hf, hp⟩) hi)
    (woven_fromClause (fun _ hj => hj) hs) ?_ .nil
  intro c he
  rw [← Option.some.inj he]
  exact woven_keyCondition (fun _ hk => hk) (by simp) hc

theorem woven_selectByExampleBody {combinator : Combinator}
    (h : b.selectByExampleBody e combinator = .ok sql) :
    Sql.Woven (Part b e (Request.selectByExample e combinator).uses extra) sql := by
  obtain ⟨items, hi, source, hs, filter, hf, rfl⟩ := selectByExampleBody_eq_ok.1 h
  exact woven_plainSelect stocked (woven_projection (fun f hf hp => .inl ⟨hf, hp⟩) hi)
    (woven_fromClause (fun _ hj => hj) hs) (woven_exampleClause (fun _ hx => .inr hx) hf) .nil

theorem woven_countBody {l : Option Listing} (h : b.countBody e l = .ok sql) :
    Sql.Woven (Part b e (Request.count e l).uses extra) sql := by
  obtain ⟨source, hs, filter, hf, rfl⟩ := countBody_eq_ok.1 h
  refine woven_plainSelect stocked (.text stocked _ (by decide))
    (woven_fromClause (fun _ hj => hj) hs) (woven_filterClause? ?_ hf) .nil
  rintro l' rfl f hf
  exact .inr hf

/-! ## Writing -/

theorem woven_valueExpression {f : Field} {value : Json} (hf : f ∈ e.fields)
    (h : b.valueExpression e f value = .ok sql) : Sql.Woven (Part b e u extra) sql := by
  rcases valueExpression_eq_ok.1 h with ⟨_, rfl⟩ | ⟨_, typed, _, ⟨he, keys, hk, hc⟩ | ⟨_, rfl⟩⟩
  · refine .part (.wording ?_)
    -- each dialect has its wording for the current time of each type
    generalize f.dataType = type
    cases b.dialect <;> cases type <;> decide
  · obtain ⟨hd, hkeys⟩ := keysFor_eq_ok.1 hk
    rw [hd] at hc
    injection hc with hc
    rw [← hc]
    exact .part (.encrypted hf he hd hkeys)
  · exact .bind stocked _

/-- The links of a step are variables that the stock has. -/
def Linked (extra : Piece → Prop) (links : Links) : Prop :=
  ∀ field name, links.lookup field = some name → extra (.variable name)

theorem woven_insertEntry {links : Links} {f : Field} {column value : Sql} (hf : f ∈ e.fields)
    (hl : Linked extra links) (h : b.insertEntry e links f = .ok (some (column, value))) :
    Sql.Woven (Part b e u extra) column ∧ Sql.Woven (Part b e u extra) value := by
  have hcolumn : Sql.Woven (Part b e u extra) [.name f.columnName] := .part (.name (.column hf))
  rcases insertEntry_eq_ok.1 h with ⟨name, hn, he⟩ | ⟨_, ⟨_, he⟩ | ⟨json, _, value', hv, he⟩⟩
  · injection he with he
    injection he with hc hv
    rw [← hc, ← hv]
    exact ⟨hcolumn, .part (.extra (hl _ _ hn) trivial)⟩
  · exact absurd he (by simp)
  · injection he with he
    injection he with hc he
    rw [← hc, ← he]
    exact ⟨hcolumn, woven_valueExpression hf hv⟩

/-- What a handling of the key needs of the stock besides. -/
def Handled (extra : Piece → Prop) : KeyHandling → Prop
  | .capture name => extra (.variable name) ∧ extra (.text "; SET ")
  | _ => True

theorem keyStocked_keyReturn {handling : KeyHandling} (hh : Handled extra handling) :
    Dialect.KeyStocked (Part b e u extra) (b.keyReturn e handling) := by
  unfold keyReturn
  cases hk : e.key? with
  | none => trivial
  | some key =>
    have hkey : Sql.Woven (Part b e u extra) [.name key.columnName] :=
      .part (.name (.column (Entity.mem_fields_of_key? hk)))
    rcases handling with _ | name | _
    · refine ⟨hkey, ?_⟩
      intro output ho
      split at ho
      · rw [← Option.some.inj ho]
        exact .bind stocked _
      · exact absurd ho (by simp)
    · exact ⟨hkey, .extra hh.1 trivial, .extra hh.2 (by decide)⟩
    · trivial

theorem woven_insertBody {links : Links} {handling : KeyHandling} (hl : Linked extra links)
    (hh : Handled extra handling) (h : b.insertBody e links handling = .ok sql) :
    Sql.Woven (Part b e u extra) sql := by
  obtain ⟨entries, he, _, rfl⟩ := insertBody_eq_ok.1 h
  have hone : ∀ entry ∈ entries.filterMap id, Sql.Woven (Part b e u extra) entry.1 ∧
      Sql.Woven (Part b e u extra) entry.2 := by
    intro entry hm
    obtain ⟨f, hf, hentry⟩ := exists_of_mem_filterMap_id he hm
    exact woven_insertEntry (List.mem_of_mem_filter hf) hl hentry
  refine Dialect.woven_insert stocked woven_table ?_ ?_ (keyStocked_keyReturn hh)
  · intro column hc
    obtain ⟨entry, hm, rfl⟩ := List.mem_map.1 hc
    exact (hone entry hm).1
  · intro value hv
    obtain ⟨entry, hm, rfl⟩ := List.mem_map.1 hv
    exact (hone entry hm).2

theorem woven_assignment {links : Links} {f : Field} (hf : f ∈ e.fields) (hu : u.assigns f)
    (hl : Linked extra links) (h : b.assignment e links f = .ok sql) :
    Sql.Woven (Part b e u extra) sql := by
  obtain ⟨value, hv, rfl⟩ := assignment_eq_ok.1 h
  have hvalue : Sql.Woven (Part b e u extra) value := by
    rcases hv with ⟨name, hn, rfl⟩ | ⟨_, ⟨json, _, hv⟩ | ⟨_, rfl⟩⟩
    · exact .part (.extra (hl _ _ hn) trivial)
    · exact woven_valueExpression hf hv
    · exact .bind stocked _
  have htarget : Sql.Woven (Part b e u extra) [.target .root f.columnName] :=
    .part (.assigned hf hu)
  exact htarget.join stocked " = " (by decide) hvalue

theorem linked_keyLink? {links : Links} (hl : Linked extra links) :
    ∀ name ∈ keyLink? e links, extra (.variable name) := by
  intro name hn
  obtain ⟨key, _, hlookup⟩ := Option.bind_eq_some_iff.1 hn
  exact hl _ _ hlookup

theorem woven_updateBody {names : Option (List String)} {links : Links}
    (ha : ∀ f ∈ updateFields e names, u.assigns f) (hu : ∀ f, e.key? = some f → u.picks f)
    (hl : Linked extra links) (h : b.updateBody e names links = .ok sql) :
    Sql.Woven (Part b e u extra) sql := by
  obtain ⟨_, assignments, hassign, _, condition, hc, rfl⟩ := updateBody_eq_ok.1 h
  refine Dialect.woven_update stocked woven_table woven_alias ?_
    (woven_keyCondition hu (linked_keyLink? hl) hc)
  intro a hm
  obtain ⟨f, hf, hone⟩ := exists_of_mem_mapM hassign hm
  exact woven_assignment (List.mem_of_mem_filter (List.mem_of_mem_filter hf)) (ha f hf) hl hone

theorem woven_deleteBody {links : Links} (hu : ∀ f, e.key? = some f → u.picks f)
    (hl : Linked extra links) (h : b.deleteBody e links = .ok sql) :
    Sql.Woven (Part b e u extra) sql := by
  obtain ⟨condition, hc, rfl⟩ := deleteBody_eq_ok.1 h
  exact Dialect.woven_delete stocked woven_table woven_alias
    (woven_keyCondition hu (linked_keyLink? hl) hc)

/-! ## Aggregating -/

theorem woven_groupTerm {name : String} {term : Sql × Item}
    (hu : ∀ f, e.resolve? name = some (.field f) → u.reads f) (h : b.groupTerm e name = .ok term) :
    Sql.Woven (Part b e u extra) term.1 ∧ Sql.Woven (Part b e u extra) term.2.sql := by
  obtain ⟨target, ht, operand, ho, rfl⟩ := groupTerm_eq_ok.1 h
  have hoperand : Sql.Woven (Part b e u extra) operand := woven_resolved ht hu ho
  have hdeclared := (Entity.reaches_of_resolve? ht).declares
  exact ⟨hoperand, Sql.woven_as stocked hoperand (.name hdeclared)⟩

theorem woven_rollupItems {rollup : Option String} {items : List Item}
    (hu : ∀ name ∈ rollup, ∀ f, e.resolve? name = some (.field f) → u.reads f)
    (hl : ∀ name ∈ rollup, extra (.name (groupingName name)))
    (h : b.rollupItems e rollup = .ok items) :
    ∀ item ∈ items, Sql.Woven (Part b e u extra) item.sql := by
  intro item hm
  rcases rollupItems_eq_ok.1 h with ⟨_, rfl⟩ | ⟨name, hn, target, ht, operand, ho, rfl⟩
  · exact absurd hm (by simp)
  · rw [List.mem_singleton.1 hm]
    have hoperand : Sql.Woven (Part b e u extra) operand := woven_resolved ht (hu name hn) ho
    have hcall := (hoperand.after stocked "GROUPING(" (by decide)).closed stocked ")" (by decide)
    exact Sql.woven_as stocked hcall (.extra (hl name hn) trivial)

theorem woven_aggregateCall {c : AggregateColumn} {call : AggregateCall}
    (hu : ∀ name ∈ c.field, ∀ f, e.resolve? name = some (.field f) → u.reads f)
    (h : b.aggregateCall e c = .ok call) : Sql.Woven (Part b e u extra) call.sql := by
  rcases aggregateCall_eq_ok.1 h with ⟨_, _, rfl⟩ | ⟨name, hn, target, ht, operand, ho, rfl⟩
  · exact .text stocked "COUNT(*)" (by decide)
  · have hopen : Lead (callOpening c.function) := by
      cases c.function <;> decide
    have hoperand : Sql.Woven (Part b e u extra) operand := woven_resolved ht (hu name hn) ho
    exact (hoperand.after stocked _ hopen).closed stocked ")" (by decide)

theorem woven_havingCondition {call : AggregateCall}
    (hc : Sql.Woven (Part b e u extra) call.sql)
    (h : havingCondition call = .ok (some sql)) : Sql.Woven (Part b e u extra) sql := by
  rcases havingCondition_eq_ok.1 h with ⟨_, hn⟩ | ⟨_, _, _, comparison, _, value, _, he⟩
  · exact absurd hn (by simp)
  · rw [← Option.some.inj he]
    have hsymbol : Joint s!" {comparison.symbol} " := by
      cases comparison <;> decide
    exact hc.join stocked _ hsymbol (.bind stocked _)

theorem woven_sourceClause {source : AggregateSource} {clause : Option Sql}
    (hu : ∀ f, source.FiltersBy e f → u.reads f) (h : b.sourceClause e source = .ok clause) :
    ∀ c ∈ clause, Sql.Woven (Part b e u extra) c := by
  cases source with
  | «example» combinator => exact woven_exampleClause hu h
  | listing l =>
    intro c hc
    exact woven_filterClause hu (h.trans (congrArg _ hc))

theorem woven_callItems {a : Aggregation} {calls : List AggregateCall}
    (hl : ∀ label ∈ a.madeUp, extra (.name label))
    (hc : ∀ call ∈ calls, Sql.Woven (Part b e u extra) call.sql) :
    ∀ item ∈ callItems a calls, Sql.Woven (Part b e u extra) item.sql := by
  intro item hm
  obtain ⟨⟨call, label⟩, hp, rfl⟩ := List.mem_map.1 hm
  obtain ⟨hcall, hlabel⟩ := List.of_mem_zip hp
  exact Sql.woven_as stocked (hc call hcall)
    (.extra (hl label (List.mem_append_right _ hlabel)) trivial)

theorem woven_aggregateBody {a : Aggregation} {source : AggregateSource}
    (hl : ∀ label ∈ a.madeUp, extra (.name label))
    (h : b.aggregateBody e a source = .ok sql) :
    Sql.Woven (Part b e (Request.aggregate e a source).uses extra) sql := by
  obtain ⟨_, groups, hg, rollup, hr, calls, hc, filter, hf, having, hh, rows, hrows, rfl⟩ :=
    aggregateBody_eq_ok.1 h
  have hreads : ∀ name, (name ∈ groupNames a ∨ ∃ c ∈ a.columns, c.field = some name) →
      ∀ f, e.resolve? name = some (.field f) → (Request.aggregate e a source).uses.reads f :=
    fun name hn f hf => .inr (.inl ⟨name, hn, hf⟩)
  have hgroups : ∀ term ∈ groups,
      Sql.Woven (Part b e (Request.aggregate e a source).uses extra) term.1 ∧
        Sql.Woven (Part b e (Request.aggregate e a source).uses extra) term.2.sql := by
    intro term hm
    obtain ⟨name, hn, hterm⟩ := exists_of_mem_mapM hg hm
    exact woven_groupTerm (hreads name (.inl hn)) hterm
  have hmark : ∀ name ∈ a.rollup, extra (.name (groupingName name)) := by
    intro name hn
    refine hl _ (List.mem_append_left _ ?_)
    rw [Option.mem_toList, Option.map_eq_some_iff]
    exact ⟨name, hn, rfl⟩
  have hcalls : ∀ call ∈ calls,
      Sql.Woven (Part b e (Request.aggregate e a source).uses extra) call.sql := by
    intro call hm
    obtain ⟨c, hcolumn, hcall⟩ := exists_of_mem_mapM hc hm
    exact woven_aggregateCall (fun name hn => hreads name (.inr ⟨c, hcolumn, hn⟩)) hcall
  have hitems : Sql.Woven (Part b e (Request.aggregate e a source).uses extra)
      (Sql.items (groups.map Prod.snd ++ rollup ++ callItems a calls)) := by
    refine woven_items ?_
    intro item hi
    rcases List.mem_append.1 hi with hi | hi
    · rcases List.mem_append.1 hi with hi | hi
      · obtain ⟨term, hm, rfl⟩ := List.mem_map.1 hi
        exact (hgroups term hm).2
      · have hrollup := fun name hn => hreads name (.inl (Aggregation.mem_groupNames hn))
        exact woven_rollupItems hrollup hmark hr item hi
    · exact woven_callItems hl hcalls item hi
  -- the parts are put together in the order of the statement
  have hselect := hitems.after stocked "SELECT " (by decide)
  have hrowsql := hselect.join stocked " " (by decide) (woven_fromClause (fun _ hj => hj) hrows)
  have hwhere := hrowsql.append
    (Sql.woven_whereSuffix stocked (woven_sourceClause (fun _ hs => .inr (.inr hs)) hf))
    Sql.trails_whereSuffix
  have hterms : ∀ term ∈ groups.map Prod.fst,
      Sql.Woven (Part b e (Request.aggregate e a source).uses extra) term := by
    intro term hm
    obtain ⟨pair, hp, rfl⟩ := List.mem_map.1 hm
    exact (hgroups pair hp).1
  refine woven_havingSuffix stocked (woven_groupSuffix stocked hwhere hterms) ?_
  intro condition hm
  obtain ⟨call, hcall, hcond⟩ := exists_of_mem_filterMap_id hh hm
  exact woven_havingCondition (hcalls call hcall) hcond

/-! ## Batches -/

/-- Text that stands around the steps of a batch, or around what an open key is used for. -/
def Framed (s : String) : Prop :=
  ∀ c ∈ s.toList, isPlain c = true ∨ c ∈ [';', '\n', '[', ']']

instance (s : String) : Decidable (Framed s) := List.decidableBAll _ s.toList

/-- What a step of a batch adds to the stock: the variables, and how its key comes into its own. -/
inductive StepAdds (b : Builder) (steps : List BatchStep) : Piece → Prop where
  | kept {p : Nat × String} : p ∈ b.keyVariables steps → StepAdds b steps (.variable p.2)
  | capture : StepAdds b steps (.text "; SET ")

/-- What a batch adds to the stock: its variables, and the frame around its steps. -/
inductive BatchAdds (b : Builder) (steps : List BatchStep) : Piece → Prop where
  | kept {p : Nat × String} : p ∈ b.keyVariables steps → BatchAdds b steps (.variable p.2)
  | frame {s : String} : Framed s → BatchAdds b steps (.text s)
  | assign : BatchAdds b steps (.text " := ")

theorem StepAdds.batchAdds {steps : List BatchStep} {p : Piece} (h : StepAdds b steps p) :
    BatchAdds b steps p := by
  cases h with
  | kept hv => exact .kept hv
  | capture => exact .frame (by decide)

theorem keyVariablesFrom_names {d : Dialect} {steps : List BatchStep} {step count : Nat} :
    ∀ p ∈ keyVariablesFrom d step count steps, ∃ k, p.2 = d.batchVariable k := by
  induction steps generalizing step count with
  | nil => simp [keyVariablesFrom]
  | cons s rest ih =>
    intro p hp
    unfold keyVariablesFrom at hp
    split at hp
    · rcases List.mem_cons.1 hp with rfl | hp
      · exact ⟨count, rfl⟩
      · exact ih p hp
    · exact ih p hp

theorem toList_batchVariable (k : Nat) :
    (Dialect.sqlServer.batchVariable k).toList = '@' :: (s!"id{k}").toList := by
  show ("@id" ++ toString k).toList = '@' :: ("id" ++ toString k).toList
  rw [String.toList_append, String.toList_append]
  rfl

theorem flat_bareName (d : Dialect) (k : Nat) : Flat (Dialect.bareName (d.batchVariable k)) := by
  unfold Dialect.bareName
  cases d with
  | sqlServer =>
    have hid : Flat s!"id{k}" := Flat.append (by decide) (flat_nat k)
    rw [toList_batchVariable, List.dropWhile_cons_of_pos (by decide)]
    exact hid.of_subset (by rw [String.toList_ofList]; exact List.dropWhile_subset _)
  | oracle =>
    have hname : Flat s!"v_id{k}" := Flat.append (by decide) (flat_nat k)
    exact hname.of_subset (by rw [String.toList_ofList]; exact List.dropWhile_subset _)

/-- What holds of the variables that links look up holds of all that are added for them. -/
theorem linked_of_addLinks {keyed : KeyVariables} {index : Nat} {e : Entity} {P : String → Prop}
    {added : List KeyLink} {before links : Links} (hb : ∀ p ∈ before, P p.2)
    (ha : ∀ link ∈ added, ∀ name, keyed.lookup link.step = some name → P name)
    (h : added.foldlM (addLink keyed index e) before = .ok links) :
    ∀ p ∈ links, P p.2 := by
  induction added generalizing before with
  | nil =>
    rw [List.foldlM_nil, pure_eq_ok] at h
    rw [← h]
    exact hb
  | cons link rest ih =>
    rw [List.foldlM_cons, bind_eq_ok] at h
    obtain ⟨next, hn, h⟩ := h
    refine ih ?_ (fun link hm => ha link (List.mem_cons_of_mem _ hm)) h
    -- a link adds a variable when the step it refers to keeps its key
    unfold addLink at hn
    split at hn
    · exact absurd hn (by simp)
    split at hn
    · next name hlook =>
      injection hn with hn
      rw [← hn]
      intro p hp
      rcases List.mem_cons.1 hp with rfl | hp
      · exact ha link List.mem_cons_self name hlook
      · exact hb p hp
    · injection hn with hn
      rw [← hn]
      exact hb

theorem woven_stepBody {steps : List BatchStep} {step : BatchStep} {index : Nat}
    (hm : step ∈ steps) (h : b.stepBody (b.keyVariables steps) step index = .ok sql) :
    Sql.Woven (Part b step.entity (Request.batch steps).uses (StepAdds b steps)) sql := by
  obtain ⟨_, links, hl, h⟩ := stepBody_eq_ok.1 h
  have hlinked : Linked (StepAdds b steps) links := by
    intro field name hlook
    obtain ⟨l₁, l₂, hk, _⟩ := List.lookup_eq_some_iff.1 hlook
    refine linked_of_addLinks (P := fun name => StepAdds b steps (.variable name)) (by simp)
      (fun link _ name hlook => ?_) hl (field, name) (by rw [hk]; simp)
    obtain ⟨l₁, l₂, hk, _⟩ := List.lookup_eq_some_iff.1 hlook
    exact .kept (p := (link.step, name)) (by rw [hk]; simp)
  -- an insert keeps its key in its variable, if it has one
  rcases h with ⟨_, h⟩ | ⟨ho, h⟩ | ⟨ho, h⟩
  · refine woven_insertBody hlinked ?_ h
    split
    · next name hlook =>
      obtain ⟨l₁, l₂, hk, _⟩ := List.lookup_eq_some_iff.1 hlook
      exact ⟨.kept (p := (index, name)) (by rw [hk]; simp), .capture⟩
    · trivial
  · exact woven_updateBody (fun f hf => ⟨step, hm, ho, hf⟩)
      (fun f hf => ⟨step, hm, by rw [ho]; decide, hf⟩) hlinked h
  · exact woven_deleteBody (fun f hf => ⟨step, hm, by rw [ho]; decide, hf⟩) hlinked h

/-- The parts of a batch: those of each of its steps. -/
def StepParts (b : Builder) (steps : List BatchStep) (a : Sql) : Prop :=
  ∃ step ∈ steps, Part b step.entity (Request.batch steps).uses (BatchAdds b steps) a

/-- What a line of a batch is: fixed wording, the declaration of a variable, a fragment, or what
hands variables out. -/
inductive BatchLine (parts : BatchParts) : Dialect → Sql → Prop where
  | transaction {s : String} :
      s ∈ ["SET XACT_ABORT ON;", "BEGIN TRANSACTION;", "COMMIT TRANSACTION;"] →
      BatchLine parts .sqlServer [.text s]
  | block {s : String} : s ∈ ["DECLARE", "BEGIN", "  COMMIT;", "END;"] →
      BatchLine parts .oracle [.text s]
  | bigint {v : BatchVariable} : v ∈ parts.keyVariables →
      BatchLine parts .sqlServer [.text "DECLARE ", .variable v.name, .text " BIGINT;"]
  | number {v : BatchVariable} : v ∈ parts.keyVariables →
      BatchLine parts .oracle [.text "  ", .variable v.name, .text " NUMBER;"]
  | ended {fragment : Sql} : fragment ∈ parts.fragments →
      BatchLine parts .sqlServer (fragment ++ [.text ";"])
  | indented {fragment : Sql} : fragment ∈ parts.fragments →
      BatchLine parts .oracle (.text "  " :: fragment ++ [.text ";"])
  | selected : BatchLine parts .sqlServer (.text "SELECT " ::
      Sql.list (parts.keyVariables.map fun v =>
        [.variable v.name, .text s!" AS {Dialect.bareName v.name}"]) ++ [.text ";"])
  | handedOut {v : BatchVariable} {output : Sql} : v ∈ parts.keyVariables → output ∈ v.output →
      BatchLine parts .oracle
        (.text "  " :: output ++ [.text " := ", .variable v.name, .text ";"])

theorem batchLine_of_mem {d : Dialect} {parts : BatchParts} {line : Sql}
    (h : line ∈ d.batchLines parts) : BatchLine parts d line := by
  unfold Dialect.batchLines at h
  cases d with
  | sqlServer =>
    simp only [List.mem_append, List.mem_cons, List.mem_map, List.not_mem_nil, or_false] at h
    rcases h with (((((rfl | rfl) | ⟨v, hv, rfl⟩) | ⟨fragment, hm, rfl⟩) | rfl) | h)
    · exact .transaction (by decide)
    · exact .transaction (by decide)
    · exact .bigint hv
    · exact .ended hm
    · exact .transaction (by decide)
    · split at h
      · exact absurd h (by simp)
      · rw [List.mem_singleton.1 h]
        exact .selected
  | oracle =>
    simp only [List.mem_append, List.mem_cons, List.mem_map, List.mem_filterMap,
      List.not_mem_nil, or_false] at h
    rcases h with (((((h | rfl) | ⟨fragment, hm, rfl⟩) | rfl) | ⟨v, hv, hout⟩) | rfl)
    · split at h
      · exact absurd h (by simp)
      · rcases List.mem_cons.1 h with rfl | h
        · exact .block (by decide)
        · obtain ⟨v, hv, rfl⟩ := List.mem_map.1 h
          exact .number hv
    · exact .block (by decide)
    · exact .indented hm
    · exact .block (by decide)
    · obtain ⟨output, ho, rfl⟩ := Option.map_eq_some_iff.1 hout
      exact .handedOut hv ho
    · exact .block (by decide)

section Lines

variable {steps : List BatchStep} {a : Sql}

theorem stepParts_adds (hs : steps ≠ []) {p : Piece} (h : BatchAdds b steps p) (hk : p.Keyless) :
    StepParts b steps [p] := by
  obtain ⟨step, hm⟩ := List.exists_mem_of_ne_nil steps hs
  exact ⟨step, hm, .extra h hk⟩

theorem stepParts_frame (hs : steps ≠ []) (s : String) (hf : Framed s) (hk : Text.Keyless s) :
    StepParts b steps [.text s] :=
  stepParts_adds hs (.frame hf) hk

theorem woven_frame (hs : steps ≠ []) (s : String) (hf : Framed s) (hk : Text.Keyless s) :
    Sql.Woven (StepParts b steps) [.text s] :=
  .part (stepParts_frame hs s hf hk)

/-- A part of a batch between two frames. -/
theorem woven_framed (hs : steps ≠ []) (ha : Sql.Woven (StepParts b steps) a)
    (before after : String) (hb : Framed before ∧ Text.Keyless before ∧ Text.ends before = true)
    (hf : Framed after ∧ Text.Keyless after ∧ Text.starts after = true) :
    Sql.Woven (StepParts b steps) (.text before :: a ++ [.text after]) :=
  .append (.before (stepParts_frame hs before hb.1 hb.2.1) hb.2.2 ha)
    (woven_frame hs after hf.1 hf.2.1) (Sql.trails_text hf.2.2)

theorem woven_fragment {fragments : List Sql}
    (h : steps.zipIdx.mapM (fun (step, index) => b.stepBody (b.keyVariables steps) step index)
      = .ok fragments) :
    ∀ fragment ∈ fragments, Sql.Woven (StepParts b steps) fragment := by
  intro fragment hm
  obtain ⟨⟨step, index⟩, hmem, hstep⟩ := exists_of_mem_mapM h hm
  have hin : step ∈ steps := List.fst_mem_of_mem_zipIdx hmem
  exact (woven_stepBody hin hstep).mono fun a _ ha =>
    ⟨step, hin, ha.weaken fun _ hp => hp.batchAdds⟩

/-- The variables of a batch as its template takes them. -/
def templateVariables (b : Builder) (steps : List BatchStep) : List BatchVariable :=
  (b.keyVariables steps).map fun (_, name) => b.batchVariable name

theorem woven_templateVariable (hs : steps ≠ []) {v : BatchVariable}
    (h : v ∈ b.templateVariables steps) :
    Sql.Woven (StepParts b steps) [.variable v.name] ∧ Flat (Dialect.bareName v.name) ∧
      ∀ output ∈ v.output, Sql.Woven (StepParts b steps) output := by
  obtain ⟨p, hp, rfl⟩ := List.mem_map.1 h
  obtain ⟨k, hk⟩ := keyVariablesFrom_names p hp
  refine ⟨.part (stepParts_adds hs (.kept hp) trivial), ?_, ?_⟩
  · have hflat := flat_bareName b.dialect k
    rw [← hk] at hflat
    exact hflat
  · intro output ho
    unfold batchVariable at ho
    dsimp only at ho
    split at ho
    · obtain ⟨step, hm⟩ := List.exists_mem_of_ne_nil steps hs
      rw [← Option.some.inj ho]
      exact .part ⟨step, hm, .binding⟩
    · exact absurd ho (by simp)

theorem woven_batchLines (hs : steps ≠ []) {fragments : List Sql}
    (hf : ∀ fragment ∈ fragments, Sql.Woven (StepParts b steps) fragment) :
    ∀ line ∈ b.dialect.batchLines ⟨b.templateVariables steps, fragments⟩,
      Sql.Woven (StepParts b steps) line := by
  have hA : Sql.Stocked (StepParts b steps) := by
    obtain ⟨step, hm⟩ := List.exists_mem_of_ne_nil steps hs
    exact ⟨fun s h => ⟨step, hm, .wording h⟩, fun x => ⟨step, hm, .binding⟩⟩
  have hvar := fun v hv => woven_templateVariable (b := b) hs (v := v) hv
  have htransaction : ∀ s ∈ ["SET XACT_ABORT ON;", "BEGIN TRANSACTION;", "COMMIT TRANSACTION;"],
      Framed s ∧ Text.Keyless s := by decide
  have hblock : ∀ s ∈ ["DECLARE", "BEGIN", "  COMMIT;", "END;"], Framed s ∧ Text.Keyless s := by
    decide
  intro line hl
  have hline := batchLine_of_mem hl
  generalize b.dialect = d at hline
  cases hline with
  | transaction hm => exact woven_frame hs _ (htransaction _ hm).1 (htransaction _ hm).2
  | block hm => exact woven_frame hs _ (hblock _ hm).1 (hblock _ hm).2
  | bigint hv => exact woven_framed hs (hvar _ hv).1 "DECLARE " " BIGINT;" (by decide) (by decide)
  | number hv => exact woven_framed hs (hvar _ hv).1 "  " " NUMBER;" (by decide) (by decide)
  | ended hm =>
    exact (hf _ hm).append (woven_frame hs ";" (by decide) (by decide))
      (Sql.trails_text (by decide))
  | indented hm => exact woven_framed hs (hf _ hm) "  " ";" (by decide) (by decide)
  | selected =>
    refine woven_framed hs (Sql.woven_list hA ?_) "SELECT " ";" (by decide) (by decide)
    intro part hp
    obtain ⟨v, hv, rfl⟩ := List.mem_map.1 hp
    have hname : Flat s!" AS {Dialect.bareName v.name}" :=
      Flat.append (by decide) (hvar v hv).2.1
    exact (hvar v hv).1.closed hA _ ⟨hname.wording, Text.starts_append (by decide) _⟩
  | handedOut hv ho =>
    have hin := ((hvar _ hv).2.2 _ ho).after hA "  " (by decide)
    have hvariable := (hvar _ hv).1.append (woven_frame hs ";" (by decide) (by decide))
      (Sql.trails_text (by decide))
    exact hin.glue (stepParts_adds hs .assign (by decide)) rfl rfl hvariable

theorem woven_batchBody {steps : List BatchStep} (h : b.batchBody steps = .ok sql) :
    Sql.Woven (StepParts b steps) sql := by
  obtain ⟨hs, _, fragments, hf, rfl⟩ := batchBody_eq_ok.1 h
  refine .joined (stepParts_frame hs "\n" (by decide) (by decide)) rfl rfl ?_
  exact woven_batchLines hs (woven_fragment hf)

end Lines

end Builder

/-! ## Requests -/

/-- What a request adds to the stock of its entities. -/
inductive Request.Adds (b : Builder) : Request → Piece → Prop where
  | label {e : Entity} {a : Aggregation} {source : AggregateSource} {n : String} :
      n ∈ a.madeUp → Adds b (.aggregate e a source) (.name n)
  | batch {steps : List BatchStep} {p : Piece} :
      Builder.BatchAdds b steps p → Adds b (.batch steps) p

/-- The parts of a request: those of each of its entities, with the uses that it has for fields. -/
def Request.Parts (b : Builder) (r : Request) (a : Sql) : Prop :=
  ∃ e ∈ r.entities, Part b e r.uses (r.Adds b) a

namespace Builder

/-- **Every body is woven from the parts of its request.** -/
theorem woven_body {r : Request} (h : b.body r = .ok sql) : Sql.Woven (r.Parts b) sql := by
  have hone : ∀ {e : Entity}, e ∈ r.entities → Sql.Woven (Part b e r.uses (r.Adds b)) sql →
      Sql.Woven (r.Parts b) sql := fun he hw => hw.mono fun _ _ ha => ⟨_, he, ha⟩
  have hnone : Linked (r.Adds b) [] := by
    intro field name hlook
    exact absurd hlook (by simp)
  cases r with
  | select e l => exact hone (List.mem_singleton.2 rfl) (woven_selectBody h)
  | count e l => exact hone (List.mem_singleton.2 rfl) (woven_countBody h)
  | selectByKey e => exact hone (List.mem_singleton.2 rfl) (woven_selectByKeyBody h)
  | selectByExample e combinator =>
    exact hone (List.mem_singleton.2 rfl) (woven_selectByExampleBody h)
  | insert e =>
    have hreturn : Handled ((Request.insert e).Adds b) .return := trivial
    exact hone (List.mem_singleton.2 rfl) (woven_insertBody hnone hreturn h)
  | update e =>
    exact hone (List.mem_singleton.2 rfl)
      (woven_updateBody (fun _ hf => hf) (fun _ hk => hk) hnone h)
  | updateProperties e names =>
    exact hone (List.mem_singleton.2 rfl)
      (woven_updateBody (fun _ hf => hf) (fun _ hk => hk) hnone h)
  | delete e =>
    exact hone (List.mem_singleton.2 rfl) (woven_deleteBody (fun _ hk => hk) hnone h)
  | aggregate e a source =>
    exact hone (List.mem_singleton.2 rfl) (woven_aggregateBody (fun _ hl => .label hl) h)
  | batch steps =>
    refine (woven_batchBody h).mono ?_
    rintro a _ ⟨step, hm, ha⟩
    exact ⟨step.entity, List.mem_map_of_mem hm, ha.weaken fun _ hp => .batch hp⟩

/-! ## Finished statements -/

theorem framed_dropSemicolons {s : String} (h : Framed s) : Framed (Sql.dropSemicolons s) :=
  fun c hc => h c ((Sql.dropSemicolons_prefix s).subset hc)

/-- What a request adds of its own has what is left of it without semicolons, too. -/
theorem adds_dropSemicolons {r : Request} {s : String} (h : r.Adds b (.text s)) :
    r.Adds b (.text (Sql.dropSemicolons s)) := by
  cases h with
  | batch ha =>
    cases ha with
    | frame hf => exact .batch (.frame (framed_dropSemicolons hf))
    | assign => exact .batch .assign

end Builder

/-- The parts of a finished statement: those of its request, and the frames of an open key. -/
def Request.FinishedParts (b : Builder) (r : Request) (a : Sql) : Prop :=
  r.Parts b a ∨ ∃ keys, b.config.encryption = some keys ∧
    (a = [.text (Dialect.keyOpening keys)] ∨ a = [.text (Dialect.keyClosing keys)])

theorem Dialect.ends_keyOpening (keys : EncryptionKeys) : Text.ends (keyOpening keys) = true :=
  Text.ends_append _ (by decide)

theorem Dialect.starts_keyClosing (keys : EncryptionKeys) : Text.starts (keyClosing keys) = true :=
  Text.starts_append (Text.starts_append (s := ";\nCLOSE SYMMETRIC KEY ") (by decide) _) _

/-- **Every answer is woven from the parts of its request**, and the frames of an open key. -/
theorem Builder.woven_run {r : Request} {s : Statement} (h : b.run r = .ok s) :
    Sql.Woven (r.FinishedParts b) s.sql := by
  obtain ⟨_, sql, hb, hf⟩ := run_eq_ok h
  have hbody : Sql.Woven (r.FinishedParts b) sql := (woven_body hb).mono fun _ _ ha => .inl ha
  rcases finish_cases hf with ⟨_, rfl⟩ | ⟨_, _, keys, hk, rfl⟩
  · exact hbody
  · have hinner : Sql.Woven (r.Parts b) sql.withoutSemicolons := by
      refine (woven_body hb).withoutSemicolons ?_
      rintro a ⟨e, he, ha⟩
      exact (ha.withoutSemicolons fun _ hs => adds_dropSemicolons hs).mono fun _ _ ha => ⟨e, he, ha⟩
    have hopening : r.FinishedParts b [.text (Dialect.keyOpening keys)] :=
      .inr ⟨keys, hk, .inl rfl⟩
    have hclosing : r.FinishedParts b [.text (Dialect.keyClosing keys)] :=
      .inr ⟨keys, hk, .inr rfl⟩
    exact .append (.before hopening (Dialect.ends_keyOpening keys)
      (hinner.mono fun _ _ ha => .inl ha)) (.part hclosing)
      (Sql.trails_text (Dialect.starts_keyClosing keys))

end RecordSql
