import RecordSql.Proofs.Stock

/-!
# Which names reach a statement

Every name in a statement is an identifier, but for the names that an aggregate makes up: the
aliases of its functions, which nothing checks, and the mark of a rollup, which is checked without
its ending. So a statement is as safe as these names are, and no safer.

The same is said of the text. With names unquoted and nothing encrypted, a statement other than a
batch consists of the characters of wording, of placeholders and of identifiers, as long as the
aliases of functions do.
-/

namespace RecordSql

open Text Checked

/-! ## Names in a statement -/

/-- The name that a piece puts into the text, its table's alias apart. -/
def Piece.name? : Piece → Option String
  | .name n => some n
  | .column _ n => some n
  | .target _ n => some n
  | _ => none

/-- The names in a statement. -/
def Sql.names (sql : Sql) : List String := sql.filterMap Piece.name?

namespace Sql

variable {sql : Sql} {n : String}

theorem mem_names : n ∈ sql.names ↔ ∃ p ∈ sql, p.name? = some n := List.mem_filterMap

theorem names_append (a c : Sql) : (a ++ c).names = a.names ++ c.names := List.filterMap_append

theorem names_withoutSemicolons (sql : Sql) : sql.withoutSemicolons.names = sql.names := by
  induction sql using List.reverseRecOn with
  | nil => rfl
  | append_singleton init p ih =>
    by_cases ht : ∃ s, p = .text s
    · -- a text that is dropped has no name in it
      obtain ⟨s, rfl⟩ := ht
      rw [withoutSemicolons_text]
      split
      · rw [ih, names_append]
        exact (List.append_nil _).symm
      · rw [names_append, names_append]
        rfl
    · rw [withoutSemicolons_of_ne_text init fun s he => ht ⟨s, he⟩]

end Sql

variable {b : Builder} {e : Entity} {r : Request} {s : Statement} {sql : Sql}

/-- Opening a key adds no name. -/
theorem Builder.names_finish (h : b.finish sql = .ok s) : s.sql.names = sql.names := by
  rcases finish_cases h with ⟨_, rfl⟩ | ⟨_, _, keys, _, rfl⟩
  · rfl
  · have hnames := Sql.names_withoutSemicolons sql
    show (sql.withoutSemicolons ++ _).filterMap Piece.name? = _
    rw [List.filterMap_append, ← hnames]
    exact List.append_nil _

/-- A name in stock is declared, or added by the request. -/
theorem Supplied.declares_or_extra {extra : Piece → Prop} {p : Piece} {n : String}
    (h : Supplied b e extra p) (hn : p.name? = some n) : e.Declares n ∨ extra p := by
  cases h with
  | wording _ => exact absurd hn (by simp [Piece.name?])
  | binding => exact absurd hn (by simp [Piece.name?])
  | field hf =>
    rw [← Option.some.inj hn]
    exact .inl (.column hf)
  | pulled ht hc =>
    rw [← Option.some.inj hn]
    exact .inl (.pulled ht hc)
  | onColumn ht =>
    rw [← Option.some.inj hn]
    exact .inl (.onColumn ht)
  | target hf =>
    rw [← Option.some.inj hn]
    exact .inl (.column hf)
  | name hd =>
    rw [← Option.some.inj hn]
    exact .inl hd
  | decrypt _ => exact absurd hn (by simp [Piece.name?])
  | encrypt _ _ => exact absurd hn (by simp [Piece.name?])
  | extra he => exact .inr he

theorem Request.Adds.mem_madeUp {p : Piece} {n : String} (h : r.Adds b p) (hn : p.name? = some n) :
    n ∈ r.madeUp := by
  cases h with
  | label hl =>
    rw [← Option.some.inj hn]
    exact hl
  | batch ha =>
    cases ha with
    | kept _ => exact absurd hn (by simp [Piece.name?])
    | frame _ => exact absurd hn (by simp [Piece.name?])
    | assign => exact absurd hn (by simp [Piece.name?])

/-- Every name is that of a checked entity, or one that the request makes up. -/
theorem Builder.names_body (hc : ∀ e ∈ r.entities, e.check = .ok ()) (h : b.body r = .ok sql)
    {n : String} (hn : n ∈ sql.names) : Identifier.check n = .ok () ∨ n ∈ r.madeUp := by
  obtain ⟨p, hp, hname⟩ := Sql.mem_names.1 hn
  obtain ⟨e, he, hs⟩ := (formed_body h).stock p hp
  rcases hs.declares_or_extra hname with hd | ha
  · exact .inl (hd.check (hc e he))
  · exact .inr (ha.mem_madeUp hname)

/-! ## Made-up names are there -/

namespace Builder

variable {a : Aggregation}

theorem mem_names_joined {separator : String} {parts : List Sql} {part : Sql} {n : String}
    (hp : part ∈ parts) (hn : n ∈ part.names) : n ∈ (Sql.joined separator parts).names := by
  have hpart : part <:+: Sql.joined separator parts := Sql.infix_joined hp
  exact (hpart.sublist.filterMap _).subset hn

theorem mem_names_items {items : List Item} {value : Sql} {label : String}
    (h : .labelled value label ∈ items) : label ∈ (Sql.items items).names := by
  refine mem_names_joined (List.mem_map_of_mem h) ?_
  show label ∈ (value ++ Sql.as label).names
  rw [Sql.names_append]
  exact List.mem_append_right _ (List.mem_singleton.2 rfl)

/-- A body of an aggregate has every name that the aggregate makes up. -/
theorem mem_names_aggregateBody {source : AggregateSource} {n : String}
    (h : b.aggregateBody e a source = .ok sql) (hn : n ∈ a.madeUp) : n ∈ sql.names := by
  obtain ⟨_, groups, _, rollup, hr, calls, hc, _, _, _, _, _, _, rfl⟩ := aggregateBody_eq_ok.1 h
  have hitem : ∃ value, .labelled value n ∈ groups.map Prod.snd ++ rollup ++ callItems a calls := by
    rcases List.mem_append.1 hn with hn | hn
    · rw [Option.mem_toList, Option.map_eq_some_iff] at hn
      obtain ⟨name, hroll, rfl⟩ := hn
      rcases rollupItems_eq_ok.1 hr with ⟨hnone, _⟩ | ⟨name', hroll', _, _, operand, _, rfl⟩
      · rw [hnone] at hroll
        exact absurd hroll (by simp)
      · rw [Option.some.inj (hroll.symm.trans hroll')]
        exact ⟨.text "GROUPING(" :: operand ++ [.text ")"],
          List.mem_append_left _ (List.mem_append_right _ (List.mem_singleton.2 rfl))⟩
    · -- there are as many calls as aliases, so each alias has its call
      have hlength : calls.length = a.resolvedAliases.length :=
        (mapM_eq_ok.1 hc).length_eq.symm.trans (Aggregation.resolvedAliases_forall₂ a).length_eq
      obtain ⟨i, hi, hget⟩ := List.getElem_of_mem hn
      have hpair : (calls[i], n) ∈ calls.zip a.resolvedAliases := by
        rw [List.mem_iff_getElem]
        refine ⟨i, by rw [List.length_zip, hlength, Nat.min_self]; exact hi, ?_⟩
        rw [List.getElem_zip, hget]
      exact ⟨calls[i].sql, List.mem_append_right _ (List.mem_map.2 ⟨_, hpair, rfl⟩)⟩
  obtain ⟨value, hitem⟩ := hitem
  -- all items stand at the head of the body
  have hhead : n ∈ Sql.names (.text "SELECT " ::
      Sql.items (groups.map Prod.snd ++ rollup ++ callItems a calls)) := mem_names_items hitem
  rw [Sql.names_append, Sql.names_append, Sql.names_append, Sql.names_append]
  exact List.mem_append_left _ (List.mem_append_left _ (List.mem_append_left _
    (List.mem_append_left _ hhead)))

theorem mem_names_body (h : b.body r = .ok sql) {n : String} (hn : n ∈ r.madeUp) :
    n ∈ sql.names := by
  cases r with
  | aggregate e a source => exact mem_names_aggregateBody h hn
  | _ => exact absurd hn (by simp [Request.madeUp])

end Builder

/-! ## Characters of a statement -/

namespace Text

/-- The characters of wording, of placeholders and of identifiers. -/
def isStatementChar (c : Char) : Bool := isPlain c || c = ':' || c = '@'

/-- A text of such characters. -/
def Clean (s : String) : Prop := ∀ c ∈ s.toList, isStatementChar c = true

theorem Plain.clean {s : String} (h : Plain s) : Clean s := by
  intro c hc
  unfold isStatementChar
  rw [h c hc]
  rfl

theorem Clean.append {s t : String} (hs : Clean s) (ht : Clean t) : Clean (s ++ t) := by
  intro c hc
  rw [String.toList_append] at hc
  rcases List.mem_append.1 hc with h | h
  · exact hs c h
  · exact ht c h

theorem Clean.of_append {s t : String} (h : Clean (s ++ t)) : Clean s := by
  intro c hc
  refine h c ?_
  rw [String.toList_append]
  exact List.mem_append_left _ hc

theorem clean_placeholder (d : Dialect) (n : Nat) : Clean (d.placeholder (parameterName n)) := by
  have hname : Plain (parameterName n) := Plain.append (by decide) (plain_nat n)
  have hmark : Clean "@" ∧ Clean ":" := by
    constructor
    · intro c hc
      have he : c = '@' := by simpa using hc
      rw [he]
      rfl
    · intro c hc
      have he : c = ':' := by simpa using hc
      rw [he]
      rfl
  cases d with
  | sqlServer => exact hmark.1.append hname.clean
  | oracle => exact hmark.2.append hname.clean

end Text

namespace Sql

variable {style : Style}

/-- A character of a statement is one of its pieces'. -/
theorem exists_of_mem_charsFrom {c : Char} {n : Nat} (h : c ∈ charsFrom style n sql) :
    ∃ p ∈ sql, ∃ k, c ∈ (p.write style k).toList := by
  induction sql generalizing n with
  | nil => exact absurd h (by simp [charsFrom])
  | cons p rest ih =>
    obtain ⟨m, hm⟩ := exists_charsFrom_cons style p rest n
    rw [hm] at h
    rcases List.mem_append.1 h with h | h
    · exact ⟨p, List.mem_cons_self, n, h⟩
    · obtain ⟨q, hq, k, hk⟩ := ih h
      exact ⟨q, List.mem_cons_of_mem _ hq, k, hk⟩

theorem mem_write_of_name? {p : Piece} {c : Char} {name : String} (hq : style.quoted = false)
    (hn : p.name? = some name) (hc : c ∈ name.toList) (n : Nat) :
    c ∈ (p.write style n).toList := by
  have hid : style.identifier name = name := by
    unfold Style.identifier
    rw [hq]
    rfl
  have hqualified : ∀ table, c ∈ (style.qualified table name).toList := by
    intro table
    unfold Style.qualified
    rw [hid, String.toList_append]
    exact List.mem_append_right _ hc
  cases p with
  | name m =>
    rw [Option.some.inj hn, Piece.write, hid]
    exact hc
  | column table m =>
    rw [Option.some.inj hn]
    exact hqualified table
  | target table m =>
    rw [Option.some.inj hn]
    exact hqualified table
  | _ => exact absurd hn (by simp [Piece.name?])

/-- A name stands in the text letter by letter, when names are not quoted. -/
theorem mem_charsFrom_of_mem_names {c : Char} {name : String} {n : Nat} (hq : style.quoted = false)
    (hn : name ∈ sql.names) (hc : c ∈ name.toList) : c ∈ charsFrom style n sql := by
  induction sql generalizing n with
  | nil => exact absurd hn (by simp [names])
  | cons p rest ih =>
    obtain ⟨q, hm, hname⟩ := mem_names.1 hn
    obtain ⟨m, hcons⟩ := exists_charsFrom_cons style p rest n
    rw [hcons]
    rcases List.mem_cons.1 hm with rfl | hm
    · exact List.mem_append_left _ (mem_write_of_name? hq hname hc n)
    · exact List.mem_append_right _ (ih (mem_names.2 ⟨q, hm, hname⟩))

end Sql

namespace Builder

/-- Without an encrypted field no key is opened. -/
theorem needsKey_body (he : ∀ e ∈ r.entities, ¬ e.HasEncrypted) (h : b.body r = .ok sql) :
    sql.needsKey = false := by
  unfold Sql.needsKey
  rw [List.any_eq_false]
  intro p hp
  obtain ⟨e, hm, hs⟩ := (formed_body h).stock p hp
  -- only the texts of encryption need a key
  cases hs with
  | decrypt hd => exact absurd hd (he e hm)
  | encrypt hd _ => exact absurd hd (he e hm)
  | extra ha =>
    cases ha with
    | label _ => simp [Piece.isKeyed]
    | batch ha => cases ha <;> simp [Piece.isKeyed]
  | _ => simp [Piece.isKeyed]

/-- The pieces of a statement without batches and encryption are clean, if made-up names are. -/
theorem clean_stock (hb : ∀ steps, r ≠ .batch steps) (hq : b.config.quoteIdentifiers = false)
    (hc : ∀ e ∈ r.entities, e.check = .ok ()) (he : ∀ e ∈ r.entities, ¬ e.HasEncrypted)
    (hl : ∀ n ∈ r.madeUp, Clean n) {p : Piece} (h : r.Stock b p) (n : Nat) :
    Clean (p.write b.style n) := by
  -- names are not quoted, so they are written as they are
  have hid : ∀ {name}, Clean name → Clean (b.style.identifier name) := by
    intro name hname
    unfold Style.identifier
    rw [show b.style.quoted = false from hq]
    exact hname
  obtain ⟨e, hm, hs⟩ := h
  have hdeclared : ∀ {name}, e.Declares name → Clean (b.style.identifier name) := fun hd =>
    hid (plain_of_check (hd.check (hc e hm))).clean
  have hqualified : ∀ {table : TableAlias} {name}, e.Declares name →
      Clean (b.style.qualified table name) := fun hd =>
    (Clean.append (TableAlias.plain_text _).clean (Plain.clean (by decide))).append (hdeclared hd)
  cases hs with
  | wording hs => exact hs.clean
  | binding => exact clean_placeholder b.dialect n
  | field hf => exact hqualified (.column hf)
  | pulled ht hcol => exact hqualified (.pulled ht hcol)
  | onColumn ht => exact hqualified (.onColumn ht)
  | target hf => exact hqualified (.column hf)
  | name hd => exact hdeclared hd
  | decrypt hd => exact absurd hd (he e hm)
  | encrypt hd _ => exact absurd hd (he e hm)
  | extra ha =>
    cases ha with
    | label hn => exact hid (hl _ hn)
    | batch _ => exact absurd rfl (hb _)

/-- The names that an aggregate makes up are clean just when the aliases it was given are. -/
theorem clean_madeUp {a : Aggregation} {source : AggregateSource} (hc : e.check = .ok ())
    (h : b.aggregateBody e a source = .ok sql) :
    (∀ n ∈ a.madeUp, Clean n) ↔
      ∀ label ∈ a.columns.filterMap AggregateColumn.label, Clean label := by
  constructor
  · intro hall label hm
    obtain ⟨c, hcm, hlabel⟩ := List.mem_filterMap.1 hm
    obtain ⟨name, hn, hname⟩ := exists_right_of_forall₂ a.resolvedAliases_forall₂ hcm
    have hclean := hall name (List.mem_append_right _ hn)
    have hgiven : c.aliasOrDefault = label := by
      unfold AggregateColumn.aliasOrDefault
      rw [hlabel]
      rfl
    rw [hgiven] at hname
    -- a label is clean if it is with a number behind it
    rcases hname with rfl | ⟨k, rfl⟩
    · exact hclean
    · exact hclean.of_append
  · intro hall
    exact forall_madeUp (fun _ hf => hf.1.clean) (fun _ _ hs ht => hs.append ht) hc hall h

theorem clean_madeUp_body (hc : ∀ e ∈ r.entities, e.check = .ok ()) (h : b.body r = .ok sql) :
    (∀ n ∈ r.madeUp, Clean n) ↔ ∀ label ∈ r.functionAliases, Clean label := by
  cases r with
  | aggregate e a source =>
    exact clean_madeUp (hc e (List.mem_singleton.2 rfl)) h
  | _ => simp [Request.madeUp, Request.functionAliases]

/--
**The names in a statement are identifiers just when the made-up ones are.**

Every other name has passed the check of its entity. And for the text: with names unquoted and no
encrypted field, a statement other than a batch has none but the characters of wording,
placeholders and identifiers, just when the aliases given to its functions have none but these.
-/
theorem names_run (h : b.run r = .ok s) :
    ((∀ n ∈ s.sql.names, Identifier.check n = .ok ()) ↔
        ∀ n ∈ r.madeUp, Identifier.check n = .ok ()) ∧
      ((∀ steps, r ≠ .batch steps) → b.config.quoteIdentifiers = false →
        (∀ e ∈ r.entities, ∀ f ∈ e.fields, f.dataType ≠ .encrypted) →
        ((∀ c ∈ s.text.toList, isStatementChar c = true) ↔
          ∀ label ∈ r.functionAliases, ∀ c ∈ label.toList, isStatementChar c = true)) := by
  obtain ⟨hc, sql, hb, hf⟩ := run_eq_ok h
  constructor
  · rw [names_finish hf]
    -- made-up names stand in the text letter by letter; all else in it is clean
    constructor
    · intro hall n hn
      exact hall n (mem_names_body hb hn)
    · intro hall n hn
      exact (names_body hc hb hn).elim id (hall n)
  · intro hbatch hq henc
    have he : ∀ e ∈ r.entities, ¬ e.HasEncrypted := by
      intro e hm hx
      obtain ⟨f, hfm, hft⟩ := hx
      exact henc e hm f hfm hft
    -- nothing is encrypted, so the statement is the body
    have hs : (⟨sql, b.style⟩ : Statement) = s := by
      rcases finish_eq_ok.1 hf with ⟨_, hs⟩ | ⟨hn, _⟩
      · exact hs
      · rw [needsKey_body he hb] at hn
        exact absurd hn (by simp)
    have htext : s.text.toList = Sql.charsFrom b.style 0 sql := by
      rw [← hs]
      exact String.toList_ofList
    rw [htext]
    refine Iff.trans ?_ (clean_madeUp_body hc hb)
    constructor
    · intro hall n hn c hcm
      exact hall c (Sql.mem_charsFrom_of_mem_names hq (mem_names_body hb hn) hcm)
    · intro hall c hcm
      obtain ⟨p, hp, k, hk⟩ := Sql.exists_of_mem_charsFrom hcm
      exact clean_stock hbatch hq hc he hall ((formed_body hb).stock p hp) k c hk

/-- The rows of a table, counted under an alias. -/
def countAs (label : String) : Request :=
  .aggregate (.new "Dept") ⟨[], none, [⟨.count, none, some label, none, none⟩]⟩ (.example .and)

theorem names_run_countAs :
    ∃ s, Builder.default.run (countAs "Total") = .ok s ∧
      (∀ n ∈ s.sql.names, Identifier.check n = .ok ()) ∧
      ∀ c ∈ s.text.toList, isStatementChar c = true := by
  refine ⟨_, rfl, ?_⟩
  have h := names_run (b := .default) (r := countAs "Total") rfl
  have hclean : ∀ label ∈ (countAs "Total").functionAliases, Clean label := by
    intro label hl
    rw [List.mem_singleton.1 hl]
    exact Plain.clean (by decide)
  exact ⟨h.1.2 (by decide), (h.2 (by intro steps; nofun) rfl (by decide)).2 hclean⟩

/-- **An alias of a function reaches the text as it is**: one that is no identifier, with the
semicolon that ends a statement. -/
theorem names_countAs_unchecked :
    ∃ s, Builder.default.run (countAs "a;b") = .ok s ∧ "a;b" ∈ s.sql.names ∧
      Identifier.check "a;b" = .error (.badCharacter "a;b" ';') ∧
      s.text = "SELECT COUNT(*) AS a;b FROM Dept t0" := by
  refine ⟨_, rfl, ?_, rfl, rfl⟩
  decide

end Builder

end RecordSql
