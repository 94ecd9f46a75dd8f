import Mathlib.Data.List.Nodup
import RecordSql.Proofs.Stock

/-!
# Placeholders stand in the order of the parameters

A bound value stands where its placeholder goes, and the numbers follow the finished pieces. That
is about pieces, while a database reads text. Here a reader of the text alone finds the same
placeholders, for two reasons:

* every other piece is **quiet**: a mark inside it is followed by something that is no `p`;
* a placeholder ends where its number ends, as the wording after it starts with no digit.

The second is part of `Sql.Formed`. The first is asked of every piece in stock, and holds of all
but the aliases of functions, which the text takes as they are.
-/

namespace RecordSql

open Text Checked

/-! ## Reading placeholders -/

/-- What placeholders of the dialect start with. -/
def Dialect.mark : Dialect → Char
  | .sqlServer => '@'
  | .oracle => ':'

namespace Text

variable {mark : Char} {w rest : List Char}

/-- The placeholder that a text starts with: the mark, a `p`, and all the digits that follow. -/
def placeholderAt? (mark : Char) : List Char → Option String
  | c :: 'p' :: rest =>
    if c = mark ∧ rest.takeWhile Char.isDigit ≠ [] then
      some (String.ofList (c :: 'p' :: rest.takeWhile Char.isDigit))
    else none
  | _ => none

/-- The placeholders of a text, from left to right. -/
def placeholders (mark : Char) : List Char → List String
  | [] => []
  | c :: rest => (placeholderAt? mark (c :: rest)).toList ++ placeholders mark rest

/-- No mark of the text starts a placeholder, whatever comes after the text. -/
def Quiet (mark : Char) : List Char → Prop
  | [] => True
  | c :: rest => (c = mark → ∃ d ∈ rest.head?, d ≠ 'p') ∧ Quiet mark rest

theorem placeholderAt?_of_ne {c : Char} (h : c ≠ mark) :
    placeholderAt? mark (c :: rest) = none := by
  unfold placeholderAt?
  split
  next c' rest' he =>
    injection he with hc _
    rw [if_neg]
    intro hm
    exact h (hc.trans hm.1)
  · rfl

theorem placeholderAt?_of_head {c d : Char} (h : d ≠ 'p') :
    placeholderAt? mark (c :: d :: rest) = none := by
  unfold placeholderAt?
  split
  next he =>
    injection he with _ he
    injection he with hd _
    exact absurd hd h
  · rfl

/-- A quiet text has no placeholder, and none that the next text would finish. -/
theorem placeholders_quiet (h : Quiet mark w) :
    placeholders mark (w ++ rest) = placeholders mark rest := by
  induction w with
  | nil => rfl
  | cons c w ih =>
    obtain ⟨hc, hw⟩ := h
    have hnone : placeholderAt? mark (c :: (w ++ rest)) = none := by
      -- what follows a mark is still inside the text, so the next text cannot finish it
      by_cases hm : c = mark
      · obtain ⟨d, hd, hp⟩ := hc hm
        obtain ⟨w', rfl⟩ := List.head?_eq_some_iff.1 hd
        exact placeholderAt?_of_head hp
      · exact placeholderAt?_of_ne hm
    rw [List.cons_append, placeholders, hnone, ih hw]
    rfl

theorem quiet_of_not_mem (h : mark ∉ w) : Quiet mark w := by
  induction w with
  | nil => trivial
  | cons c w ih =>
    refine ⟨?_, ih fun hm => h (List.mem_cons_of_mem _ hm)⟩
    intro hc
    exact absurd (hc ▸ List.mem_cons_self) h

/-- A number is read as a whole when no digit follows it. -/
theorem takeWhile_isDigit (n : Nat) (hd : ∀ c ∈ rest.head?, c.isDigit = false) :
    (Nat.toDigits 10 n ++ rest).takeWhile Char.isDigit = Nat.toDigits 10 n := by
  have hrest : rest.takeWhile Char.isDigit = [] := by
    cases rest with
    | nil => rfl
    | cons c rest => rw [List.takeWhile_cons_of_neg]; simpa using hd c rfl
  have hall : ∀ c ∈ Nat.toDigits 10 n, c.isDigit = true := fun c hc =>
    Nat.isDigit_of_mem_toDigits (by decide) (by decide) hc
  rw [List.takeWhile_append_of_pos hall, hrest, List.append_nil]

end Text

/-- A placeholder letter by letter. -/
theorem Dialect.toList_placeholder (d : Dialect) (n : Nat) :
    (d.placeholder (parameterName n)).toList = d.mark :: 'p' :: Nat.toDigits 10 n := by
  have hname : (parameterName n).toList = 'p' :: Nat.toDigits 10 n := by
    show ("p" ++ toString n).toList = _
    rw [String.toList_append, Nat.toString_eq_repr, Nat.toList_repr]
    rfl
  cases d with
  | sqlServer =>
    show ("@" ++ parameterName n).toList = _
    rw [String.toList_append, hname]
    rfl
  | oracle =>
    show (":" ++ parameterName n).toList = _
    rw [String.toList_append, hname]
    rfl

/-- Different parameters have different placeholders. -/
theorem Dialect.placeholder_injective (d : Dialect) :
    Function.Injective fun n => d.placeholder (parameterName n) := by
  intro i j h
  have hlist := congrArg String.toList h
  dsimp only at hlist
  rw [toList_placeholder, toList_placeholder] at hlist
  injection hlist with _ hlist
  injection hlist with _ hdigits
  -- reading the digits gives the number back
  have hread := congrArg (fun digits => Nat.ofDigitChars 10 digits 0) hdigits
  rwa [Nat.ofDigitChars_ten_toDigits, Nat.ofDigitChars_ten_toDigits] at hread

theorem parameterName_injective : Function.Injective parameterName :=
  fun _ _ h => Dialect.sqlServer.placeholder_injective (congrArg Dialect.sqlServer.placeholder h)

theorem Dialect.mark_ne_digit (d : Dialect) {c : Char} (h : c.isDigit = true) : c ≠ d.mark := by
  intro hc
  rw [hc] at h
  cases d with
  | sqlServer => exact absurd h (by decide)
  | oracle => exact absurd h (by decide)

/-- A placeholder is read as it was written, and the reading goes on behind it. -/
theorem Dialect.placeholders_placeholder (d : Dialect) (n : Nat) {rest : List Char}
    (hd : ∀ c ∈ rest.head?, c.isDigit = false) :
    placeholders d.mark ((d.placeholder (parameterName n)).toList ++ rest) =
      d.placeholder (parameterName n) :: placeholders d.mark rest := by
  -- behind its mark nothing in a placeholder starts another one
  have hquiet : Quiet d.mark ('p' :: Nat.toDigits 10 n) := by
    refine quiet_of_not_mem ?_
    intro hm
    rcases List.mem_cons.1 hm with hm | hm
    · cases d with
      | sqlServer => exact absurd hm (by decide)
      | oracle => exact absurd hm (by decide)
    · exact d.mark_ne_digit (Nat.isDigit_of_mem_toDigits (by decide) (by decide) hm) rfl
  have hat : placeholderAt? d.mark (d.mark :: 'p' :: (Nat.toDigits 10 n ++ rest)) =
      some (d.placeholder (parameterName n)) := by
    rw [placeholderAt?, takeWhile_isDigit n hd, if_pos ⟨rfl, Nat.toDigits_ne_nil⟩,
      ← d.toList_placeholder, String.ofList_toList]
  have hgo : placeholders d.mark ('p' :: (Nat.toDigits 10 n ++ rest)) = placeholders d.mark rest :=
    placeholders_quiet hquiet
  rw [d.toList_placeholder, List.cons_append, List.cons_append, placeholders, hat, hgo]
  rfl

/-! ## Reading a statement -/

/-- A piece other than a bound value that a reader of placeholders passes over. -/
def Piece.Quiet (style : Style) (p : Piece) : Prop :=
  p.binding? = none → ∀ n, Text.Quiet style.dialect.mark (p.write style n).toList

namespace Sql

variable {style : Style} {sql : Sql}

/-- What follows a bound value starts with no digit. -/
theorem head_charsFrom {x : Binding} (h : (Piece.bind x :: sql).IsChain Piece.Apart) (n : Nat) :
    ∀ c ∈ (charsFrom style n sql).head?, c.isDigit = false := by
  intro c hc
  cases sql with
  | nil => exact absurd hc (by simp [charsFrom])
  | cons q rest =>
    have ho : q.opens = true := (List.isChain_cons_cons.1 h).1 rfl
    cases q with
    | text s =>
      obtain ⟨d, cs, hs, hd⟩ := opens_iff.1 ho
      rw [charsFrom_of_binding?_none rfl, Piece.write, hs] at hc
      have he : d = c := by simpa using hc
      rw [← he]
      exact hd
    | _ => exact absurd ho (by simp [Piece.opens])

/-- The text of quiet pieces has the placeholders of their bound values, in order. -/
theorem placeholders_charsFrom (hq : ∀ p ∈ sql, p.Quiet style) (ha : sql.IsChain Piece.Apart)
    (n : Nat) :
    placeholders style.dialect.mark (charsFrom style n sql) =
      (List.range' n sql.bindings.length).map fun i =>
        style.dialect.placeholder (parameterName i) := by
  induction sql generalizing n with
  | nil => rfl
  | cons p rest ih =>
    have hrest := ih (fun q hm => hq q (List.mem_cons_of_mem _ hm)) ha.tail
    -- only a bound value takes a number
    cases hb : p.binding? with
    | none =>
      have hquiet := hq p List.mem_cons_self hb n
      have hbind : bindings (p :: rest) = bindings rest := List.filterMap_cons_none hb
      rw [charsFrom_of_binding?_none hb, placeholders_quiet hquiet, hrest n, hbind]
    | some x =>
      obtain rfl := Piece.eq_bind_of_binding? hb
      have hbind : bindings (.bind x :: rest) = x :: bindings rest := List.filterMap_cons_some hb
      rw [charsFrom, Piece.write, style.dialect.placeholders_placeholder n (head_charsFrom ha _),
        hrest (n + 1), hbind, List.length_cons, List.range'_succ, List.map_cons]

end Sql

/-! ## Statements have no other placeholders -/

/-- A text that has neither of the two marks. -/
def Text.Unmarked (s : String) : Prop := '@' ∉ s.toList ∧ ':' ∉ s.toList

theorem Text.Unmarked.not_mem {s : String} (h : Unmarked s) (d : Dialect) : d.mark ∉ s.toList := by
  cases d with
  | sqlServer => exact h.1
  | oracle => exact h.2

theorem Text.Unmarked.append {s t : String} (hs : Unmarked s) (ht : Unmarked t) :
    Unmarked (s ++ t) := by
  unfold Unmarked
  rw [String.toList_append, List.mem_append, List.mem_append, not_or, not_or]
  exact ⟨⟨hs.1, ht.1⟩, hs.2, ht.2⟩

/-- The characters of the wording and of the frames of a statement leave the marks out. -/
theorem Builder.Framed.unmarked {s : String} (h : Builder.Framed s) : Unmarked s := by
  constructor
  · intro hm
    rcases h _ hm with h | h
    · exact absurd h (by decide)
    · exact absurd h (by decide)
  · intro hm
    rcases h _ hm with h | h
    · exact absurd h (by decide)
    · exact absurd h (by decide)

theorem Text.Plain.unmarked {s : String} (h : Plain s) : Unmarked s :=
  (Builder.framed_of_plain h).unmarked

theorem Style.unmarked_identifier {style : Style} {name : String} (h : Unmarked name) :
    Unmarked (style.identifier name) := by
  constructor
  · refine not_mem_identifier h.1 fun d => ?_
    cases d with
    | sqlServer => decide
    | oracle => decide
  · refine not_mem_identifier h.2 fun d => ?_
    cases d with
    | sqlServer => decide
    | oracle => decide

theorem Style.unmarked_qualified {style : Style} {table : TableAlias} {name : String}
    (h : Unmarked name) : Unmarked (style.qualified table name) :=
  ((table.plain_text.unmarked.append (Plain.unmarked (by decide)))).append
    (unmarked_identifier h)

namespace Builder

variable {b : Builder} {r : Request} {s : Statement}

/-- A batch keeps its keys in variables that are no placeholders. -/
theorem quiet_batchVariable (d : Dialect) (k : Nat) :
    Text.Quiet d.mark (d.batchVariable k).toList := by
  cases d with
  | sqlServer =>
    -- the variable starts like a placeholder, but goes on with another letter
    have hid : Plain s!"id{k}" := Plain.append (by decide) (plain_nat k)
    rw [toList_batchVariable]
    refine ⟨fun _ => ⟨'i', ?_, by decide⟩, quiet_of_not_mem (hid.unmarked.not_mem _)⟩
    show 'i' ∈ ("id" ++ toString k).toList.head?
    rw [String.toList_append]
    rfl
  | oracle =>
    have hname : Plain s!"v_id{k}" := Plain.append (by decide) (plain_nat k)
    exact quiet_of_not_mem (hname.unmarked.not_mem _)

theorem quiet_adds (hl : ∀ n, r.Adds b (.name n) → Unmarked n) {p : Piece} (h : r.Adds b p) :
    p.Quiet b.style := by
  intro _ n
  cases h with
  | label hn =>
    exact quiet_of_not_mem ((Style.unmarked_identifier (hl _ (.label hn))).not_mem _)
  | batch ha =>
    cases ha with
    | kept hv =>
      obtain ⟨k, hk⟩ := keyVariablesFrom_names _ hv
      rw [Piece.write, hk]
      exact quiet_batchVariable b.dialect k
    | frame hf => exact quiet_of_not_mem (hf.unmarked.not_mem _)
    | assign =>
      -- the colon of an assignment is followed by its equals sign
      have hlist : (" := ").toList = [' ', ':', '=', ' '] := by decide
      rw [Piece.write, hlist]
      show Text.Quiet b.dialect.mark [' ', ':', '=', ' ']
      cases b.dialect with
      | sqlServer => exact quiet_of_not_mem (by decide)
      | oracle => exact ⟨by decide, fun _ => ⟨'=', rfl, by decide⟩, quiet_of_not_mem (by decide)⟩

theorem plain_encryptOpening {keys : EncryptionKeys} (h : Identifier.check keys.keyName = .ok ()) :
    Plain (Dialect.encryptOpening keys) := by
  have hliteral : Plain (quoteLiteral keys.keyName) := by
    intro c hc
    unfold quoteLiteral at hc
    rw [String.toList_ofList] at hc
    rcases mem_between hc with rfl | hm | rfl
    · decide
    · exact plain_of_check h c hm
    · decide
  exact (Plain.append (by decide) hliteral).append (by decide)

/-- No piece in stock reads as a placeholder, apart from the bound values. Only the text of an
encryption has a name in it that the entity does not declare. -/
theorem quiet_stock {p : Piece} (hc : p.isKeyed = true → b.config.check = .ok ())
    (he : ∀ e ∈ r.entities, e.check = .ok ()) (hl : ∀ n, r.Adds b (.name n) → Unmarked n)
    (h : r.Stock b p) : p.Quiet b.style := by
  obtain ⟨e, hm, hp⟩ := h
  -- identifiers have none of the two marks
  have hname : ∀ {n}, e.Declares n → Unmarked n := fun hn =>
    (plain_of_check (hn.check (he e hm))).unmarked
  have hcolumn : ∀ {t : TableAlias} {n}, e.Declares n → ∀ k,
      Text.Quiet b.style.dialect.mark ((Piece.column t n).write b.style k).toList :=
    fun hn _ => quiet_of_not_mem ((Style.unmarked_qualified (hname hn)).not_mem _)
  intro hb n
  cases hp with
  | wording hs => exact quiet_of_not_mem (hs.unmarked.not_mem _)
  | binding => exact absurd hb (by simp [Piece.binding?])
  | field hf => exact hcolumn (.column hf) n
  | pulled ht hcol => exact hcolumn (.pulled ht hcol) n
  | onColumn ht => exact hcolumn (.onColumn ht) n
  | target hf => exact hcolumn (.column hf) n
  | name hn => exact quiet_of_not_mem ((Style.unmarked_identifier (hname hn)).not_mem _)
  | decrypt _ =>
    have hplain : Plain Dialect.decryptOpening := by decide
    have hquiet := quiet_of_not_mem (hplain.unmarked.not_mem b.style.dialect)
    exact hquiet
  | encrypt _ hk =>
    have hplain := plain_encryptOpening (Config.check_eq_ok.1 (hc rfl) _ hk).2.1
    have hquiet := quiet_of_not_mem (hplain.unmarked.not_mem b.style.dialect)
    exact hquiet
  | extra ha => exact quiet_adds hl ha hb n

theorem quiet_finished (hc : b.config.check = .ok ()) (he : ∀ e ∈ r.entities, e.check = .ok ())
    (hl : ∀ n, r.Adds b (.name n) → Unmarked n) {p : Piece} (h : r.Finished b p) :
    p.Quiet b.style := by
  rcases h with hp | ⟨t, ht, rfl⟩
  · exact quiet_stock (fun _ => hc) he hl hp
  · exact fun _ _ => quiet_of_not_mem (ht.unmarked.not_mem _)

theorem unmarked_adds (hl : ∀ label ∈ r.functionAliases, Unmarked label) (h : b.run r = .ok s)
    {n : String} (ha : r.Adds b (.name n)) : Unmarked n := by
  obtain ⟨hc, sql, hb, _⟩ := run_eq_ok h
  exact forall_adds (fun _ hf => hf.1.unmarked) (fun _ _ hs ht => hs.append ht) hc hl hb ha

end Builder

namespace Statement

variable {s : Statement}

theorem length_parameters : s.parameters.length = s.sql.bindings.length := by
  unfold parameters Sql.parameters
  rw [List.length_map, List.length_zipIdx]

/-- The parameters have the names of their numbers. -/
theorem name_parameters :
    s.parameters.map Parameter.name = (List.range s.parameters.length).map parameterName := by
  rw [length_parameters]
  unfold parameters Sql.parameters
  rw [List.map_map, List.range_eq_range', ← List.zipIdx_map_snd, List.map_map]
  rfl

theorem name_getElem {i : Nat} (h : i < s.parameters.length) :
    s.parameters[i].name = parameterName i := by
  have hnames := name_parameters (s := s)
  have hi : (s.parameters.map Parameter.name)[i]? =
      ((List.range s.parameters.length).map parameterName)[i]? := by rw [hnames]
  rw [List.getElem?_map, List.getElem?_map, List.getElem?_eq_getElem h,
    List.getElem?_range h] at hi
  exact Option.some.inj hi

/-- A parameter is found under the name of its number. -/
theorem parameter?_parameterName {i : Nat} (h : i < s.parameters.length) :
    s.parameter? (parameterName i) = some s.parameters[i] := by
  unfold parameter?
  rw [List.find?_eq_some_iff_getElem]
  refine ⟨decide_eq_true (name_getElem h), i, h, rfl, ?_⟩
  -- no parameter before it has the same name
  intro j hj
  have hne : s.parameters[j].name ≠ parameterName i := by
    rw [name_getElem (Nat.lt_trans hj h)]
    intro he
    exact absurd (parameterName_injective he) (Nat.ne_of_lt hj)
  simpa using hne

end Statement

namespace Builder

/--
**Placeholders stand in the order of the parameters.**

A reader of the text of any statement finds the placeholders of `p0`, `p1` and so on from left to
right, each once and as many as there are parameters; the parameters have these names in the same
order, and each is found under its name.

The names of the key have to be identifiers, as checked settings make sure, and the aliases of
functions have to leave the two marks out, as no check does.
-/
theorem placeholders_run {b : Builder} {r : Request} {s : Statement}
    (hc : b.config.check = .ok ())
    (hl : ∀ label ∈ r.functionAliases, '@' ∉ label.toList ∧ ':' ∉ label.toList)
    (h : b.run r = .ok s) :
    placeholders b.dialect.mark s.text.toList =
        (List.range s.parameters.length).map (fun i => b.dialect.placeholder (parameterName i)) ∧
      (placeholders b.dialect.mark s.text.toList).Nodup ∧
      s.parameters.map Parameter.name = (List.range s.parameters.length).map parameterName ∧
      ∀ i (hi : i < s.parameters.length),
        s.parameter? (parameterName i) = some s.parameters[i] := by
  have hformed := formed_run hc h
  have hquiet : ∀ p ∈ s.sql, p.Quiet s.style := by
    intro p hp
    rw [style_run h]
    exact quiet_finished hc (run_eq_ok h).1 (fun n hn => unmarked_adds hl h hn)
      (hformed.stock p hp)
  -- the pieces are read one by one, and the numbers are those of the parameters
  have hread := Sql.placeholders_charsFrom hquiet hformed.apart 0
  rw [style_run h, ← List.range_eq_range', ← Statement.length_parameters] at hread
  have htext : s.text.toList = Sql.charsFrom b.style 0 s.sql := by
    unfold Statement.text Sql.write
    rw [String.toList_ofList, style_run h]
  have hall : placeholders b.dialect.mark s.text.toList =
      (List.range s.parameters.length).map fun i => b.dialect.placeholder (parameterName i) :=
    htext ▸ hread
  refine ⟨hall, ?_, Statement.name_parameters, fun i hi => Statement.parameter?_parameterName hi⟩
  rw [hall]
  exact List.Nodup.map b.dialect.placeholder_injective List.nodup_range

/-- A table of departments, with the values of one of them. -/
def departments : Entity where
  table := "dbo.Dept"
  fields := [{ Field.new "Id" .integer with isKey := true }, Field.new "Name" .text]
  properties := ⟨[("Id", .number (.ofUInt64 7)), ("Name", .string "NOT_A_RANGE_M")], by decide⟩

/-- The departments of each name, counted where there are some. -/
def departmentCount : Request :=
  .aggregate departments
    ⟨["Name"], none, [⟨.count, none, some "N", some ">", some (.number (.ofUInt64 0))⟩]⟩
    (.example .and)

end Builder

end RecordSql
