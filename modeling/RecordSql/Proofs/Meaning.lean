import RecordSql.Proofs.Clause

/-!
# Clauses say what was asked

What a listing or an example asks of the rows can be said without any text: each search with the
type of its column is a formula about the operand of that column. The clause has to say the same.

* Every column with a search of its own is asked for, and of the searchable columns just those that
  can hold the global search.
* The clause is put together from the conditions of these, in order, so it is read as their
  formulas, joined in the same way.
* In the statement it is read in no other way. The columns of a checked entity have no blanks in
  their names, so it is plain where an operand ends, and a column or a decryption starts like no
  negation and no parenthesis.
-/

namespace RecordSql

open Text Checked

variable {b : Builder} {e : Entity}

/-! ## What a reader knows -/

theorem Statement.parameter?_of_bindings {s : Statement} {i : Nat} {x : Binding}
    (h : s.sql.bindings[i]? = some x) :
    s.parameter? (parameterName i) = some ⟨x, parameterName i⟩ := by
  have hi : i < s.parameters.length := by
    rw [length_parameters]
    exact (List.getElem?_eq_some_iff.1 h).1
  have hparameter : s.parameters[i]? = some ⟨x, parameterName i⟩ := by
    unfold parameters Sql.parameters
    rw [List.getElem?_map, List.getElem?_zipIdx, h, Nat.zero_add]
    rfl
  rw [parameter?_parameterName hi, ← hparameter]
  exact (List.getElem?_eq_getElem hi).symm

namespace Builder

/-- How a reader of a statement reads the clauses in it: operands are the columns that names of the
entity stand for, and a placeholder has the value of the parameter of its name. -/
def reading (b : Builder) (e : Entity) (sql : Sql) : Reading where
  dialect := b.dialect
  operand text := ∃ target operand, e.Reaches target ∧ b.operand target = .ok operand ∧
    operand.write b.style = text
  value? name := ((⟨sql, b.style⟩ : Statement).parameter? name).map fun p => p.bindValue

/-- The parameters of a part are numbered on from those before it. -/
theorem binds_reading (before part after : Sql) :
    (b.reading e (before ++ part ++ after)).Binds before.bindings.length part.bindings := by
  have hall : (before ++ part ++ after).bindings =
      before.bindings ++ part.bindings ++ after.bindings := by
    rw [Sql.bindings_append, Sql.bindings_append]
  intro i x hx
  have hi : i < part.bindings.length := (List.getElem?_eq_some_iff.1 hx).1
  have hplace : (before ++ part ++ after).bindings[before.bindings.length + i]? = some x := by
    rw [hall, List.append_assoc, List.getElem?_append_right (Nat.le_add_right _ _),
      Nat.add_sub_cancel_left, List.getElem?_append_left hi]
    exact hx
  have hparameter := Statement.parameter?_of_bindings (s := ⟨_, b.style⟩) hplace
  exact congrArg (Option.map fun p => p.bindValue) hparameter

end Builder

/-! ## Operands -/

/-- The alias of a table is one letter and a number. -/
theorem TableAlias.toList_text (table : TableAlias) :
    ∃ (c : Char) (n : Nat), table.text.toList = c :: Nat.toDigits 10 n ∧ (c = 't' ∨ c = 'j') := by
  cases table with
  | root => exact ⟨'t', 0, rfl, .inl rfl⟩
  | join index =>
    refine ⟨'j', index, ?_, .inr rfl⟩
    have htext : (TableAlias.join index).text = "j" ++ toString index := rfl
    rw [htext, String.toList_append, Nat.toString_eq_repr, Nat.toList_repr]
    rfl

theorem blank_not_mem_digits (n : Nat) : ' ' ∉ Nat.toDigits 10 n := by
  intro hm
  have hdigit := Nat.isDigit_of_mem_toDigits (by decide) (by decide) hm
  exact absurd hdigit (by decide)

/-- Two words with a blank after them are the same. -/
theorem eq_of_append_blank {xs ys x y : List Char} (hx : ' ' ∉ xs) (hy : ' ' ∉ ys)
    (h : xs ++ ' ' :: x = ys ++ ' ' :: y) : xs = ys := by
  -- a word is what stands before the first blank
  have hword : ∀ {cs : List Char} (t : List Char), ' ' ∉ cs →
      (cs ++ ' ' :: t).takeWhile (· ≠ ' ') = cs := by
    intro cs t hcs
    rw [List.takeWhile_append_of_pos, List.takeWhile_cons_of_neg, List.append_nil]
    · decide
    · intro c hc
      exact decide_eq_true fun he => hcs (he ▸ hc)
  rw [← hword x hx, h, hword y hy]

/-- An identifier has no blank, with quotes or without. -/
theorem Style.blank_not_mem_identifier (style : Style) {name : String}
    (h : Identifier.check name = .ok ()) : ' ' ∉ (style.identifier name).toList := by
  have hname : ' ' ∉ name.toList := by
    intro hm
    have hallowed := (Identifier.check_eq_ok.1 h).2.2.1 _ hm
    exact absurd hallowed (by decide)
  refine not_mem_identifier hname fun d => ?_
  cases d with
  | sqlServer => decide
  | oracle => decide

/-- A column is one word, and starts with the alias of its table. -/
theorem Style.toList_qualified (style : Style) (table : TableAlias) {name : String}
    (h : Identifier.check name = .ok ()) :
    ∃ (c : Char) (rest : List Char), (style.qualified table name).toList = c :: rest ∧
      (c = 't' ∨ c = 'j') ∧ ' ' ∉ c :: rest := by
  obtain ⟨c, n, htable, hc⟩ := table.toList_text
  have hidentifier := style.blank_not_mem_identifier h
  refine ⟨c, Nat.toDigits 10 n ++ '.' :: (style.identifier name).toList, ?_, hc, ?_⟩
  · unfold qualified
    rw [String.toList_append, String.toList_append, htable, List.append_assoc]
    rfl
  · intro hm
    rcases List.mem_cons.1 hm with he | hm
    · rcases hc with rfl | rfl
      · exact absurd he (by decide)
      · exact absurd he (by decide)
    · rcases List.mem_append.1 hm with hm | hm
      · exact blank_not_mem_digits n hm
      · rcases List.mem_cons.1 hm with he | hm
        · exact absurd he (by decide)
        · exact hidentifier hm

/-- The text of an operand: one word that starts with the alias of a table, or a decryption of a
word. -/
inductive IsOperand : List Char → Prop where
  | column {c : Char} {rest : List Char} : c = 't' ∨ c = 'j' → ' ' ∉ c :: rest →
      IsOperand (c :: rest)
  | decryption {word : List Char} : ' ' ∉ word →
      IsOperand (Dialect.decryptOpening.toList ++ (word ++ Dialect.encryptionClosing.toList))

namespace IsOperand

variable {xs ys x y : List Char}

theorem toList_decryptOpening : ∃ cs, Dialect.decryptOpening.toList = 'C' :: cs := ⟨_, rfl⟩

/-- An operand starts with the letter of an alias, or with that of the decryption. -/
theorem start (h : IsOperand xs) : ∃ c rest, xs = c :: rest ∧ c ≠ '(' ∧ c ≠ 'N' := by
  cases h with
  | @column c rest halias hblank =>
    refine ⟨c, rest, rfl, ?_⟩
    rcases halias with rfl | rfl
    · decide
    · decide
  | decryption hword =>
    obtain ⟨cs, hcs⟩ := toList_decryptOpening
    rw [hcs]
    exact ⟨'C', _, rfl, by decide, by decide⟩

/-- A column is no decryption, whatever comes after either. -/
theorem column_ne_decryption {c : Char} {rest word : List Char} (hc : c = 't' ∨ c = 'j') :
    c :: rest ++ x ≠ Dialect.decryptOpening.toList ++ word ++ y := by
  obtain ⟨cs, hcs⟩ := toList_decryptOpening
  rw [hcs]
  intro he
  have hhead := (List.cons.inj he).1
  rcases hc with rfl | rfl
  · exact absurd hhead (by decide)
  · exact absurd hhead (by decide)

/-- With a blank after it, it is plain where an operand ends. -/
theorem unique (h : IsOperand xs) (h' : IsOperand ys) (he : xs ++ ' ' :: x = ys ++ ' ' :: y) :
    xs = ys := by
  cases h with
  | @column c rest halias hblank =>
    cases h' with
    | @column d rest' halias' hblank' => exact eq_of_append_blank hblank hblank' he
    | decryption hword => exact absurd he (column_ne_decryption halias)
  | @decryption word hword =>
    cases h' with
    | @column d rest' halias' hblank' => exact absurd he.symm (column_ne_decryption halias')
    | @decryption word' hword' =>
      -- the opening has blanks of its own, so it is taken off first
      have hclosing : ' ' ∉ Dialect.encryptionClosing.toList := by decide
      have hout : ∀ {cs : List Char}, ' ' ∉ cs → ' ' ∉ cs ++ Dialect.encryptionClosing.toList :=
        fun hcs hm => (List.mem_append.1 hm).elim hcs hclosing
      rw [List.append_assoc, List.append_assoc Dialect.decryptOpening.toList] at he
      have hrest := List.append_cancel_left he
      rw [eq_of_append_blank (hout hword) (hout hword') hrest]

end IsOperand

namespace Builder

theorem operand_eq_ok {target : Target} {operand : Sql} (h : b.operand target = .ok operand) :
    ∃ table, operand = [.column table target.columnName] ∨
      operand = [.keyed Dialect.decryptOpening, .column table target.columnName,
        .text Dialect.encryptionClosing] := by
  -- a field may be decrypted, and a joined column never is
  cases target with
  | field f =>
    rcases readField_eq_ok.1 h with ⟨_, rfl⟩ | ⟨_, _, _, rfl⟩
    · exact ⟨.root, .inl rfl⟩
    · exact ⟨.root, .inr rfl⟩
  | joined index column =>
    injection h with h
    exact ⟨.join index, .inl h.symm⟩

theorem bindings_operand {target : Target} {operand : Sql} (h : b.operand target = .ok operand) :
    operand.bindings = [] := by
  obtain ⟨table, rfl | rfl⟩ := operand_eq_ok h
  · rfl
  · rfl

theorem isOperand_operand (style : Style) {target : Target} {operand : Sql}
    (hc : Identifier.check target.columnName = .ok ()) (h : b.operand target = .ok operand) :
    IsOperand (operand.write style).toList := by
  obtain ⟨table, hoperand⟩ := operand_eq_ok h
  obtain ⟨c, rest, hcolumn, halias, hblank⟩ := style.toList_qualified table hc
  unfold Sql.write
  rw [String.toList_ofList]
  rcases hoperand with rfl | rfl
  · show IsOperand (_ ++ [])
    rw [List.append_nil, Piece.write, hcolumn]
    exact .column halias hblank
  · show IsOperand (_ ++ (_ ++ (Dialect.encryptionClosing.toList ++ [])))
    rw [List.append_nil, Piece.write, Piece.write, hcolumn]
    exact .decryption hblank

/-- **The operands of a checked entity can be told from what follows them.** -/
theorem sharp_reading (hc : e.check = .ok ()) (sql : Sql) : (b.reading e sql).Sharp where
  start := by
    intro text hop
    obtain ⟨target, operand, hr, ho, rfl⟩ := hop
    exact (isOperand_operand b.style (hr.declares.check hc) ho).start
  ends := by
    intro text text' x y hop hop' he
    obtain ⟨target, operand, hr, ho, rfl⟩ := hop
    obtain ⟨target', operand', hr', ho', rfl⟩ := hop'
    have hfirst := isOperand_operand b.style (hr.declares.check hc) ho
    have hsecond := isOperand_operand b.style (hr'.declares.check hc) ho'
    exact String.toList_inj.1 (hfirst.unique hsecond he)

end Builder

/-! ## What is asked -/

/-- A property value that asks for nothing. -/
inductive Json.AsksNothing : Json → Prop where
  | null : AsksNothing .null
  | text : AsksNothing (.string "")
  | list {items : List Json} : (∀ item ∈ items, item = .null) → AsksNothing (.array items)

theorem Predicate.parse_eq_none {text : String} : parse text = .ok none ↔ text = "" := by
  unfold parse
  constructor
  · intro h
    split at h
    next hnil => exact String.toList_eq_nil_iff.1 hnil
    · obtain ⟨p, _, hp⟩ := map_eq_ok.1 h
      exact absurd hp (Option.some_ne_none p)
  · intro h
    subst h
    rfl

theorem Predicate.ofProperty_eq_none {value : Json} :
    ofProperty value = .ok none ↔ value.AsksNothing := by
  cases value with
  | null => exact ⟨fun _ => .null, fun _ => rfl⟩
  | string text =>
    have hparse : ofProperty (.string text) = parse text := rfl
    rw [hparse, parse_eq_none]
    constructor
    · intro h
      subst h
      exact .text
    · intro h
      cases h
      rfl
  | array items =>
    -- null items are passed over, and when there are no others nothing is asked
    have hitems : (items.filter fun item => !item.isNull).map searchText = [] ↔
        ∀ item ∈ items, item = .null := by
      rw [List.map_eq_nil_iff, List.filter_eq_nil_iff]
      refine forall₂_congr fun item _ => ?_
      cases item <;> simp [Json.isNull]
    simp only [ofProperty]
    constructor
    · intro h
      split at h
      next hnil => exact .list (hitems.1 hnil)
      · exact absurd (Except.ok.inj h) (Option.some_ne_none _)
    · intro h
      cases h with
      | list h => rw [hitems.2 h]
  | object members => exact ⟨fun h => absurd h (by simp [ofProperty]), fun h => by cases h⟩
  | bool value => exact ⟨fun h => absurd h (by simp [ofProperty]), fun h => by cases h⟩
  | number value => exact ⟨fun h => absurd h (by simp [ofProperty]), fun h => by cases h⟩

/-- Whether the value of a field asks for something. -/
def Entity.Asks (e : Entity) (f : Field) : Prop :=
  ∃ value, e.value? f.name = some value ∧ ¬ value.AsksNothing

/-- A listing whose searches were read from their wire form. -/
structure Listing.Parsed (l : Listing) : Prop where
  columns : ∀ c ∈ l.columns, ∀ p, c.search = some p → ∃ text, Predicate.parse text = .ok (some p)
  search : ∀ p, l.search = some p → ∃ text, Predicate.parse text = .ok (some p)

theorem Listing.Parsed.sound_searchedColumns {l : Listing} (h : l.Parsed) :
    ∀ c ∈ Builder.searchedColumns l, c.2.Sound := by
  intro c hc
  obtain ⟨column, hm, hsearch⟩ := List.mem_filterMap.1 hc
  obtain ⟨p, hp, rfl⟩ := Option.map_eq_some_iff.1 hsearch
  obtain ⟨text, ht⟩ := h.columns column hm p hp
  exact Predicate.sound_parse ht

theorem Listing.Parsed.sound_search {l : Listing} (h : l.Parsed) (p : Predicate)
    (hp : l.search = some p) : p.Sound := by
  obtain ⟨text, ht⟩ := h.search p hp
  exact Predicate.sound_parse ht

/-- A listing in which the lists that its clause is made of have items. -/
structure Listing.Sound (l : Listing) : Prop where
  columns : ∀ c ∈ Builder.searchedColumns l, c.2.Sound
  search : ∀ p, l.search = some p → Builder.searchableColumns l ≠ [] → p.Sound

theorem Listing.Parsed.sound {l : Listing} (h : l.Parsed) : l.Sound :=
  ⟨h.sound_searchedColumns, fun p hp _ => h.sound_search p hp⟩

namespace Builder

/-- What a search asks of a column; nothing when the column cannot hold what is searched for. -/
def ask? (b : Builder) (search : Predicate) (target : Target) : Option Formula :=
  match search.coerce target.dataType, b.operand target with
  | .ok condition, .ok operand => some (condition.meaning (operand.write b.style))
  | _, _ => none

/-- What the columns with a search of their own are asked. -/
def columnAsks (b : Builder) (e : Entity) (l : Listing) : List Formula :=
  (searchedColumns l).filterMap fun c => (e.resolve? c.1).bind (b.ask? c.2)

/-- What the global search asks of the searchable columns that can hold it. -/
def searchAsks (b : Builder) (e : Entity) (l : Listing) : List Formula :=
  match l.search with
  | none => []
  | some search =>
    (searchableColumns l).filterMap fun name => (e.resolve? name).bind (b.ask? search)

/-- What the value of a field asks of its column. -/
def exampleAsk? (b : Builder) (e : Entity) (f : Field) : Option Formula :=
  match examplePredicate e f with
  | .ok (some search) => b.ask? search (.field f)
  | _ => none

/-- What an example asks of its fields. -/
def exampleAsks (b : Builder) (e : Entity) : List Formula := e.fields.filterMap (b.exampleAsk? e)

/-! ## Parts answer what is asked -/

/-- A part that is read as a formula in every statement. -/
def Answers (b : Builder) (e : Entity) (part : Sql) (φ : Formula) : Prop :=
  ∀ sql, (b.reading e sql).Reads b.style .primary part φ

theorem answers_ask {target : Target} {search : Predicate} {condition : Condition} {operand : Sql}
    (hr : e.Reaches target) (hs : search.Sound)
    (hc : search.coerce target.dataType = .ok condition) (ho : b.operand target = .ok operand) :
    ∃ φ, b.ask? search target = some φ ∧
      b.Answers e (condition.sql operand target.dataType) φ := by
  refine ⟨condition.meaning (operand.write b.style), ?_, ?_⟩
  · unfold ask?
    rw [hc, ho]
  · intro sql
    have hknows : (b.reading e sql).Knows b.style operand :=
      ⟨rfl, bindings_operand ho, target, operand, hr, ho, rfl⟩
    exact Condition.reads_sql hknows (hs.coerce hc)

theorem columnCondition_answers {name : String} {search : Predicate} {part : Sql}
    (hs : search.Sound) (h : b.columnCondition e name search = .ok part) :
    ∃ target φ, e.resolve? name = some target ∧ b.ask? search target = some φ ∧
      b.Answers e part φ := by
  obtain ⟨target, condition, operand, ht, hc, ho, rfl⟩ := columnCondition_eq_ok.1 h
  obtain ⟨φ, hask, hanswers⟩ := answers_ask (Entity.reaches_of_resolve? ht) hs hc ho
  exact ⟨target, φ, ht, hask, hanswers⟩

theorem searchCondition_answers {name : String} {search : Predicate} {o : Option Sql}
    (hs : search.Sound) (h : b.searchCondition e search name = .ok o) :
    ∃ target, e.resolve? name = some target ∧
      ((b.ask? search target).isSome ↔ ∃ c, search.coerce target.dataType = .ok c) ∧
      Option.Rel (b.Answers e) o (b.ask? search target) := by
  obtain ⟨target, ht, hcondition⟩ := searchCondition_eq_ok.1 h
  refine ⟨target, ht, ?_⟩
  rcases hcondition with ⟨fault, hc, rfl⟩ | ⟨condition, hc, operand, ho, rfl⟩
  · -- the column cannot hold the search, so it is not asked
    have hnone : b.ask? search target = none := by
      unfold ask?
      rw [hc]
    rw [hnone, hc]
    exact ⟨⟨nofun, nofun⟩, .none⟩
  · obtain ⟨φ, hask, hanswers⟩ := answers_ask (Entity.reaches_of_resolve? ht) hs hc ho
    rw [hask, hc]
    exact ⟨⟨fun _ => ⟨condition, rfl⟩, fun _ => rfl⟩, .some hanswers⟩

theorem examplePredicate_eq_none {f : Field} : examplePredicate e f = .ok none ↔ ¬ e.Asks f := by
  unfold examplePredicate Entity.Asks
  cases e.value? f.name with
  | none =>
    refine ⟨fun _ hasks => ?_, fun _ => rfl⟩
    obtain ⟨value, hvalue, _⟩ := hasks
    exact absurd hvalue (by simp)
  | some value =>
    rw [mapError_eq_ok, Predicate.ofProperty_eq_none]
    constructor
    · intro hnothing hasks
      obtain ⟨other, hother, hne⟩ := hasks
      exact hne (Option.some.inj hother ▸ hnothing)
    · intro hasks
      by_contra hne
      exact hasks ⟨value, rfl, hne⟩

theorem sound_examplePredicate {f : Field} {search : Predicate}
    (h : examplePredicate e f = .ok (some search)) : search.Sound := by
  unfold examplePredicate at h
  split at h
  · exact absurd h (by simp)
  · exact Predicate.sound_ofProperty (mapError_eq_ok.1 h)

theorem exampleCondition_answers {f : Field} {o : Option Sql} (hf : f ∈ e.fields)
    (h : b.exampleCondition e f = .ok o) :
    ((b.exampleAsk? e f).isSome ↔ e.Asks f) ∧ Option.Rel (b.Answers e) o (b.exampleAsk? e f) := by
  have hnone := examplePredicate_eq_none (e := e) (f := f)
  unfold exampleAsk?
  rcases exampleCondition_eq_ok.1 h with ⟨hp, rfl⟩ | ⟨search, condition, operand, hp, hc, ho, rfl⟩
  · rw [hp] at hnone ⊢
    exact ⟨⟨nofun, fun hasks => absurd hasks (hnone.1 rfl)⟩, .none⟩
  · have ho' : b.operand (.field f) = .ok operand := ho
    obtain ⟨φ, hask, hanswers⟩ := answers_ask (.field hf) (sound_examplePredicate hp) hc ho'
    rw [hp] at hnone ⊢
    show ((b.ask? search (.field f)).isSome ↔ _) ∧ Option.Rel _ _ (b.ask? search (.field f))
    rw [hask]
    refine ⟨⟨fun _ => ?_, fun _ => rfl⟩, .some hanswers⟩
    by_contra hasks
    exact absurd (hnone.2 hasks) (by simp)

/-- Optional parts that answer what may be asked, the absent ones left out. -/
theorem answers_filterMap {α : Type} {ask : α → Option Formula} {xs : List α}
    {os : List (Option Sql)}
    (h : List.Forall₂ (fun x o => Option.Rel (b.Answers e) o (ask x)) xs os) :
    List.Forall₂ (b.Answers e) (os.filterMap id) (xs.filterMap ask) :=
  List.rel_filterMap (fun _ _ hrel => hrel) h.flip

theorem columnConditions_answer_of_sound {l : Listing} {parts : List Sql} (hl : l.Sound)
    (h : b.columnConditions e l = .ok parts) :
    List.Forall₂ (b.Answers e) parts (b.columnAsks e l) := by
  have hparts := (List.forall₂_and_left _ _).2 ⟨hl.columns, mapM_eq_ok.1 h⟩
  have hsome : (parts.map some).filterMap id = parts := by
    rw [List.filterMap_map]
    exact List.filterMap_some
  rw [← hsome]
  refine answers_filterMap (List.forall₂_map_right_iff.2 (hparts.imp ?_))
  intro c part hpart
  obtain ⟨target, φ, ht, hask, hanswers⟩ := columnCondition_answers hpart.1 hpart.2
  rw [ht, Option.bind_some, hask]
  exact .some hanswers

theorem searchConditions_answer_of_sound {l : Listing} {parts : List Sql} (hl : l.Sound)
    (h : b.searchConditions e l = .ok parts) :
    List.Forall₂ (b.Answers e) parts (b.searchAsks e l) := by
  unfold searchAsks
  rcases searchConditions_eq_ok.1 h with ⟨hs, rfl⟩ | ⟨search, hs, conditions, hc, rfl⟩
  · rw [hs]
    exact .nil
  · rw [hs]
    have hsound : ∀ name ∈ searchableColumns l, search.Sound := fun _ hn =>
      hl.search search hs (List.ne_nil_of_mem hn)
    have hnames := (List.forall₂_and_left _ _).2 ⟨hsound, mapM_eq_ok.1 hc⟩
    refine answers_filterMap (hnames.imp ?_)
    intro name o ho
    obtain ⟨target, ht, _, hrel⟩ := searchCondition_answers ho.1 ho.2
    rw [ht]
    exact hrel

/-- The conditions of the columns answer what is asked of them. -/
theorem columnConditions_answer {l : Listing} {parts : List Sql} (hl : l.Parsed)
    (h : b.columnConditions e l = .ok parts) :
    List.Forall₂ (b.Answers e) parts (b.columnAsks e l) :=
  columnConditions_answer_of_sound hl.sound h

/-- The conditions of the global search answer what is asked by it. -/
theorem searchConditions_answer {l : Listing} {parts : List Sql} (hl : l.Parsed)
    (h : b.searchConditions e l = .ok parts) :
    List.Forall₂ (b.Answers e) parts (b.searchAsks e l) :=
  searchConditions_answer_of_sound hl.sound h

/-- The conditions of an example answer what is asked of its fields. -/
theorem exampleConditions_answer {conditions : List (Option Sql)}
    (h : e.fields.mapM (b.exampleCondition e) = .ok conditions) :
    List.Forall₂ (b.Answers e) (conditions.filterMap id) (b.exampleAsks e) := by
  have hfields := (List.forall₂_and_left _ _).2 ⟨fun f hf => hf, mapM_eq_ok.1 h⟩
  exact answers_filterMap (hfields.imp fun f o hf => (exampleCondition_answers hf.1 hf.2).2)

/-! ## The clause says what is asked -/

/-- A clause whose text is read as a formula in every statement it is put into, and, if the entity
passes its check, in no other way. -/
structure Means (b : Builder) (e : Entity) (clause : Sql) (φ : Formula) : Prop where
  read : ∀ before after, Derives (b.reading e (before ++ clause ++ after)) .disjunction
    (Sql.charsFrom b.style before.bindings.length clause) φ
  only : e.check = .ok () → ∀ before after ψ,
    Derives (b.reading e (before ++ clause ++ after)) .disjunction
      (Sql.charsFrom b.style before.bindings.length clause) ψ → ψ = φ

theorem means_of_reads {clause : Sql} {φ : Formula}
    (h : ∀ sql, (b.reading e sql).Reads b.style .disjunction clause φ) : b.Means e clause φ where
  read before after := h _ _ (binds_reading before clause after)
  only := by
    intro hc before after ψ hψ
    have hφ := h _ _ (binds_reading before clause after)
    -- the clause is read to its end
    have hend : Level.disjunction.Follows [] := by
      intro c hm
      exact absurd hm (by simp)
    exact (derives_unique (sharp_reading hc _) hψ hφ hend hend rfl).1

/-- What a clause says of groups of formulas. There is no clause when every group is empty;
otherwise it is read as a formula of just their comparisons, in order, which holds when every group
does that is not empty. -/
structure Says (b : Builder) (e : Entity) (clause : Option Sql)
    (groups : List (Combinator × List Formula)) : Prop where
  absent : clause = none ↔ ∀ g ∈ groups, g.2 = []
  present : ∀ sql, clause = some sql → ∃ φ, b.Means e sql φ ∧
    φ.tests = groups.flatMap (fun g => g.2.flatMap Formula.tests) ∧
    ∀ truth, φ.Holds truth ↔ ∀ g ∈ groups, g.2 ≠ [] → g.1.Holds truth g.2

variable {parts columns searches : List Sql} {φs ψs : List Formula}

/-- Parts of one group, joined. -/
theorem reads_parts (c : Combinator) {part : Sql} {φ : Formula}
    (h : List.Forall₂ (b.Answers e) (part :: parts) (φ :: φs)) (sql : Sql) :
    (b.reading e sql).Reads b.style .disjunction (c.join (part :: parts)) (c.formula φ φs) :=
  c.reads_disjunction (c.reads_join (h.imp fun _ _ hanswers => hanswers sql))

theorem says_none {groups : List (Combinator × List Formula)} (h : ∀ g ∈ groups, g.2 = []) :
    b.Says e none groups where
  absent := ⟨fun _ => h, fun _ => rfl⟩
  present := by
    intro sql hsql
    exact absurd hsql.symm (Option.some_ne_none sql)

/-- A clause says what groups say if it is read as a formula that does. -/
theorem says_some {groups : List (Combinator × List Formula)} {clause : Sql} {φ : Formula}
    (hg : ∃ g ∈ groups, g.2 ≠ [])
    (h : ∀ sql, (b.reading e sql).Reads b.style .disjunction clause φ)
    (ht : φ.tests = groups.flatMap (fun g => g.2.flatMap Formula.tests))
    (hh : ∀ truth, φ.Holds truth ↔ ∀ g ∈ groups, g.2 ≠ [] → g.1.Holds truth g.2) :
    b.Says e (some clause) groups where
  absent := by
    obtain ⟨g, hm, hne⟩ := hg
    exact ⟨fun hs => absurd hs (Option.some_ne_none clause), fun hall => absurd (hall g hm) hne⟩
  present := by
    intro sql hsql
    rw [← Option.some.inj hsql]
    exact ⟨φ, means_of_reads h, ht, hh⟩

/-- One group. -/
theorem says_group (c : Combinator) (h : List.Forall₂ (b.Answers e) parts φs) :
    b.Says e (if parts = [] then none else some (c.join parts)) [(c, φs)] := by
  cases h with
  | nil =>
    refine says_none ?_
    intro g hg
    rw [List.mem_singleton.1 hg]
  | cons hfirst hrest =>
    rw [if_neg (List.cons_ne_nil _ _)]
    refine says_some ⟨_, List.mem_singleton_self _, List.cons_ne_nil _ _⟩
      (reads_parts c (.cons hfirst hrest)) ?_ ?_
    · rw [c.tests_formula]
      exact (List.append_nil _).symm
    · intro truth
      rw [c.holds_formula, List.forall_mem_singleton]
      exact ⟨fun hholds _ => hholds, fun hholds => hholds (List.cons_ne_nil _ _)⟩

/-- An empty group may be left out. -/
theorem Says.congr {clause : Option Sql} {groups others : List (Combinator × List Formula)}
    (h : b.Says e clause groups) (hm : ∀ g, g.2 ≠ [] → (g ∈ groups ↔ g ∈ others))
    (ht : groups.flatMap (fun g => g.2.flatMap Formula.tests) =
      others.flatMap fun g => g.2.flatMap Formula.tests) : b.Says e clause others where
  absent := by
    rw [h.absent]
    constructor
    · intro hall g hg
      by_contra hne
      exact hne (hall g ((hm g hne).2 hg))
    · intro hall g hg
      by_contra hne
      exact hne (hall g ((hm g hne).1 hg))
  present := by
    intro sql hsql
    obtain ⟨φ, hmeans, htests, hholds⟩ := h.present sql hsql
    refine ⟨φ, hmeans, htests.trans ht, fun truth => (hholds truth).trans ?_⟩
    exact ⟨fun hall g hg hne => hall g ((hm g hne).2 hg) hne,
      fun hall g hg hne => hall g ((hm g hne).1 hg) hne⟩

/-- Both groups of a listing. -/
theorem says_combine (hc : List.Forall₂ (b.Answers e) columns φs)
    (hs : List.Forall₂ (b.Answers e) searches ψs) :
    b.Says e (combine columns searches) [(.and, φs), (.or, ψs)] := by
  have hempty : ∀ {g : Combinator × List Formula} {c : Combinator}, g.2 ≠ [] → g ≠ (c, []) := by
    intro g c hne hg
    rw [hg] at hne
    exact hne rfl
  cases hc with
  | nil =>
    -- with one group empty, the clause is the other one without parentheses
    have hclause : combine [] searches =
        if searches = [] then none else some (Combinator.or.join searches) := by
      cases searches with
      | nil => rfl
      | cons part rest => rfl
    rw [hclause]
    refine (says_group .or hs).congr (fun g hne => ?_) rfl
    exact ⟨List.mem_cons_of_mem _, fun hg => (List.mem_cons.1 hg).resolve_left (hempty hne)⟩
  | @cons column φ columns φs hcolumn hcolumns =>
    cases hs with
    | nil =>
      have hclause : combine (column :: columns) [] =
          if column :: columns = [] then none
          else some (Combinator.and.join (column :: columns)) := rfl
      rw [hclause]
      refine (says_group .and (.cons hcolumn hcolumns)).congr (fun g hne => ?_) rfl
      constructor
      · intro hg
        exact List.mem_cons.2 (.inl (List.mem_singleton.1 hg))
      · intro hg
        refine List.mem_singleton.2 ((List.mem_cons.1 hg).resolve_right ?_)
        intro hg
        exact hempty hne (List.mem_singleton.1 hg)
    | @cons search ψ searches ψs hsearch hsearches =>
      have hfirst := reads_parts .and (.cons hcolumn hcolumns)
      have hsecond := reads_parts .or (.cons hsearch hsearches)
      refine says_some ⟨_, List.mem_cons_self, List.cons_ne_nil _ _⟩
        (fun sql => (hfirst sql).both (hsecond sql)) ?_ ?_
      · show Formula.tests _ ++ Formula.tests _ = _ ++ (_ ++ [])
        rw [Combinator.tests_formula, Combinator.tests_formula, List.append_nil]
      · intro truth
        rw [List.forall_mem_cons, List.forall_mem_singleton,
          forall_prop_of_true (List.cons_ne_nil φ φs), forall_prop_of_true (List.cons_ne_nil ψ ψs)]
        exact and_congr (Combinator.holds_formula .and truth φ φs)
          (Combinator.holds_formula .or truth ψ ψs)

/--
**Clauses say what was asked.**

The clause of a listing, whose searches were read from their wire form, says that each column with a
search of its own meets it, and that one of the searchable columns meets the global search. Every
column with a search is asked, and of the searchable columns those that can hold what is searched
for. The clause of an example says that all fields whose value asks for something meet it, or that
one does, as the combinator has it.
-/
theorem clauses_say (b : Builder) (e : Entity) :
    (∀ l clause, l.Parsed → b.filterClause e l = .ok clause →
      (∀ c ∈ searchedColumns l,
        ∃ target, e.resolve? c.1 = some target ∧ (b.ask? c.2 target).isSome) ∧
      (∀ search, l.search = some search → ∀ name ∈ searchableColumns l,
        ∃ target, e.resolve? name = some target ∧
          ((b.ask? search target).isSome ↔ ∃ c, search.coerce target.dataType = .ok c)) ∧
      b.Says e clause [(.and, b.columnAsks e l), (.or, b.searchAsks e l)]) ∧
    ∀ combinator clause, b.exampleClause e combinator = .ok clause →
      (∀ f ∈ e.fields, (b.exampleAsk? e f).isSome ↔ e.Asks f) ∧
      b.Says e clause [(combinator, b.exampleAsks e)] := by
  constructor
  · intro l clause hl h
    -- each part answers its question, and joining the parts joins the answers
    obtain ⟨columns, searches, hcolumns, hsearches, rfl⟩ := filterClause_eq_ok.1 h
    refine ⟨?_, ?_, says_combine (columnConditions_answer hl hcolumns)
      (searchConditions_answer hl hsearches)⟩
    · intro c hc
      obtain ⟨part, _, hpart⟩ := exists_of_mapM_mem hcolumns hc
      obtain ⟨target, φ, ht, hask, _⟩ :=
        columnCondition_answers (hl.sound_searchedColumns c hc) hpart
      exact ⟨target, ht, by rw [hask]; rfl⟩
    · intro search hs name hn
      rcases searchConditions_eq_ok.1 hsearches with ⟨hnone, _⟩ | ⟨_, hsome, _, hc, _⟩
      · exact absurd (hs.symm.trans hnone) (Option.some_ne_none search)
      · rw [Option.some.inj (hsome.symm.trans hs)] at hc
        obtain ⟨o, _, ho⟩ := exists_of_mapM_mem hc hn
        obtain ⟨target, ht, hasked, _⟩ := searchCondition_answers (hl.sound_search search hs) ho
        exact ⟨target, ht, hasked⟩
  · intro combinator clause h
    obtain ⟨conditions, hconditions, rfl⟩ := exampleClause_eq_ok.1 h
    refine ⟨?_, says_group combinator (exampleConditions_answer hconditions)⟩
    intro f hf
    obtain ⟨o, _, ho⟩ := exists_of_mapM_mem hconditions hf
    exact (exampleCondition_answers hf ho).1

/-- A library card. -/
def annsCard : Entity where
  table := "Card"
  fields := [{ Field.new "Id" .integer with isKey := true }, Field.new "Name" .text]
  properties := ⟨[("Id", .number (.ofUInt64 7)), ("Name", .string "Ann")], by simp⟩

/-- Cards of a name that are not among the first five. -/
def namedBeyondFive : Listing where
  start := 0
  length := 0
  search := some (.equals "Ann")
  columns := [⟨"Id", true, some (.not (.range (some "1") (some "5")))⟩, ⟨"Name", true, none⟩]
  sorts := []
  total := none
  filteredRecords := none

theorem clauses_say_namedBeyondFive :
    (∃ clause, Builder.default.filterClause annsCard namedBeyondFive = .ok (some clause) ∧
      clause.write Builder.default.style =
        "(NOT ((t0.Id >= @p0 AND t0.Id <= @p1))) AND (t0.Name = @p2)" ∧
      ∃ φ, Builder.default.Means annsCard clause φ ∧ ∀ truth, φ.Holds truth ↔
        ¬ (truth ⟨"t0.Id", .atLeast, [.integer 1]⟩ ∧ truth ⟨"t0.Id", .atMost, [.integer 5]⟩) ∧
          truth ⟨"t0.Name", .equals, [.text "Ann"]⟩) ∧
    ∃ clause, Builder.default.exampleClause annsCard .or = .ok (some clause) ∧
      clause.write Builder.default.style = "t0.Id = @p0 OR t0.Name = @p1" ∧
      ∃ φ, Builder.default.Means annsCard clause φ ∧ ∀ truth, φ.Holds truth ↔
        truth ⟨"t0.Id", .equals, [.integer 7]⟩ ∨ truth ⟨"t0.Name", .equals, [.text "Ann"]⟩ := by
  have hparsed : namedBeyondFive.Parsed := by
    constructor
    · intro c hc p hp
      rcases List.mem_cons.1 hc with rfl | hc
      · exact ⟨"NOT_1_RANGE_5", by rw [← hp]; decide⟩
      · rw [List.mem_singleton.1 hc] at hp
        exact absurd hp (by simp)
    · intro p hp
      exact ⟨"Ann", by rw [← hp]; decide⟩
  have hsay := clauses_say .default annsCard
  obtain ⟨φ, hφ, _, hholds⟩ := (hsay.1 namedBeyondFive _ hparsed rfl).2.2.present _ rfl
  obtain ⟨ψ, hψ, _, hholds'⟩ := (hsay.2 .or _ rfl).2.present _ rfl
  refine ⟨⟨_, rfl, rfl, φ, hφ, fun truth => (hholds truth).trans ?_⟩,
    ⟨_, rfl, rfl, ψ, hψ, fun truth => (hholds' truth).trans ?_⟩⟩
  · have hcolumns : Builder.default.columnAsks annsCard namedBeyondFive =
        [.not (.and (.test ⟨"t0.Id", .atLeast, [.integer 1]⟩)
          (.test ⟨"t0.Id", .atMost, [.integer 5]⟩))] := rfl
    have hsearches : Builder.default.searchAsks annsCard namedBeyondFive =
        [.test ⟨"t0.Name", .equals, [.text "Ann"]⟩] := rfl
    rw [hcolumns, hsearches]
    simp [Combinator.Holds, Formula.Holds]
  · have hasks : Builder.default.exampleAsks annsCard =
        [.test ⟨"t0.Id", .equals, [.integer 7]⟩, .test ⟨"t0.Name", .equals, [.text "Ann"]⟩] := rfl
    rw [hasks]
    simp [Combinator.Holds, Formula.Holds]

end Builder

end RecordSql
