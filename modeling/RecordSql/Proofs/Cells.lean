import RecordSql.Proofs.ResultColumns
import RecordSql.Proofs.TextBytes
import RecordSql.Proofs.TextSearch

/-!
# The cells of a written row

An insert and an update go through the fields of an entity and put something into the column of each
that takes part: the **cell** of the field. There are three kinds, and the value and the type of the
field decide between them.

* The sentinel `NOW` on a date or a time is the current time of the database, and binds nothing.
* Any other value is coerced to the type of the field and bound.
* The value of an encrypted field is bound inside the call that encrypts it.

Columns, expressions and parameters are three lists, and a cell that binds nothing is a place where
the last two part. So a row is numbered once: every entry gets the number that the next parameter
has at it. The expressions and the parameters are both read off the numbered row, and the
placeholder in an expression has the number of the parameter of the same entry.
-/

namespace RecordSql

open Checked

/-! ## Cells -/

/-- What a row gives a field. -/
inductive Cell where
  /-- The current time, as a column of the type wants it. -/
  | now (type : DataType)
  /-- A parameter for a column of the type. -/
  | bound (value : Value) (type : DataType)
  /-- A parameter that is encrypted with a key. -/
  | sealed (value : Value) (keys : EncryptionKeys)
  deriving DecidableEq

namespace Cell

/-- The cell as SQL. -/
def sql (d : Dialect) : Cell → Sql
  | .now type => [.text (d.currentTime type)]
  | .bound value type => [.bind (.input value type)]
  | .sealed value keys =>
    [.keyed (Dialect.encryptOpening keys), .bind (.input value .encrypted),
      .text Dialect.encryptionClosing]

/-- The cell as text, when the next parameter has the number `n`. -/
def text (style : Style) (n : Nat) : Cell → String
  | .now type => style.dialect.currentTime type
  | .bound _ _ => style.dialect.placeholder (parameterName n)
  | .sealed _ keys =>
    Dialect.encryptOpening keys ++ style.dialect.placeholder (parameterName n) ++
      Dialect.encryptionClosing

/-- What the cell binds. -/
def binding? : Cell → Option Binding
  | .now _ => none
  | .bound value type => some (.input value type)
  | .sealed value _ => some (.input value .encrypted)

theorem bindings_sql (d : Dialect) (c : Cell) : (c.sql d).bindings = c.binding?.toList := by
  cases c <;> rfl

theorem charsFrom_sql (style : Style) (n : Nat) (c : Cell) :
    Sql.charsFrom style n (c.sql style.dialect) = (c.text style n).toList := by
  cases c with
  | now type => exact List.append_nil _
  | bound value type => exact List.append_nil _
  | sealed value keys =>
    rw [text, String.toList_append, String.toList_append, List.append_assoc,
      ← List.append_nil Dialect.encryptionClosing.toList]
    rfl

end Cell

/-! ## Rows -/

/-- A field with what a row gives it. -/
structure Entry where
  field : Field
  cell : Cell

namespace Entry

/-- What an entry binds. -/
def binding? (x : Entry) : Option Binding := x.cell.binding?

/-- A row with the number that the next parameter has at each of its entries. -/
def numbered (n : Nat) : List Entry → List (Nat × Entry)
  | [] => []
  | x :: rest => (n, x) :: numbered (n + x.binding?.toList.length) rest

/-- The columns of a row. -/
def columns (style : Style) (row : List Entry) : List String :=
  row.map fun x => style.identifier x.field.columnName

/-- The expressions of a row, its first parameter having the number `n`. -/
def values (style : Style) (n : Nat) (row : List Entry) : List String :=
  (numbered n row).map fun p => p.2.cell.text style p.1

/-- The parameter of an entry, if it binds something, under the number `n`. -/
def parameter? (n : Nat) (x : Entry) : Option Parameter :=
  x.binding?.map fun binding => ⟨binding, parameterName n⟩

/-- The parameters of a row, the first having the number `n`. -/
def parameters (n : Nat) (row : List Entry) : List Parameter :=
  (numbered n row).filterMap fun p => p.2.parameter? p.1

/-- What the cells of a row bind, in order. -/
def bindings (row : List Entry) : List Binding := row.filterMap binding?

variable {row : List Entry}

/-- The number at an entry counts the parameters of the entries in front of it. -/
theorem getElem?_numbered (n i : Nat) :
    (numbered n row)[i]? = row[i]?.map fun x => (n + (bindings (row.take i)).length, x) := by
  induction row generalizing n i with
  | nil => rfl
  | cons x rest ih =>
    cases i with
    | zero => rfl
    | succ i =>
      have hlength : (bindings ((x :: rest).take (i + 1))).length =
          x.binding?.toList.length + (bindings (rest.take i)).length := by
        rw [List.take_succ_cons, bindings, bindings, List.filterMap_eq_flatMap_toList,
          List.flatMap_cons, List.length_append, ← List.filterMap_eq_flatMap_toList]
      rw [numbered, List.getElem?_cons_succ, List.getElem?_cons_succ, ih, hlength, Nat.add_assoc]

/-- The parameters of a row are numbered on, one after the other. -/
theorem parameters_eq (n : Nat) :
    parameters n row = ((bindings row).zipIdx n).map fun p => ⟨p.1, parameterName p.2⟩ := by
  unfold parameters bindings
  induction row generalizing n with
  | nil => rfl
  | cons x rest ih =>
    rw [numbered]
    cases hx : x.binding? with
    | none =>
      have hnone : x.parameter? n = none := by rw [parameter?, hx]; rfl
      simp only [List.filterMap_cons, hnone, hx]
      exact ih n
    | some binding =>
      have hsome : x.parameter? n = some ⟨binding, parameterName n⟩ := by rw [parameter?, hx]; rfl
      simp only [List.filterMap_cons, hsome, hx, List.zipIdx_cons, List.map_cons]
      exact congrArg (List.cons _) (ih (n + 1))

/-- What an entry binds has its place behind what the entries in front of it bind. -/
theorem getElem?_parameters {i : Nat} {x : Entry} {binding : Binding} (n : Nat)
    (hi : row[i]? = some x) (hx : x.binding? = some binding) :
    (parameters n row)[(bindings (row.take i)).length]? =
      some ⟨binding, parameterName (n + (bindings (row.take i)).length)⟩ := by
  obtain ⟨hlt, hget⟩ := List.getElem?_eq_some_iff.1 hi
  have hsplit : bindings row =
      bindings (row.take i) ++ binding :: bindings (row.drop (i + 1)) := by
    conv_lhs => rw [← List.take_append_drop i row, List.drop_eq_getElem_cons hlt, hget]
    rw [bindings, List.filterMap_append, List.filterMap_cons_some hx]
    rfl
  rw [parameters_eq, List.getElem?_map, List.getElem?_zipIdx, hsplit,
    List.getElem?_append_right (Nat.le_refl _), Nat.sub_self]
  rfl

/-- What cells bind is given, never handed out. -/
theorem isInput_bindings : ∀ x ∈ bindings row, x.isOutput = false := by
  intro x hx
  obtain ⟨⟨_, c⟩, _, hcell⟩ := List.mem_filterMap.1 hx
  cases c with
  | now type => exact absurd hcell (by simp [binding?, Cell.binding?])
  | bound value type => rw [← Option.some.inj hcell]; rfl
  | sealed value keys => rw [← Option.some.inj hcell]; rfl

/-- The parts that are made of the entries of a row are numbered as the row is. -/
theorem textsFrom_numbered {style : Style} {part : Entry → Sql} {text : Nat → Entry → String}
    (hb : ∀ x, (part x).bindings = x.binding?.toList)
    (ht : ∀ n x, Sql.charsFrom style n (part x) = (text n x).toList) (n : Nat) :
    Sql.textsFrom style n (row.map part) =
      ((numbered n row).map fun p => text p.1 p.2).map String.toList := by
  induction row generalizing n with
  | nil => rfl
  | cons x rest ih =>
    rw [List.map_cons, Sql.textsFrom, ht, hb, ih]
    rfl

theorem flatMap_bindings {part : Entry → Sql}
    (hb : ∀ x, (part x).bindings = x.binding?.toList) :
    (row.map part).flatMap Sql.bindings = bindings row := by
  rw [List.flatMap_map, List.flatMap_congr fun x _ => hb x, bindings,
    List.filterMap_eq_flatMap_toList]

/-- A list of parts that are made of the entries is their texts with commas between them. -/
theorem charsFrom_list {style : Style} {part : Entry → Sql} {text : Nat → Entry → String}
    (hb : ∀ x, (part x).bindings = x.binding?.toList)
    (ht : ∀ n x, Sql.charsFrom style n (part x) = (text n x).toList) (n : Nat) :
    Sql.charsFrom style n (Sql.list (row.map part)) =
      (", ".intercalate ((numbered n row).map fun p => text p.1 p.2)).toList := by
  rw [Sql.list, Sql.charsFrom_joined, textsFrom_numbered hb ht, String.toList_intercalate]

end Entry

/-! ## What a value is expressed as -/

/-- The sentinel for the current time: the letters of `now`, each in either case, with blanks around
them. -/
inductive IsSentinel : Json → Prop where
  | text {left right : List Char} {n o w : Char} : Text.Blank left → Text.Blank right →
      n = 'n' ∨ n = 'N' → o = 'o' ∨ o = 'O' → w = 'w' ∨ w = 'W' →
      IsSentinel (.string (String.ofList (left ++ [n, o, w] ++ right)))

theorem not_isBlank_sentinel {n o w : Char} (hn : n = 'n' ∨ n = 'N') (ho : o = 'o' ∨ o = 'O')
    (hw : w = 'w' ∨ w = 'W') : ∀ c ∈ [n, o, w], Text.isBlank c = false := by
  refine List.forall_mem_cons.2 ⟨?_, List.forall_mem_cons.2 ⟨?_, List.forall_mem_singleton.2 ?_⟩⟩
  · rcases hn with rfl | rfl <;> decide
  · rcases ho with rfl | rfl <;> decide
  · rcases hw with rfl | rfl <;> decide

theorem lower_eq_sentinel {n o w : Char} :
    Text.lower [n, o, w] = ['n', 'o', 'w'] ↔
      (n = 'n' ∨ n = 'N') ∧ (o = 'o' ∨ o = 'O') ∧ (w = 'w' ∨ w = 'W') := by
  rw [Text.lower, List.map_cons, List.map_cons, List.map_cons, List.map_nil]
  constructor
  · intro h
    obtain ⟨hn, ho, hw, _⟩ := by simpa only [List.cons.injEq] using h
    exact ⟨Text.eq_of_toLower hn, Text.eq_of_toLower ho, Text.eq_of_toLower hw⟩
  · rintro ⟨rfl | rfl, rfl | rfl, rfl | rfl⟩ <;> rfl

theorem isCurrentTime_string {s : String} :
    isCurrentTime (.string s) = true ↔ Text.lower (Text.trim s.toList) = ['n', 'o', 'w'] := by
  have hword : currentTimeWord.toList = ['n', 'o', 'w'] := rfl
  rw [isCurrentTime, decide_eq_true_iff, ← String.toList_inj, Text.lowerCase, Text.strip,
    String.toList_ofList, String.toList_ofList, hword]

/-- **The sentinel is recognised by its letters.** -/
theorem isCurrentTime_iff {json : Json} : isCurrentTime json = true ↔ IsSentinel json := by
  constructor
  · intro h
    cases json with
    | string s =>
      have hword := isCurrentTime_string.1 h
      obtain ⟨left, right, hl, hr, hs⟩ := Text.exists_padded s.toList
      generalize Text.trim s.toList = cs at hword hs
      obtain ⟨n, o, w, rfl⟩ : ∃ n o w, cs = [n, o, w] :=
        List.length_eq_three.1 (by simpa [Text.lower] using congrArg List.length hword)
      obtain ⟨hn, ho, hw⟩ := lower_eq_sentinel.1 hword
      rw [← String.ofList_toList (s := s), hs]
      exact .text hl hr hn ho hw
    | _ => exact absurd h Bool.false_ne_true
  · rintro ⟨hl, hr, hn, ho, hw⟩
    have htrim := Text.trim_padded hl (.of_not_blank (not_isBlank_sentinel hn ho hw)) hr
    rw [isCurrentTime_string, String.toList_ofList, htrim]
    exact lower_eq_sentinel.2 ⟨hn, ho, hw⟩

/-- The value asks for the current time of a date or a time. -/
def Field.AsksForNow (f : Field) (json : Json) : Prop :=
  (f.dataType = .date ∨ f.dataType = .dateTime) ∧ IsSentinel json

theorem Field.asksForNow_iff {f : Field} {json : Json} :
    f.AsksForNow json ↔ (f.dataType.isTemporal && isCurrentTime json) = true := by
  rw [AsksForNow, Bool.and_eq_true, isCurrentTime_iff]
  refine and_congr_left fun _ => ?_
  cases f.dataType <;> simp [DataType.isTemporal]

instance (f : Field) (json : Json) : Decidable (f.AsksForNow json) :=
  decidable_of_iff _ Field.asksForNow_iff.symm

namespace Builder

variable {b : Builder} {e : Entity} {f : Field} {json : Json} {sql : Sql} {c c' : Cell}

/-- What is written for a value of a field. Encryption takes the keys of the settings, and a dialect
that has it. -/
inductive Expresses (b : Builder) (f : Field) (json : Json) : Cell → Prop where
  | now : f.AsksForNow json → Expresses b f json (.now f.dataType)
  | bound {value : Value} : ¬ f.AsksForNow json → f.dataType ≠ .encrypted →
      Value.coerce json f.dataType = .ok value → Expresses b f json (.bound value f.dataType)
  | sealed {value : Value} {keys : EncryptionKeys} : f.dataType = .encrypted →
      Value.coerce json f.dataType = .ok value → b.dialect = .sqlServer →
      b.config.encryption = some keys → Expresses b f json (.sealed value keys)

/-- What is encrypted is no date, and takes no current time. -/
theorem not_asksForNow_of_encrypted (h : f.dataType = .encrypted) : ¬ f.AsksForNow json := by
  rintro ⟨hdate | htime, _⟩
  · exact absurd (h.symm.trans hdate) (by simp)
  · exact absurd (h.symm.trans htime) (by simp)

/-- **A value is written as one cell.** -/
theorem valueExpression_eq_ok_iff :
    b.valueExpression e f json = .ok sql ↔
      ∃ c, b.Expresses f json c ∧ c.sql b.dialect = sql := by
  rw [valueExpression_eq_ok, ← Bool.not_eq_true, ← Field.asksForNow_iff]
  constructor
  · rintro (⟨hnow, rfl⟩ | ⟨hno, value, hv, ⟨hf, keys, hk, hs⟩ | ⟨hf, rfl⟩⟩)
    · exact ⟨_, .now hnow, rfl⟩
    · obtain ⟨hd, hkeys⟩ := keysFor_eq_ok.1 hk
      rw [hd, Dialect.encrypt, Except.ok.injEq, hf] at hs
      exact ⟨_, .sealed hf hv hd hkeys, hs⟩
    · exact ⟨_, .bound hno hf hv, rfl⟩
  · rintro ⟨c, hc, rfl⟩
    cases hc with
    | now hnow => exact .inl ⟨hnow, rfl⟩
    | bound hno hf hv => exact .inr ⟨hno, _, hv, .inr ⟨hf, rfl⟩⟩
    | sealed hf hv hd hkeys =>
      refine .inr ⟨not_asksForNow_of_encrypted hf, _, hv, .inl ⟨hf, _,
        keysFor_eq_ok.2 ⟨hd, hkeys⟩, ?_⟩⟩
      rw [hd, hf]
      rfl

/-- A value is expressed in one way only. -/
theorem Expresses.unique (h : b.Expresses f json c) (h' : b.Expresses f json c') : c = c' := by
  cases h with
  | now hnow =>
    cases h' with
    | now _ => rfl
    | bound hno _ _ => exact absurd hnow hno
    | sealed hf _ _ _ => exact absurd hnow (not_asksForNow_of_encrypted hf)
  | bound hno hf hv =>
    cases h' with
    | now hnow => exact absurd hnow hno
    | bound _ _ hv' => rw [Except.ok.inj (hv.symm.trans hv')]
    | sealed hf' _ _ _ => exact absurd hf' hf
  | sealed hf hv _ hk =>
    cases h' with
    | now hnow => exact absurd hnow (not_asksForNow_of_encrypted hf)
    | bound _ hf' _ => exact absurd hf hf'
    | sealed _ hv' _ hk' =>
      rw [Except.ok.inj (hv.symm.trans hv'), Option.some.inj (hk.symm.trans hk')]

end Builder

end RecordSql
