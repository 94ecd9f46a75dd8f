import RecordSql.Proofs.ComparedValues

/-!
# Parameters are typed

The value and the type of a parameter are put together where the value is bound, and most builders
have coerced the value before, to the type of what it is compared with or assigned to. So a value
has the type that it is bound as, and it is null only when there was nothing to coerce.

* An encrypted column is given text, and so is a search for a part.
* A condition compares with what a search, a key or an aggregate gave. Each of them is passed over
  when it is null, and what is left is coerced to something else than a null.
* An assignment sets a field without a value to null, and the default of a field may be null. Both
  are assigned, so a null is only found in a `SET` or among `VALUES`.

Which clause a value stands in is told by the words before it. The invariant of all parts of a
statement is about what stands before a null in the part, and what a statement has in front of the
part cannot change it.
-/

namespace RecordSql

open Checked

variable {b : Builder} {e : Entity} {r : Request} {s : Statement} {a c sql before : Sql}
  {x : Binding}

/-! ## Bindings -/

namespace Binding

/-- A binding whose value has the type that it is bound as. -/
structure Typed (x : Binding) : Prop where
  /-- What is encrypted travels as text. -/
  clear : x.dataType ≠ .encrypted
  /-- The value is of the type, unless it is null. -/
  value : x.value = .null ∨ x.value.type? = some x.dataType
  /-- Only a text is searched for as a part. -/
  wildcard : x.wildcard = true → x.dataType = .text ∧ ∃ s, x.value = .text s
  /-- The database is given nothing where it fills the value in. -/
  output : x.direction = .output → x.value = .null ∧ x.wildcard = false

/-- A typed binding that gives the database a value, if it is there to give one. -/
def Filled (x : Binding) : Prop := x.Typed ∧ (x.direction = .input → x.value ≠ .null)

end Binding

theorem DataType.parameterType_ne (type : DataType) : type.parameterType ≠ .encrypted := by
  cases type <;> decide

namespace Binding

theorem typed_input {value : Value} {type : DataType}
    (h : value = .null ∨ value.type? = some type.parameterType) : (input value type).Typed :=
  ⟨type.parameterType_ne, h, fun hw => absurd hw (by simp [input]),
    fun ho => absurd ho (by simp [input])⟩

/-- What is coerced to a type is bound as it. -/
theorem typed_of_coerce {json : Json} {value : Value} {type : DataType}
    (h : Value.coerce json type = .ok value) : (input value type).Typed := by
  refine typed_input ?_
  cases hj : json.isNull with
  | true =>
    unfold Value.coerce at h
    rw [if_pos hj] at h
    exact .inl (Except.ok.inj h).symm
  | false => exact .inr (Value.type?_of_coerce hj h)

/-- No condition compares with a null. -/
theorem Compared.filled (h : x.Compared) : x.Filled := by
  cases h with
  | search text =>
    exact ⟨⟨by simp [Binding.search], .inr rfl, fun _ => ⟨rfl, text, rfl⟩,
      fun ho => absurd ho (by simp [Binding.search])⟩, fun _ => by simp [Binding.search]⟩
  | value hj hv => exact ⟨typed_of_coerce hv, fun _ => Value.ne_null_of_coerce hj hv⟩

theorem filled_output (type : DataType) : (output type).Filled :=
  ⟨⟨type.parameterType_ne, .inl rfl, fun hw => absurd hw (by simp [output]), fun _ => ⟨rfl, rfl⟩⟩,
    fun hi => absurd hi (by simp [output])⟩

end Binding

/-! ## Places -/

/-- The words that open the clauses which values are bound in. -/
def clauseWords : List String := [" SET ", " VALUES (", " WHERE ", " HAVING "]

/-- The clause that a piece opens. -/
def Piece.clause? : Piece → Option String
  | .text s => if s ∈ clauseWords then some s else none
  | _ => none

namespace Sql

/-- The clause that comes after these pieces: the last that one of them opens. -/
def clause? (sql : Sql) : Option String := (sql.filterMap Piece.clause?).getLast?

/-- What comes after these pieces is compared with, in a `WHERE` or a `HAVING`. -/
def InCondition (before : Sql) : Prop :=
  before.clause? = some " WHERE " ∨ before.clause? = some " HAVING "

/-- No word in the SQL ends a list of values or opens a clause. -/
def Unbroken (sql : Sql) : Prop := ∀ word ∈ ")" :: clauseWords, .text word ∉ sql

instance (sql : Sql) : Decidable sql.Unbroken :=
  inferInstanceAs (Decidable (∀ word ∈ ")" :: clauseWords, .text word ∉ sql))

/-- What comes after these pieces is assigned: to the column of a `SET`, or in the list of
`VALUES`. -/
inductive Assigns : Sql → Prop where
  | set {front : Sql} (t : TableAlias) (column : String) : front.clause? = some " SET " →
      Assigns (front ++ [.target t column, .text " = "])
  | values (front : Sql) {items : Sql} : items.Unbroken →
      Assigns (front ++ .text " VALUES (" :: items)

/-- The SQL binds the value right behind these pieces. -/
def Binds (sql before : Sql) (x : Binding) : Prop := before ++ [.bind x] <+: sql

theorem clause?_append (a c : Sql) : clause? (a ++ c) = (clause? c).or (clause? a) := by
  rw [clause?, List.filterMap_append, List.getLast?_append]
  rfl

namespace Unbroken

theorem append (ha : Unbroken a) (hc : Unbroken c) : Unbroken (a ++ c) := fun word hw hm =>
  (List.mem_append.1 hm).elim (ha word hw) (hc word hw)

theorem mono (h : Unbroken sql) (hs : a ⊆ sql) : Unbroken a := fun word hw hm =>
  h word hw (hs hm)

/-- What no word breaks opens no clause. -/
theorem clause?_eq_none (h : Unbroken sql) : sql.clause? = none := by
  have hnone : sql.filterMap Piece.clause? = [] := by
    rw [List.filterMap_eq_nil_iff]
    intro p hp
    cases p with
    | text s =>
      refine if_neg fun hs => ?_
      exact h s (List.mem_cons_of_mem _ hs) hp
    | _ => rfl
  rw [clause?, hnone]
  rfl

theorem list {parts : List Sql} (h : ∀ part ∈ parts, Unbroken part) : Unbroken (list parts) := by
  have hcomma : Unbroken [.text ", "] := by simp [Unbroken, clauseWords]
  exact joined_induction (fun _ _ => List.not_mem_nil)
    (fun _ _ ha hc => ha.append (hcomma.append hc)) h

end Unbroken

namespace Assigns

theorem prepend (front : Sql) (h : Assigns before) : Assigns (front ++ before) := by
  cases h with
  | set t column hset =>
    rw [← List.append_assoc]
    refine .set t column ?_
    rw [clause?_append, hset]
    rfl
  | values front' hitems =>
    rw [← List.append_assoc]
    exact .values _ hitems

/-- What is assigned is not compared with. -/
theorem not_inCondition (h : Assigns before) : ¬ InCondition before := by
  have hclause : before.clause? = some " SET " ∨ before.clause? = some " VALUES (" := by
    cases h with
    | set t column hset => exact .inl (by rw [clause?_append, hset]; rfl)
    | @values front items hitems =>
      have hvalues : clause? (.text " VALUES (" :: items) = some " VALUES (" := by
        have hitems := hitems.clause?_eq_none
        rw [← List.singleton_append, clause?_append, hitems]
        rfl
      exact .inr (by rw [clause?_append, hvalues]; rfl)
  unfold InCondition
  rcases hclause with h | h <;> rw [h] <;> decide

end Assigns

/-! ### What is bound where -/

theorem Binds.mem (h : sql.Binds before x) : x ∈ sql.bindings := by
  obtain ⟨after, rfl⟩ := h
  rw [bindings_append, bindings_append]
  exact List.mem_append_left _ (List.mem_append_right _ (List.mem_singleton.2 rfl))

theorem exists_binds (h : x ∈ sql.bindings) : ∃ before, sql.Binds before x := by
  obtain ⟨p, hp, hx⟩ := List.mem_filterMap.1 h
  obtain rfl := Piece.eq_bind_of_binding? hx
  obtain ⟨before, after, rfl⟩ := List.append_of_mem hp
  exact ⟨before, after, by simp⟩

theorem Binds.append_left (h : a.Binds before x) (c : Sql) : (a ++ c).Binds before x :=
  h.trans (List.prefix_append a c)

/-- What two parts bind one of them binds. -/
theorem Binds.of_append (h : (a ++ c).Binds before x) :
    a.Binds before x ∨ ∃ inner, before = a ++ inner ∧ c.Binds inner x := by
  rcases List.prefix_or_prefix_of_prefix h (List.prefix_append a c) with ha | ⟨inner, hinner⟩
  · exact .inl ha
  · rcases List.eq_nil_or_concat inner with rfl | ⟨inner, p, rfl⟩
    · rw [List.append_nil] at hinner
      exact .inl ⟨[], by rw [List.append_nil, hinner]⟩
    · rw [List.concat_eq_append, ← List.append_assoc] at hinner
      obtain ⟨hbefore, hp⟩ := List.append_inj' hinner rfl
      obtain rfl := List.singleton_inj.1 hp
      subst hbefore
      rw [Binds, List.append_assoc, List.prefix_append_right_inj] at h
      exact .inr ⟨inner, rfl, h⟩

/-- What stands behind wording is found behind it. -/
theorem Binds.of_text {text : String} (h : Binds (.text text :: sql) before x) :
    ∃ inner, before = .text text :: inner ∧ sql.Binds inner x := by
  rcases Binds.of_append (a := [.text text]) h with h | ⟨inner, hbefore, h⟩
  · exact absurd h.mem List.not_mem_nil
  · exact ⟨inner, hbefore, h⟩

theorem Binds.of_bind {y : Binding} (h : Binds [.bind y] before x) : before = [] ∧ x = y := by
  obtain ⟨after, h⟩ := h
  cases before with
  | nil => exact ⟨rfl, by simpa using (List.cons.inj h).1⟩
  | cons p before => exact absurd (List.cons.inj h).2 (by simp)

/-- What a list of parts binds one of them binds. -/
theorem Binds.of_joined {separator : String} {parts : List Sql}
    (h : (joined separator parts).Binds before x) :
    ∃ part ∈ parts, ∃ front inner, before = front ++ inner ∧ part.Binds inner x := by
  induction parts generalizing before with
  | nil => exact absurd h.mem List.not_mem_nil
  | cons part rest ih =>
    cases rest with
    | nil => exact ⟨part, List.mem_singleton.2 rfl, [], before, rfl, h⟩
    | cons next rest =>
      rcases Binds.of_append h with hpart | ⟨_, rfl, hnext⟩
      · exact ⟨part, List.mem_cons_self, [], before, rfl, hpart⟩
      · obtain ⟨_, rfl, hrest⟩ := hnext.of_text
        obtain ⟨found, hm, front, inner, rfl, hfound⟩ := ih hrest
        have hbefore : part ++ .text separator :: (front ++ inner) =
            part ++ .text separator :: front ++ inner := by simp
        exact ⟨found, List.mem_cons_of_mem _ hm, _, inner, hbefore, hfound⟩

/-- The semicolons that a statement sheds bind nothing. -/
theorem Binds.of_withoutSemicolons (h : sql.withoutSemicolons.Binds before x) :
    sql.Binds before x := by
  induction sql using List.reverseRecOn with
  | nil => exact h
  | append_singleton init p ih =>
    by_cases ht : ∃ s, p = .text s
    · obtain ⟨s, rfl⟩ := ht
      rw [withoutSemicolons_text] at h
      split at h
      · exact (ih h).append_left _
      · rcases h.of_append with h | ⟨inner, _, h⟩
        · exact h.append_left _
        · exact absurd h.mem List.not_mem_nil
    · rwa [withoutSemicolons_of_ne_text init fun s he => ht ⟨s, he⟩] at h

/-! ## Parts in their place -/

/-- Whatever the SQL binds is typed, and a null that the database is given is assigned. -/
def Settled (sql : Sql) : Prop :=
  ∀ before x, sql.Binds before x →
    x.Typed ∧ (x.direction = .input → x.value = .null → Assigns before)

/-- Whatever the SQL binds is there to be given. -/
def Filled (sql : Sql) : Prop := ∀ x ∈ sql.bindings, x.Filled

theorem Filled.of_unbound (h : sql.bindings = []) : sql.Filled := OnlyBinds.of_unbound h

/-- What a condition compares with is there to be given. -/
theorem OnlyBinds.filled (h : sql.OnlyBinds Binding.Compared) : sql.Filled :=
  h.mono fun _ => Binding.Compared.filled

namespace Settled

/-- Where no null is bound, nothing has to be assigned. -/
theorem of_filled (h : sql.Filled) : sql.Settled := fun _ x hx =>
  ⟨(h x hx.mem).1, fun hinput hnull => absurd hnull ((h x hx.mem).2 hinput)⟩

theorem of_unbound (h : sql.bindings = []) : sql.Settled := of_filled (.of_unbound h)

/-- **What stands in front of a part does not unsettle it.** -/
theorem append (ha : Settled a) (hc : Settled c) : Settled (a ++ c) := by
  intro before x hx
  rcases hx.of_append with hleft | ⟨inner, rfl, hright⟩
  · exact ha before x hleft
  · obtain ⟨htyped, hnull⟩ := hc inner x hright
    exact ⟨htyped, fun hi hn => (hnull hi hn).prepend a⟩

theorem text (s : String) (h : sql.Settled) : Settled (.text s :: sql) :=
  append (a := [.text s]) (of_unbound rfl) h

theorem joined {separator : String} {parts : List Sql} (h : ∀ part ∈ parts, Settled part) :
    (joined separator parts).Settled :=
  joined_induction (of_unbound rfl) (fun _ _ ha hc => ha.append (hc.text separator)) h

theorem withoutSemicolons (h : sql.Settled) : sql.withoutSemicolons.Settled := fun before x hx =>
  h before x hx.of_withoutSemicolons

end Settled

/-- An assignment: of a null that is bound as it is, or of what is there to be given. -/
inductive IsAssignment : Sql → Prop where
  | null (t : TableAlias) (column : String) {x : Binding} : x.Typed →
      IsAssignment [.target t column, .text " = ", .bind x]
  | value (t : TableAlias) (column : String) {value : Sql} : value.Unbroken → value.Filled →
      IsAssignment ([.target t column, .text " = "] ++ value)

theorem IsAssignment.unbroken (h : IsAssignment a) : a.Unbroken := by
  have hcolumn : ∀ t column, Unbroken [.target t column, .text " = "] := by
    intro t column
    simp [Unbroken, clauseWords]
  cases h with
  | null t column _ => simp [Unbroken, clauseWords]
  | value t column hu _ => exact (hcolumn t column).append hu

/-- **The nulls of a `SET` stand behind their columns.** -/
theorem settled_set {assignments : List Sql} (h : ∀ a ∈ assignments, IsAssignment a) :
    Settled (.text " SET " :: list assignments) := by
  intro before x hx
  obtain ⟨_, rfl, hlist⟩ := hx.of_text
  obtain ⟨a, hm, front, inner, rfl, ha⟩ := hlist.of_joined
  have hset : clause? (.text " SET " :: front) = some " SET " := by
    have hfront : front <+: list assignments :=
      ((List.prefix_append _ _).trans (List.prefix_append _ _)).trans hlist
    have hunbroken := (Unbroken.list fun a ha => (h a ha).unbroken).mono hfront.subset
    rw [← List.singleton_append, clause?_append, hunbroken.clause?_eq_none]
    rfl
  cases h a hm with
  | null t column htyped =>
    have hassigned := Assigns.set t column hset
    rcases Binds.of_append (a := [.target t column, .text " = "]) ha with ha | ⟨_, rfl, hnull⟩
    · exact absurd ha.mem List.not_mem_nil
    · obtain ⟨rfl, rfl⟩ := hnull.of_bind
      exact ⟨htyped, fun _ _ => hassigned⟩
  | value t column _ hfilled =>
    rcases Binds.of_append ha with ha | ⟨_, _, ha⟩
    · exact absurd ha.mem List.not_mem_nil
    · obtain ⟨htyped, hnull⟩ := hfilled x ha.mem
      exact ⟨htyped, fun hi hn => absurd hn (hnull hi)⟩

/-- What stands among `VALUES` may be null. -/
theorem settled_values {values : List Sql}
    (h : ∀ value ∈ values, value.Unbroken ∧ ∀ x ∈ value.bindings, x.Typed) :
    Settled (.text " VALUES (" :: list values) := by
  intro before x hx
  obtain ⟨inner, rfl, hlist⟩ := hx.of_text
  obtain ⟨value, hm, _, _, _, hvalue⟩ := hlist.of_joined
  have hunbroken : Unbroken inner :=
    (Unbroken.list fun v hv => (h v hv).1).mono ((List.prefix_append _ _).trans hlist).subset
  exact ⟨(h value hm).2 x hvalue.mem, fun _ _ => .values [] hunbroken⟩

end Sql

/-! ## Rows -/

namespace Builder

variable {links : Links}

/-- What a value is written as has no words of its own to break a list, and binds nothing or what
was coerced. -/
theorem valueExpression_parts {f : Field} {json : Json} (h : b.valueExpression e f json = .ok sql) :
    sql.Unbroken ∧ (sql.bindings = [] ∨
      ∃ value, Value.coerce json f.dataType = .ok value ∧
        sql.bindings = [.input value f.dataType]) := by
  rcases valueExpression_eq_ok.1 h with ⟨_, rfl⟩ | ⟨_, typed, ht, ⟨_, keys, _, hv⟩ | ⟨_, rfl⟩⟩
  · refine ⟨?_, .inl rfl⟩
    generalize f.dataType = type
    cases b.dialect <;> cases type <;> decide
  · cases hd : b.dialect with
    | sqlServer =>
      rw [hd] at hv
      obtain rfl := Except.ok.inj hv
      refine ⟨?_, .inr ⟨typed, ht, rfl⟩⟩
      simp [Sql.Unbroken, clauseWords, Dialect.encryptionClosing]
    | oracle =>
      rw [hd] at hv
      exact absurd hv (by simp [Dialect.encrypt])
  · exact ⟨by simp [Sql.Unbroken, clauseWords], .inr ⟨typed, ht, rfl⟩⟩

namespace Gives

variable {stated : Field → Option Json} {w : Written}

theorem unbroken (h : b.Gives e links stated w) : w.value.Unbroken := by
  cases h with
  | linked _ => simp [Sql.Unbroken, clauseWords]
  | stated _ _ hv => exact (valueExpression_parts hv).1
  | filled _ _ => simp [Sql.Unbroken, clauseWords]

theorem typed (h : b.Gives e links stated w) : ∀ x ∈ w.value.bindings, x.Typed := by
  cases h with
  | linked _ => exact List.forall_mem_nil _
  | stated _ _ hv =>
    rcases (valueExpression_parts hv).2 with hnil | ⟨value, hvalue, hone⟩
    · rw [hnil]
      exact List.forall_mem_nil _
    · rw [hone]
      exact List.forall_mem_singleton.2 (Binding.typed_of_coerce hvalue)
  | filled _ _ => exact List.forall_mem_singleton.2 (Binding.typed_input (.inl rfl))

/-- An update gives a field its value, which is not null, or a null as it is. -/
theorem isAssignment (h : b.Gives e links (updateValue? e) w) : w.assignment.IsAssignment := by
  have hunbroken := h.unbroken
  cases h with
  | linked _ => exact .value _ _ hunbroken (.of_unbound rfl)
  | stated _ hj hv =>
    refine .value _ _ hunbroken ?_
    rcases (valueExpression_parts hv).2 with hnil | ⟨value, hvalue, hone⟩
    · exact .of_unbound hnil
    · have hfilled := (Binding.Compared.value (Entity.isNull_of_present? hj) hvalue).filled
      rw [Sql.Filled, hone]
      exact List.forall_mem_singleton.2 hfilled
  | filled _ _ => exact .null _ _ (Binding.typed_input (.inl rfl))

end Gives

end Builder

/-! ## Templates -/

namespace Dialect

variable {d : Dialect}

/-- The null of an insert is one of its values. -/
theorem settled_insert {parts : InsertParts} {key : KeyReturn}
    (ht : parts.table.bindings = []) (hc : ∀ c ∈ parts.columns, Sql.bindings c = [])
    (hk : key.column.bindings = [])
    (hvalues : Sql.Settled (.text " VALUES (" :: Sql.list parts.values))
    (hout : (d.handsOut key).Filled) : (d.insert parts key).Settled := by
  have hhead : (insertHead parts).Settled :=
    .of_unbound (filterMap_insertHead passes_binding? ht hc)
  have hclosed : (insertValues parts).Settled := hvalues.append (.of_unbound rfl)
  have hcolumn : ∀ s, Sql.Settled (.text s :: key.column) := fun _ => .of_unbound hk
  unfold insert
  split
  · exact (hhead.append (hcolumn _)).append hclosed
  · exact (hhead.append hclosed).append (.of_unbound rfl)
  · exact ((hhead.append hclosed).append (hcolumn _)).append (.text _ (.of_filled hout))
  · exact ((hhead.append hclosed).append (hcolumn _)).append (.of_unbound rfl)
  · exact hhead.append hclosed

/-- The null of an update is assigned; its condition compares with none. -/
theorem settled_update {table tableAlias condition : Sql} {assignments : List Sql}
    (ht : table.bindings = []) (ha : tableAlias.bindings = [])
    (hset : ∀ a ∈ assignments, Sql.IsAssignment a) (hc : condition.Filled) :
    (d.update table tableAlias assignments condition).Settled := by
  have hassignments := Sql.settled_set hset
  have htable : ∀ s, Sql.Settled (.text s :: table) := fun _ => .of_unbound ht
  have halias : ∀ s, Sql.Settled (.text s :: tableAlias) := fun _ => .of_unbound ha
  have hcondition : Sql.Settled (.text " WHERE " :: condition) := .of_filled hc
  cases d with
  | sqlServer =>
    exact ((((halias _).append hassignments).append (htable _)).append (halias _)).append hcondition
  | oracle => exact (((htable _).append (halias _)).append hassignments).append hcondition

/-- A batch is settled when its fragments are, since it only hands out on its own account. -/
theorem settled_batch {parts : BatchParts} (hf : ∀ fragment ∈ parts.fragments, Sql.Settled fragment)
    (hout : (d.outputs parts.keyVariables).Filled) : (d.batch parts).Settled := by
  rw [batch, batchLines_eq]
  refine .joined fun line hm => ?_
  rcases List.mem_append.1 hm with hm | hm
  · rcases List.mem_append.1 hm with hm | hm
    · exact .of_unbound (bindings_headerLines _ line hm)
    · obtain ⟨fragment, hfragment, rfl⟩ := List.mem_map.1 hm
      cases d with
      | sqlServer => exact (hf fragment hfragment).append (.of_unbound rfl)
      | oracle => exact ((hf fragment hfragment).text _).append (.of_unbound rfl)
  · rcases List.mem_cons.1 hm with rfl | hm
    · exact .of_unbound rfl
    · refine .of_filled fun x hx => hout x ?_
      rw [Sql.bindings, ← filterMap_closingLines passes_binding?]
      exact List.mem_flatMap.2 ⟨line, hm, hx⟩

end Dialect

namespace Builder

variable {links : Links}

/-! ## Writing -/

theorem settled_insertBody {handling : KeyHandling} (h : b.insertBody e links handling = .ok sql) :
    sql.Settled := by
  obtain ⟨entries, hentries, _, rfl⟩ := insertBody_eq_ok.1 h
  obtain ⟨row, hcolumns, hvalues, hrow, _⟩ := row_of_insertEntries hentries
  rw [hcolumns, hvalues]
  refine Dialect.settled_insert (Sql.filterMap_table passes_binding? _)
    (List.forall_mem_map.2 fun _ _ => rfl) (filterMap_keyReturn passes_binding? _)
    (Sql.settled_values ?_) fun x hx => ?_
  · exact List.forall_mem_map.2 fun w hw => ⟨(hrow w hw).2.unbroken, (hrow w hw).2.typed⟩
  · obtain ⟨p, hp, hpx⟩ := List.mem_filterMap.1 hx
    obtain ⟨_, type, rfl⟩ := mem_handsOut hp
    obtain rfl := Option.some.inj hpx
    exact Binding.filled_output type

theorem settled_updateBody {names : Option (List String)}
    (h : b.updateBody e names links = .ok sql) : sql.Settled := by
  obtain ⟨_, assignments, ha, _, condition, hc, rfl⟩ := updateBody_eq_ok.1 h
  obtain ⟨row, rfl, hrow, _⟩ := row_of_assignments ha
  exact Dialect.settled_update (Sql.filterMap_table passes_binding? _) rfl
    (List.forall_mem_map.2 fun w hw => (hrow w hw).2.isAssignment) (compared_keyCondition hc).filled

theorem settled_deleteBody (h : b.deleteBody e links = .ok sql) : sql.Settled := by
  obtain ⟨condition, hc, rfl⟩ := deleteBody_eq_ok.1 h
  refine .of_filled ?_
  rw [Sql.Filled, Sql.bindings,
    Dialect.filterMap_delete passes_binding? (Sql.filterMap_table passes_binding? _) rfl]
  exact (compared_keyCondition hc).filled

theorem settled_batchBody {steps : List BatchStep} (h : b.batchBody steps = .ok sql) :
    sql.Settled := by
  obtain ⟨_, _, fragments, hall, rfl⟩ := batchBody_eq_ok.1 h
  refine Dialect.settled_batch (fun fragment hm => ?_) fun x hx => ?_
  · obtain ⟨_, _, hone⟩ := exists_of_mem_mapM hall hm
    obtain ⟨_, _, _, ⟨_, h⟩ | ⟨_, h⟩ | ⟨_, h⟩⟩ := stepBody_eq_ok.1 hone
    · exact settled_insertBody h
    · exact settled_updateBody h
    · exact settled_deleteBody h
  · obtain ⟨p, hp, hpx⟩ := List.mem_filterMap.1 hx
    rw [mem_outputs hp] at hpx
    obtain rfl := Option.some.inj hpx
    exact Binding.filled_output .integer

/-! ## Requests -/

/-- **Every body is settled.** -/
theorem settled_body (h : b.body r = .ok sql) : sql.Settled := by
  cases r with
  | select e l => exact .of_filled (compared_selectBody h).filled
  | count e l => exact .of_filled (compared_countBody h).filled
  | selectByKey e => exact .of_filled (compared_selectByKeyBody h).filled
  | selectByExample e combinator => exact .of_filled (compared_selectByExampleBody h).filled
  | insert e => exact settled_insertBody h
  | update e => exact settled_updateBody h
  | updateProperties e names => exact settled_updateBody h
  | delete e => exact settled_deleteBody h
  | aggregate e aggregation source => exact .of_filled (compared_aggregateBody h).filled
  | batch steps => exact settled_batchBody h

theorem settled_finish (h : b.finish sql = .ok s) (hs : sql.Settled) : s.sql.Settled := by
  rcases finish_cases h with ⟨_, rfl⟩ | ⟨_, _, _, _, rfl⟩
  · exact hs
  · exact (hs.withoutSemicolons.text _).append (.of_unbound rfl)

/-- **Parameters are typed, and none that is null is compared with.** Every parameter is bound as a
type that the database knows and, unless it is null, has that type; only a text is searched for as a
part; and an output is given nothing. A null that the database is given stands where a `SET` or
`VALUES` assigns it, never in a `WHERE` or a `HAVING`. -/
theorem typed_run (h : b.run r = .ok s) :
    (∀ p ∈ s.parameters, p.toBinding.Typed) ∧
      ∀ before x, s.sql.Binds before x → x.direction = .input → x.value = .null →
        Sql.Assigns before ∧ ¬ Sql.InCondition before := by
  obtain ⟨_, sql, hbody, hfinish⟩ := run_eq_ok h
  have hsettled := settled_finish hfinish (settled_body hbody)
  constructor
  · intro p hp
    obtain ⟨q, hq, rfl⟩ := List.mem_map.1 hp
    obtain ⟨before, hx⟩ := Sql.exists_binds (List.fst_mem_of_mem_zipIdx hq)
    exact (hsettled before q.1 hx).1
  · intro before x hx hinput hnull
    have hassigns := (hsettled before x hx).2 hinput hnull
    exact ⟨hassigns, hassigns.not_inCondition⟩

/-- A department that has lost its name. -/
def nameless : Entity :=
  { departments with properties := ⟨[("Id", .number (.ofUInt64 7))], by decide⟩ }

theorem typed_run_nameless :
    ∃ s, Builder.default.run (.update nameless) = .ok s ∧
      (s.parameters.map fun p => (p.value, p.dataType)) =
        [(.null, .text), (.integer 7, .integer)] ∧
      (∀ p ∈ s.parameters, p.toBinding.Typed) ∧
      (s.sql.Binds (s.sql.take 5) (.input .null .text) ∧ Sql.Assigns (s.sql.take 5) ∧
        ¬ Sql.InCondition (s.sql.take 5)) ∧
      s.sql.Binds s.sql.dropLast (.input (.integer 7) .integer) ∧
        Sql.InCondition s.sql.dropLast := by
  obtain ⟨htyped, hnull⟩ := typed_run (b := .default) (r := .update nameless) rfl
  refine ⟨_, rfl, rfl, htyped, ⟨⟨_, rfl⟩, ?_⟩, ⟨[], rfl⟩, .inl rfl⟩
  exact hnull _ (.input .null .text) ⟨_, rfl⟩ rfl rfl

end Builder

end RecordSql
