import Mathlib.Data.List.Perm.Basic
import RecordSql.Proofs.Resolution
import RecordSql.Proofs.TextSearch

/-!
# What the check of an entity accepts

The check goes through an entity step by step and stops at the first fault. What it accepts can be
said without the steps: `Entity.WellFormed` says which names have to be identifiers, that one field
at most is a key, and that no two columns of a result have the same name, letter case apart.

* An identifier is counted in characters, while the check counts bytes. All characters that it
  allows are ASCII, and take one byte each.
* A table name is one to three identifiers with dots between them. Splitting at the dots gives just
  these parts back, as no identifier has a dot in it.
* The scan for repeated names keeps the set of those seen, and finds none just when all of them
  differ.

None of this looks at the properties, or asks for an order of the fields.
-/

namespace RecordSql

open Checked

/-! ## Identifiers -/

namespace Identifier

/-- An ASCII letter, in either case. -/
def IsLetter (c : Char) : Prop := ('A' ≤ c ∧ c ≤ 'Z') ∨ ('a' ≤ c ∧ c ≤ 'z')

/-- An ASCII digit. -/
def IsDigit (c : Char) : Prop := '0' ≤ c ∧ c ≤ '9'

/-- A name that may stand in a statement. -/
structure WellFormed (name : String) : Prop where
  /-- It has 1 to 128 characters. -/
  length : 1 ≤ name.length ∧ name.length ≤ 128
  /-- They are ASCII letters and digits, and three marks. -/
  characters : ∀ c ∈ name.toList, IsLetter c ∨ IsDigit c ∨ c = '_' ∨ c = '$' ∨ c = '#'
  /-- The first one is no digit. -/
  start : ∀ c ∈ name.toList.head?, ¬ IsDigit c

/-- A table name: one to three identifiers with dots between them. -/
def TableWellFormed (name : String) : Prop :=
  ∃ parts : List String, 1 ≤ parts.length ∧ parts.length ≤ 3 ∧ (∀ part ∈ parts, WellFormed part) ∧
    name.toList = List.intercalate ['.'] (parts.map String.toList)

variable {name : String} {c : Char}

theorem isDigit_iff : IsDigit c ↔ c.isDigit = true := by
  rw [Char.isDigit, Bool.and_eq_true, decide_eq_true_eq, decide_eq_true_eq]
  rfl

theorem isLetter_iff : IsLetter c ↔ c.isAlpha = true := by
  have hupper : c.isUpper = true ↔ 'A' ≤ c ∧ c ≤ 'Z' := decide_eq_true_iff
  have hlower : c.isLower = true ↔ 'a' ≤ c ∧ c ≤ 'z' := by
    show (_ && _) = true ↔ _
    rw [Bool.and_eq_true, decide_eq_true_eq, decide_eq_true_eq]
    rfl
  rw [IsLetter, ← hupper, ← hlower, ← Bool.or_eq_true]
  rfl

theorem isAllowed_iff :
    isAllowed c = true ↔ IsLetter c ∨ IsDigit c ∨ c = '_' ∨ c = '$' ∨ c = '#' := by
  simp only [isAllowed, Char.isAlphanum, Bool.or_eq_true, decide_eq_true_eq, isLetter_iff,
    isDigit_iff, or_assoc]

/-- What is allowed takes one byte. -/
theorem utf8Size_of_isAllowed (h : isAllowed c = true) : c.utf8Size = 1 := by
  rw [Char.utf8Size_eq_one_iff]
  have hlast : ∀ d : Char, d.val ≤ 127 → c ≤ d → c.val ≤ 127 := fun d hd hc =>
    UInt32.le_trans hc hd
  rcases isAllowed_iff.1 h with (⟨-, hz⟩ | ⟨-, hz⟩) | ⟨-, h9⟩ | rfl | rfl | rfl
  · exact hlast 'Z' (by decide) hz
  · exact hlast 'z' (by decide) hz
  · exact hlast '9' (by decide) h9
  · decide
  · decide
  · decide

/-- So a text of such characters has as many bytes as characters. -/
theorem utf8ByteSize_of_isAllowed {cs : List Char} (h : ∀ c ∈ cs, isAllowed c = true) :
    (String.ofList cs).utf8ByteSize = cs.length := by
  induction cs with
  | nil => rfl
  | cons c cs ih =>
    obtain ⟨hc, hcs⟩ := List.forall_mem_cons.1 h
    have hsplit : String.ofList (c :: cs) = String.singleton c ++ String.ofList cs := by
      rw [← String.toList_inj]
      simp
    rw [hsplit, String.utf8ByteSize_append, String.utf8ByteSize_singleton,
      utf8Size_of_isAllowed hc, ih hcs, List.length_cons, Nat.add_comm]

/-- **The check passes the well-formed names.** -/
theorem check_iff : check name = .ok () ↔ WellFormed name := by
  have hbytes : (∀ c ∈ name.toList, isAllowed c = true) → name.utf8ByteSize = name.length := by
    intro h
    have hsize := utf8ByteSize_of_isAllowed h
    rwa [String.ofList_toList, String.length_toList] at hsize
  have hempty : name ≠ "" ↔ 1 ≤ name.length := by
    rw [← String.length_toList, Nat.one_le_iff_ne_zero, ne_eq, ne_eq, List.length_eq_zero_iff]
    exact not_congr ⟨fun h => by rw [h]; rfl, fun h => String.toList_inj.1 h⟩
  rw [check_eq_ok]
  constructor
  · intro h
    obtain ⟨hne, hsize, hall, hstart⟩ := h
    refine ⟨⟨hempty.1 hne, hbytes hall ▸ hsize⟩, fun c hc => isAllowed_iff.1 (hall c hc), ?_⟩
    intro c hc hdigit
    obtain ⟨rest, hrest⟩ := List.head?_eq_some_iff.1 hc
    exact absurd (isDigit_iff.1 hdigit) (by simp [hstart c rest hrest])
  · intro h
    have hall : ∀ c ∈ name.toList, isAllowed c = true := fun c hc =>
      isAllowed_iff.2 (h.characters c hc)
    refine ⟨hempty.2 h.length.1, (hbytes hall).trans_le h.length.2, hall, ?_⟩
    intro c rest hrest
    have hdigit := h.start c (by rw [hrest]; rfl)
    rw [isDigit_iff] at hdigit
    simpa using hdigit

/-- No identifier has a dot in it. -/
theorem WellFormed.dot_not_mem (h : WellFormed name) : '.' ∉ name.toList := fun hdot =>
  absurd (isAllowed_iff.2 (h.characters '.' hdot)) (by decide)

theorem toList_tableParts (name : String) :
    (tableParts name).map String.toList = Text.pieces '.' name.toList := by
  simp [tableParts, Function.comp_def]

/-- **The check of a table name passes one to three identifiers with dots between them.** -/
theorem requireTable_iff : requireTable name = .ok () ↔ TableWellFormed name := by
  obtain ⟨hjoin, hne, _⟩ := Text.intercalate_pieces '.' name.toList
  rw [requireTable_eq_ok]
  constructor
  · intro h
    obtain ⟨hcount, hparts⟩ := h
    refine ⟨tableParts name, ?_, hcount, fun part hp => check_iff.1 (hparts part hp), ?_⟩
    · rw [← List.length_map (f := String.toList), toList_tableParts]
      exact List.length_pos_of_ne_nil hne
    · rw [toList_tableParts, hjoin]
  · intro h
    obtain ⟨parts, hmin, hmax, hparts, hname⟩ := h
    have hsplit : tableParts name = parts := by
      rw [tableParts, hname, Text.pieces_intercalate, List.map_map]
      · simp [Function.comp_def]
      · exact mt List.map_eq_nil_iff.1 (List.ne_nil_of_length_pos hmin)
      · intro cs hcs
        obtain ⟨part, hp, rfl⟩ := List.mem_map.1 hcs
        exact (hparts part hp).dot_not_mem
    rw [hsplit]
    exact ⟨hmax, fun part hp => check_iff.2 (hparts part hp)⟩

/-- No identifier has a blank in it. -/
theorem WellFormed.not_blank (h : WellFormed name) :
    ∀ c ∈ name.toList, Text.isBlank c = false := fun c hc =>
  Text.not_isBlank_of_any (by decide) (isAllowed_iff.2 (h.characters c hc))

theorem WellFormed.ne_nil (h : WellFormed name) : name.toList ≠ [] := by
  refine List.ne_nil_of_length_pos ?_
  rw [String.length_toList]
  exact h.length.1

/-- A table name is not blank. -/
theorem TableWellFormed.trim_ne_nil (h : TableWellFormed name) : Text.trim name.toList ≠ [] := by
  obtain ⟨parts, hmin, _, hparts, hname⟩ := h
  obtain ⟨part, rest, rfl⟩ := List.exists_cons_of_ne_nil (List.ne_nil_of_length_pos hmin)
  have hpart := hparts part List.mem_cons_self
  have hstart : part.toList <+: name.toList := by
    rw [hname, List.map_cons]
    cases rest with
    | nil =>
      rw [List.map_nil, List.intercalate_singleton]
    | cons next rest =>
      rw [List.map_cons, List.intercalate_cons_cons, List.append_assoc]
      exact List.prefix_append _ _
  obtain ⟨c, hmem⟩ := List.exists_mem_of_ne_nil _ hpart.ne_nil
  intro hblank
  have hc := Text.trim_eq_nil.1 hblank c (hstart.subset hmem)
  rw [hpart.not_blank c hmem] at hc
  exact absurd hc Bool.false_ne_true

end Identifier

/-! ## Entities -/

/-- A join whose names are well-formed. -/
structure Join.WellFormed (join : Join) : Prop where
  /-- The joined table has a table name. -/
  table : Identifier.TableWellFormed join.table
  /-- The column it is joined on is an identifier. -/
  onColumn : Identifier.WellFormed join.onColumn
  /-- So is the local side of the condition, when it is given. -/
  localColumn : ∀ name ∈ join.localColumn, Identifier.WellFormed name
  /-- The columns it pulls in have identifiers as sources and as aliases. -/
  columns : ∀ c ∈ join.columns,
    Identifier.WellFormed c.source ∧ ∀ label ∈ c.label, Identifier.WellFormed label

/-- A field whose names are well-formed. -/
structure Field.WellFormed (f : Field) : Prop where
  /-- Its name is an identifier. -/
  name : Identifier.WellFormed f.name
  /-- So is the name of its physical column. -/
  columnName : Identifier.WellFormed f.columnName
  /-- Its join is well-formed, when it has one. -/
  join : ∀ join ∈ f.join, join.WellFormed

namespace Entity

/-- The names under which the result shows the fields themselves, and then those under which it
shows what their joins pull in. -/
def resultNames (e : Entity) : List String :=
  (e.fields.filter Field.isProjected).map Field.name ++
    e.fields.flatMap fun f => f.join.toList.flatMap fun join =>
      join.columns.map JoinColumn.exposedName

/-- Metadata that statements can be written for. -/
structure WellFormed (e : Entity) : Prop where
  /-- The table has a table name. -/
  table : Identifier.TableWellFormed e.table
  /-- At most one field is a key. -/
  keys : (e.fields.filter Field.isKey).length ≤ 1
  /-- All fields are well-formed. -/
  fields : ∀ f ∈ e.fields, f.WellFormed
  /-- No two columns of the result have the same name, letter case apart. -/
  results : (e.resultNames.map Text.lowerCase).Nodup

variable {e : Entity} {f : Field} {join : Join}

theorem checkJoin_iff : checkJoin join = .ok () ↔ join.WellFormed := by
  simp only [checkJoin_eq_ok, checkColumn_eq_ok, Identifier.requireTable_iff,
    Identifier.check_iff]
  constructor
  · intro h
    obtain ⟨htable, hon, hlocal, hcolumns⟩ := h
    exact ⟨htable, hon, hlocal, hcolumns⟩
  · intro h
    exact ⟨h.table, h.onColumn, h.localColumn, h.columns⟩

theorem checkField_iff : checkField f = .ok () ↔ f.WellFormed := by
  simp only [checkField_eq_ok, checkJoin_iff, Identifier.check_iff]
  constructor
  · intro h
    obtain ⟨hname, hcolumn, hjoin⟩ := h
    exact ⟨hname, hcolumn, hjoin⟩
  · intro h
    exact ⟨h.name, h.columnName, h.join⟩

/-- The scan for repeated names goes through the names of the result. -/
theorem exposedNames_eq (e : Entity) : e.exposedNames = e.resultNames := by
  unfold exposedNames resultNames
  congr 1
  induction e.fields with
  | nil => rfl
  | cons f fields ih =>
    rw [List.flatMap_cons, ← ih]
    cases hj : f.join with
    | none => rw [List.filterMap_cons_none hj]; rfl
    | some join => rw [List.filterMap_cons_some hj]; simp

/-- **The check accepts the well-formed entities**, and no others. -/
theorem check_iff : e.check = .ok () ↔ e.WellFormed := by
  have hscan : repeatedName? [] e.exposedNames = none ↔
      (e.resultNames.map Text.lowerCase).Nodup := by
    rw [repeatedName?_eq_none, exposedNames_eq]
    exact and_iff_left fun _ _ => List.not_mem_nil
  simp only [check_eq_ok, Identifier.requireTable_iff, List.countP_eq_length_filter,
    checkField_iff, hscan]
  constructor
  · intro h
    obtain ⟨_, htable, hkeys, hfields, hresults⟩ := h
    exact ⟨htable, hkeys, hfields, hresults⟩
  · intro h
    exact ⟨h.table.trim_ne_nil, h.table, h.keys, h.fields, h.results⟩

/-- The fields of a well-formed entity may stand in any order. -/
theorem WellFormed.perm {fields : List Field} (h : e.WellFormed) (hp : e.fields.Perm fields) :
    WellFormed { e with fields := fields } where
  table := h.table
  keys := ((hp.filter Field.isKey).length_eq).symm.trans_le h.keys
  fields f hf := h.fields f (hp.mem_iff.2 hf)
  results := by
    have hnames : e.resultNames.Perm (resultNames { e with fields := fields }) :=
      ((hp.filter _).map _).append (hp.flatMap_right _)
    exact (hnames.map _).nodup_iff.1 h.results

/-- What is refused for its metadata is refused as an invalid entity, whatever was asked of it. -/
theorem refused_of_not_wellFormed (h : ¬ e.WellFormed) : ∃ fault, e.check = .error fault ∧
    ∀ (b : Builder) (body : Checked Sql), b.build e body = .error (.invalidEntity fault) := by
  cases hc : e.check with
  | ok _ => exact absurd (check_iff.1 hc) h
  | error fault =>
    refine ⟨fault, rfl, fun b body => ?_⟩
    rw [Builder.build, hc]
    rfl

/-- **The check accepts just the well-formed metadata.** So it depends neither on the values of the
record nor on the order of the fields, and all it refuses is refused as an invalid entity, by the
check and by every statement alike. -/
theorem check_accepts (e : Entity) :
    (e.check = .ok () ↔ e.WellFormed) ∧
      (∀ properties, check { e with properties := properties } = e.check) ∧
      (∀ fields, e.fields.Perm fields →
        (check { e with fields := fields } = .ok () ↔ e.check = .ok ())) ∧
      (¬ e.WellFormed → ∃ fault, e.check = .error fault ∧
        Checked.ofEntity e.check = .error (.invalidEntity fault) ∧
        ∀ (b : Builder) (body : Checked Sql), b.build e body = .error (.invalidEntity fault)) := by
  refine ⟨check_iff, fun _ => rfl, fun fields hp => ?_, fun h => ?_⟩
  · rw [check_iff, check_iff]
    exact ⟨fun h => h.perm hp.symm, fun h => h.perm hp⟩
  · obtain ⟨fault, hfault, hbuild⟩ := refused_of_not_wellFormed h
    exact ⟨fault, hfault, by rw [hfault]; rfl, hbuild⟩

/-- Orders and their customers may be declared in either order, but not both of them twice. -/
theorem check_accepts_customerOrders :
    check { Builder.customerOrders with fields := Builder.customerOrders.fields.reverse } = .ok () ∧
      ∃ fault, Checked.ofEntity (check { Builder.customerOrders with
          fields := Builder.customerOrders.fields ++ Builder.customerOrders.fields }) =
        .error (.invalidEntity fault) := by
  constructor
  · exact ((check_accepts Builder.customerOrders).2.2.1 _ (List.reverse_perm _).symm).2 rfl
  · obtain ⟨haccepts, _, _, hrefuses⟩ := check_accepts { Builder.customerOrders with
      fields := Builder.customerOrders.fields ++ Builder.customerOrders.fields }
    obtain ⟨fault, _, hfault, _⟩ := hrefuses fun h => absurd (haccepts.2 h) (by nofun)
    exact ⟨fault, hfault⟩

end Entity

end RecordSql
