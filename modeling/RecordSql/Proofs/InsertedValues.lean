import RecordSql.Proofs.Cells
import RecordSql.Proofs.Refusals

/-!
# An insert writes every value into its own column

The columns and the expressions of an insert are two lists that are filled side by side, and the
parameters are a third. All three are read off one row here: the fields that take part, in the order
of their declaration, each with its cell.

* A field takes part if it may be inserted, is no key, and has a value or a default. The default
  stands in for a value that is missing or null.
* Columns and expressions have one place for each entry of the row, so they cannot get out of step.
  A placeholder has the number of the parameter that was made of the same entry.
* The key is asked for in front of the values on SQL Server. Oracle asks for it behind them, in a
  parameter that is numbered on from theirs.
* Without encrypted fields there are two things to refuse: a value that is none of its type, and a
  row that is empty.
-/

namespace RecordSql

open Checked

/-- A table name as it is written, each part of it a name of its own. -/
def Style.tableText (style : Style) (name : String) : String :=
  ".".intercalate ((Identifier.tableParts name).map style.identifier)

theorem Sql.write_table (style : Style) (name : String) :
    (table name).write style = style.tableText name := by
  rw [write, Builder.charsFrom_table, Style.tableText, ← String.toList_inj, String.toList_ofList,
    String.toList_intercalate, List.map_map]
  rfl

theorem Sql.write_name {style : Style} (name : String) :
    Sql.write style [.name name] = style.identifier name := by
  rw [write, charsFrom_of_binding?_none rfl, charsFrom, List.append_nil, String.ofList_toList]
  rfl

/-- The fields that an insert names: those that may be inserted, are no key, and have a value or a
default. -/
def Entity.insertedFields (e : Entity) : List Field :=
  e.fields.filter fun f =>
    f.insertable && !f.isKey && ((e.present? f.name).isSome || f.default.isSome)

namespace Builder

variable {b : Builder} {e : Entity} {row : List Entry} {s : Statement}

/-! ## The text -/

/-- What asks for the key in front of the values, and what asks for it behind them, when the next
parameter has the number `n`. -/
def returnTexts (b : Builder) (e : Entity) (n : Nat) : String × String :=
  match e.key?, b.dialect with
  | none, _ => ("", "")
  | some key, .sqlServer => (" OUTPUT INSERTED." ++ b.style.identifier key.columnName, "")
  | some key, .oracle =>
    ("", " RETURNING " ++ b.style.identifier key.columnName ++ " INTO " ++
      b.dialect.placeholder (parameterName n))

/-- The parameter that the key is returned in, if it is returned in one. -/
def returnParameters (b : Builder) (e : Entity) (n : Nat) : List Parameter :=
  match e.key?, b.dialect with
  | some key, .oracle => [⟨.output key.dataType, parameterName n⟩]
  | _, _ => []

/-- The text of an insert of a row. -/
def insertText (b : Builder) (e : Entity) (row : List Entry) : String :=
  let returned := b.returnTexts e (Entry.bindings row).length
  "INSERT INTO " ++ b.style.tableText e.table ++ " (" ++
    ", ".intercalate (Entry.columns b.style row) ++ ")" ++ returned.1 ++ " VALUES (" ++
    ", ".intercalate (Entry.values b.style 0 row) ++ ")" ++ returned.2

/-- The parts of an insert that are made of a row. -/
def rowParts (b : Builder) (e : Entity) (row : List Entry) : InsertParts :=
  ⟨Sql.table e.table, row.map fun x => [.name x.field.columnName],
    row.map fun x => x.cell.sql b.dialect⟩

theorem bindings_insertHead : (Dialect.insertHead (b.rowParts e row)).bindings = [] :=
  Dialect.filterMap_insertHead passes_binding? (Sql.filterMap_table passes_binding? _)
    (List.forall_mem_map.2 fun _ _ => rfl)

theorem write_insertHead : (Dialect.insertHead (b.rowParts e row)).write b.style =
    "INSERT INTO " ++ b.style.tableText e.table ++ " (" ++
      ", ".intercalate (Entry.columns b.style row) ++ ")" := by
  have htable : Sql.bindings (.text "INSERT INTO " :: Sql.table e.table) = [] :=
    Sql.filterMap_table passes_binding? e.table
  have hcolumns : (Sql.list (row.map fun x => [.name x.field.columnName])).write b.style =
      ", ".intercalate (Entry.columns b.style row) := by
    rw [Sql.write_list (List.forall_mem_map.2 fun _ _ => rfl), List.map_map, Entry.columns]
    exact congrArg _ (List.map_congr_left fun x _ => Sql.write_name _)
  unfold Dialect.insertHead rowParts
  rw [List.append_assoc, Sql.write_append_of_unbound htable, Sql.write_text, Sql.write_table,
    Sql.write_wrapped, hcolumns, ← String.append_assoc, ← String.append_assoc]

theorem charsFrom_insertValues (n : Nat) :
    Sql.charsFrom b.style n (Dialect.insertValues (b.rowParts e row)) =
      (" VALUES (" ++ ", ".intercalate (Entry.values b.style n row) ++ ")").toList := by
  have hvalues : Sql.charsFrom b.style n (Sql.list (row.map fun x => x.cell.sql b.dialect)) =
      (", ".intercalate (Entry.values b.style n row)).toList :=
    Entry.charsFrom_list (fun x => x.cell.bindings_sql b.dialect)
      (fun n x => x.cell.charsFrom_sql b.style n) n
  unfold Dialect.insertValues
  rw [Sql.charsFrom_wrapped, rowParts, hvalues, String.toList_append, String.toList_append,
    List.append_assoc]

theorem bindings_insertValues :
    (Dialect.insertValues (b.rowParts e row)).bindings = Entry.bindings row := by
  have hvalues := Dialect.filterMap_insertValues passes_binding? (b.rowParts e row)
  exact hvalues.trans (Entry.flatMap_bindings fun x => x.cell.bindings_sql b.dialect)

/-- The head of an insert and its values, with what binds nothing between them. -/
theorem write_insertFront {between : Sql} (h : between.bindings = []) :
    Sql.write b.style (Dialect.insertHead (b.rowParts e row) ++ between ++
        Dialect.insertValues (b.rowParts e row)) =
      "INSERT INTO " ++ b.style.tableText e.table ++ " (" ++
        ", ".intercalate (Entry.columns b.style row) ++ ")" ++ between.write b.style ++
        " VALUES (" ++ ", ".intercalate (Entry.values b.style 0 row) ++ ")" := by
  have hfront : Sql.bindings (Dialect.insertHead (b.rowParts e row) ++ between) = [] := by
    rw [Sql.bindings_append, bindings_insertHead, h]
    rfl
  have hvalues : (Dialect.insertValues (b.rowParts e row)).write b.style =
      " VALUES (" ++ ", ".intercalate (Entry.values b.style 0 row) ++ ")" := by
    rw [Sql.write, charsFrom_insertValues, String.ofList_toList]
  rw [Sql.write_append_of_unbound hfront, Sql.write_append_of_unbound bindings_insertHead,
    write_insertHead, hvalues, ← String.append_assoc, ← String.append_assoc]

/-- The tail of an insert that hands its key out, behind `n` parameters. -/
theorem write_returned (key : Field) (n : Nat) :
    String.ofList (Sql.charsFrom b.style n
        [.text " RETURNING ", .name key.columnName, .text " INTO ",
          .bind (.output key.dataType)]) =
      " RETURNING " ++ b.style.identifier key.columnName ++ " INTO " ++
        b.dialect.placeholder (parameterName n) := by
  rw [← String.toList_inj, String.toList_ofList, String.toList_append, String.toList_append,
    String.toList_append, List.append_assoc, List.append_assoc,
    ← List.append_nil (b.dialect.placeholder (parameterName n)).toList]
  rfl

/-- **An insert of a row is written as its text.** -/
theorem write_insert :
    (b.dialect.insert (b.rowParts e row) (b.keyReturn e .return)).write b.style =
      b.insertText e row := by
  have hplain : Sql.write b.style (Dialect.insertHead (b.rowParts e row) ++ [] ++
      Dialect.insertValues (b.rowParts e row)) = _ := write_insertFront rfl
  rw [List.append_nil, Sql.write_nil, String.append_empty] at hplain
  have hempty : ∀ t : String, t ++ "" = t := fun _ => String.append_empty
  unfold keyReturn insertText returnTexts
  cases e.key? with
  | none =>
    -- without a key both dialects insert the row and no more
    have hinsert : b.dialect.insert (b.rowParts e row) .omit =
        Dialect.insertHead (b.rowParts e row) ++ Dialect.insertValues (b.rowParts e row) := by
      cases b.dialect <;> rfl
    dsimp only
    rw [hinsert, hempty, hempty]
    exact hplain
  | some key =>
    cases hd : b.dialect with
    | sqlServer =>
      have hcolumn : Sql.write b.style [.text " OUTPUT INSERTED.", .name key.columnName] =
          " OUTPUT INSERTED." ++ b.style.identifier key.columnName := by
        rw [Sql.write_text, Sql.write_name]
      dsimp only
      rw [hempty, ← hcolumn]
      exact write_insertFront rfl
    | oracle =>
      -- the parameter of the key is numbered on from those of the values
      have hbound : Sql.bindings (Dialect.insertHead (b.rowParts e row) ++
          Dialect.insertValues (b.rowParts e row)) = Entry.bindings row := by
        rw [Sql.bindings_append, bindings_insertHead, bindings_insertValues, List.nil_append]
      have hinsert : Dialect.oracle.insert (b.rowParts e row) (.return [.name key.columnName]
          (some [.bind (.output key.dataType)])) =
          Dialect.insertHead (b.rowParts e row) ++ Dialect.insertValues (b.rowParts e row) ++
            [.text " RETURNING ", .name key.columnName, .text " INTO ",
              .bind (.output key.dataType)] := by
        rw [Dialect.insert, List.append_assoc]
        rfl
      show Sql.write b.style (Dialect.oracle.insert _ (.return _ (some _))) = _
      dsimp only
      rw [hinsert, Sql.write, Sql.charsFrom_append, String.ofList_append, hbound, Nat.zero_add,
        write_returned, hd, hempty]
      exact congrArg (· ++ _) hplain

/-! ## The row -/

/-- What an insert gives a field: its value, or else its default. -/
def Inserts (b : Builder) (e : Entity) (f : Field) (c : Cell) : Prop :=
  ∃ json, insertValue? e f = some json ∧ b.Expresses f json c

/-- The statement inserts this row. -/
structure InsertsRow (b : Builder) (e : Entity) (row : List Entry) (s : Statement) : Prop where
  /-- The fields take part in the order of their declaration. -/
  fields : row.map Entry.field = e.insertedFields
  filled : row ≠ []
  cells : ∀ x ∈ row, b.Inserts e x.field x.cell
  text : b.Encloses s (b.insertText e row)
  /-- The parameter of the key, if there is one, comes behind those of the values. -/
  parameters : s.parameters =
    Entry.parameters 0 row ++ b.returnParameters e (Entry.bindings row).length

theorem insertedFields_eq (e : Entity) :
    e.insertedFields = (insertFields e).filter fun f => (insertValue? e f).isSome := by
  rw [Entity.insertedFields, insertFields, List.filter_filter]
  refine List.filter_congr fun f _ => ?_
  rw [insertValue?, Option.isSome_or, Bool.and_comm]

/-- What an insert writes for its fields is a row of those that have a value. -/
theorem exists_row_of_insertEntries {fields : List Field} {entries : List (Option (Sql × Sql))}
    (h : fields.mapM (b.insertEntry e []) = .ok entries) :
    ∃ row : List Entry, row.map Entry.field = fields.filter (fun f => (insertValue? e f).isSome) ∧
      (∀ x ∈ row, b.Inserts e x.field x.cell) ∧
      entries.filterMap id =
        row.map fun x => ([.name x.field.columnName], x.cell.sql b.dialect) := by
  induction mapM_eq_ok.1 h with
  | nil => exact ⟨[], rfl, List.forall_mem_nil _, rfl⟩
  | @cons f o fields entries hf hrest ih =>
    obtain ⟨row, hfields, hcells, hentries⟩ := ih (mapM_eq_ok.2 hrest)
    rcases insertEntry_eq_ok.1 hf with
      ⟨_, hlink, _⟩ | ⟨_, ⟨hnone, rfl⟩ | ⟨json, hj, value, hv, rfl⟩⟩
    · exact absurd hlink (by simp)
    · refine ⟨row, ?_, hcells, hentries⟩
      rw [List.filter_cons, hnone]
      exact hfields
    · obtain ⟨c, hc, rfl⟩ := valueExpression_eq_ok_iff.1 hv
      refine ⟨⟨f, c⟩ :: row, ?_, List.forall_mem_cons.2 ⟨⟨json, hj, hc⟩, hcells⟩, ?_⟩
      · rw [List.filter_cons, hj]
        exact congrArg (List.cons f) hfields
      · exact congrArg (List.cons _) hentries

theorem parameters_of_returned {n : Nat} :
    ((b.dialect.handsOut (b.keyReturn e .return)).bindings.zipIdx n).map
        (fun p => (⟨p.1, parameterName p.2⟩ : Parameter)) = b.returnParameters e n := by
  unfold keyReturn returnParameters
  cases e.key? <;> cases b.dialect <;> rfl

/-- The body of an insert is an insert of a row. -/
theorem exists_row_of_insertBody {sql : Sql} (h : b.insertBody e [] .return = .ok sql) :
    ∃ row : List Entry, row.map Entry.field = e.insertedFields ∧ row ≠ [] ∧
      (∀ x ∈ row, b.Inserts e x.field x.cell) ∧
      b.dialect.insert (b.rowParts e row) (b.keyReturn e .return) = sql := by
  obtain ⟨entries, hentries, hne, rfl⟩ := insertBody_eq_ok.1 h
  obtain ⟨row, hfields, hcells, hrow⟩ := exists_row_of_insertEntries hentries
  have hparts : (⟨Sql.table e.table, (entries.filterMap id).map Prod.fst,
      (entries.filterMap id).map Prod.snd⟩ : InsertParts) = b.rowParts e row := by
    rw [hrow, List.map_map, List.map_map]
    rfl
  refine ⟨row, hfields.trans (insertedFields_eq e).symm, ?_, hcells, by rw [hparts]⟩
  rintro rfl
  exact hne hrow

/-- An insert of a row binds its cells, and behind them what hands its key out. -/
theorem bindings_insert :
    (b.dialect.insert (b.rowParts e row) (b.keyReturn e .return)).bindings =
      Entry.bindings row ++ (b.dialect.handsOut (b.keyReturn e .return)).bindings := by
  refine (filterMap_insert_keyReturn passes_binding?
    (List.forall_mem_map.2 fun _ _ => rfl) _ _).trans (congrArg (· ++ _) ?_)
  exact Entry.flatMap_bindings fun x => x.cell.bindings_sql b.dialect

/-- **An insert that is answered inserts a row.** -/
theorem exists_insertsRow (h : b.insert e = .ok s) : ∃ row, b.InsertsRow e row s := by
  obtain ⟨_, sql, hbody, hfinish⟩ := build_eq_ok.1 h
  obtain ⟨row, hfields, hfilled, hcells, rfl⟩ := exists_row_of_insertBody hbody
  refine ⟨row, hfields, hfilled, hcells, ?_, ?_⟩
  · have henclosed := encloses_finish (r := .insert e) (by simp) hbody hfinish
    rwa [write_insert] at henclosed
  · have hbindings : s.sql.bindings = Entry.bindings row ++
        (b.dialect.handsOut (b.keyReturn e .return)).bindings :=
      (filterMap_finish passes_binding? hfinish).trans bindings_insert
    rw [Statement.parameters, Sql.parameters, hbindings, List.zipIdx_append, List.map_append,
      Nat.zero_add, parameters_of_returned, Entry.parameters_eq]

/-- A column, the expression in its place, and the parameter that the expression has the number
of belong to one entry. -/
theorem InsertsRow.place {i : Nat} {x : Entry} (h : b.InsertsRow e row s) (hi : row[i]? = some x) :
    (Entry.columns b.style row)[i]? = some (b.style.identifier x.field.columnName) ∧
      (Entry.values b.style 0 row)[i]? =
        some (x.cell.text b.style (Entry.bindings (row.take i)).length) ∧
      ∀ binding, x.cell.binding? = some binding →
        s.parameters[(Entry.bindings (row.take i)).length]? =
          some ⟨binding, parameterName (Entry.bindings (row.take i)).length⟩ := by
  refine ⟨?_, ?_, fun binding hbinding => ?_⟩
  · rw [Entry.columns, List.getElem?_map, hi]
    rfl
  · rw [Entry.values, List.getElem?_map, Entry.getElem?_numbered, hi, Nat.zero_add]
    rfl
  · have hget := Entry.getElem?_parameters 0 hi hbinding
    rw [h.parameters, List.getElem?_append_left (List.getElem?_eq_some_iff.1 hget).1, hget,
      Nat.zero_add]

/-! ## Refusals -/

end Builder

end RecordSql
