import RecordSql.Proofs.SinkClauses
import RecordSql.Proofs.Unbound
import RecordSql.Writer.Rows

/-!
# Written rows along with a sink

The values of a row are bound as they are written, and the key behind them. An update and a delete
have their condition at the end of the text, and an insert has what hands its key out there, so the
places agree in both dialects. The mark for an encrypted value is left behind the value that is
bound, and its piece stands in front of it: a mark moves no number.
-/

namespace RecordSql

open Checked

attribute [local simp] Sql.bindings_append Sql.bindings_joined String.append_assoc Piece.isKeyed

variable {b : Builder} {e : Entity} {style : Style} {σ : Sink} {d : Dialect} {n : Nat}

/-! ## Values -/

namespace Builder

theorem renders_writeValue (f : Field) (value : Json) :
    Renders b.dialect (.ofSql b.style) (b.valueExpression e f value) (b.writeValue e f value) := by
  intro σ hσ
  unfold valueExpression writeValue
  by_cases hnow : (f.dataType.isTemporal && isCurrentTime value) = true
  · simp only [if_pos hnow]
    exact Rendered.pure (by simp) (Sink.after_of_inert rfl rfl).symm
  · simp only [if_neg hnow]
    refine Writing.check_bind_run fun value _ => ?_
    by_cases hf : f.dataType = .encrypted
    · simp only [if_pos hf]
      refine Writing.check_bind_run fun keys _ => ?_
      rw [StateT.run_bind, Writing.run_bindInput b.style _ _ hσ, ok_bind,
        Writing.markEncryption_bind_run]
      refine Rendered.check ?_
      unfold Dialect.encrypt Dialect.writeEncrypted
      cases b.dialect with
      | oracle => exact .error _
      | sqlServer =>
        refine .ok ⟨by simp, ?_⟩
        rw [Sink.marked_eq (Dialect.encryptOpening keys), Sink.after_after]
        exact Sink.after_congr rfl (by simp)
    · simp only [if_neg hf]
      rw [Writing.run_bindInput b.style _ _ hσ]
      exact .ok (Prod.ext (by simp) rfl)

end Builder

/-! ## Inserts -/

/-- An entry of an insert is written as its column and its value. -/
def Rendering.ofEntry (style : Style) : Rendering (Sql × Sql) (String × String) :=
  ⟨Prod.snd, fun n entry => (entry.1.write style, entry.2.writeFrom style n)⟩

namespace Rendering

theorem fst_ofEntry (entries : List (Sql × Sql)) :
    ((ofEntry style).texts n entries).map Prod.fst =
      (entries.map Prod.fst).map (Sql.write style) := by
  rw [map_texts_of_const (t := fun entry => entry.1.write style) fun _ _ _ => rfl, List.map_map]
  rfl

theorem snd_ofEntry (entries : List (Sql × Sql)) :
    ((ofEntry style).texts n entries).map Prod.snd =
      (ofSql style).texts n (entries.map Prod.snd) :=
  map_texts (R := ofEntry style) (S := ofSql style) (fun _ _ => rfl) (fun _ => rfl) entries n

end Rendering

/-- What becomes of a key is written with the output that hands it out. -/
def Rendering.ofKey (d : Dialect) (style : Style) : Rendering KeyReturn WrittenKey where
  sql := d.handsOut
  text n key :=
    match key with
    | .omit => .omit
    | .return column output => .return (column.write style) (output.map (Sql.writeFrom style n))
    | .capture column name => .capture (column.write style) name

namespace Dialect

variable {table : String} {columns values : List Sql} {key : KeyReturn}

theorem writeFrom_insertHead (style : Style) (n : Nat) (table : String) (values : List Sql)
    (hc : ∀ column ∈ columns, column.bindings = []) :
    (insertHead ⟨Sql.table table, columns, values⟩).writeFrom style n =
      insertHeadText ⟨style.qualifiedTable table, columns.map (Sql.write style),
        (Rendering.ofSql style).texts n values⟩ := by
  have hcolumns : ∀ n, (Sql.list columns).writeFrom style n =
      commas (columns.map (Sql.write style)) := by
    intro n
    rw [Sql.writeFrom_list, Rendering.texts_of_unbound hc]
    exact congrArg commas (List.map_congr_left fun c hm => Sql.writeFrom_of_unbound (hc c hm) n)
  simp [insertHead, insertHeadText, hcolumns]

theorem writeFrom_insertValues (style : Style) (n : Nat) (table : String)
    (columns values : List Sql) :
    (insertValues ⟨Sql.table table, columns, values⟩).writeFrom style n =
      insertValuesText ⟨style.qualifiedTable table, columns.map (Sql.write style),
        (Rendering.ofSql style).texts n values⟩ := by
  simp [insertValues, insertValuesText, Sql.writeFrom_list]

theorem handsOut_omit : d.handsOut .omit = [] := by cases d <;> rfl

theorem handsOut_capture (column : Sql) (name : String) :
    d.handsOut (.capture column name) = [] := by
  cases d <;> rfl

/-- **An insert is written from its entries and its key.** -/
theorem writeFrom_insert (hc : ∀ column ∈ columns, column.bindings = [])
    (hk : key.column.bindings = []) :
    (d.insert ⟨Sql.table table, columns, values⟩ key).writeFrom style n =
      d.writeInsert
        ⟨style.qualifiedTable table, columns.map (Sql.write style),
          (Rendering.ofSql style).texts n values⟩
        ((Rendering.ofKey d style).text (n + (values.flatMap Sql.bindings).length) key) := by
  have hhead := writeFrom_insertHead style n table values hc
  have hvalues := writeFrom_insertValues style n table columns values
  have hheadBinds : (insertHead ⟨Sql.table table, columns, values⟩).bindings = [] :=
    filterMap_insertHead passes_binding? (Sql.bindings_table table) hc
  have hvaluesBind : (insertValues ⟨Sql.table table, columns, values⟩).bindings =
      values.flatMap Sql.bindings := filterMap_insertValues passes_binding? _
  cases d with
  | sqlServer =>
    cases key with
    | «omit» => simp [insert, writeInsert, Rendering.ofKey, hhead, hvalues, hheadBinds]
    | «return» column output =>
      have hb : column.bindings = [] := hk
      have hcolumn : ∀ n, column.writeFrom style n = column.write style :=
        Sql.writeFrom_of_unbound hb
      simp [insert, writeInsert, Rendering.ofKey, hhead, hvalues, hheadBinds, hb, hcolumn]
    | capture column name => simp [insert, writeInsert, Rendering.ofKey, hhead, hvalues, hheadBinds]
  | oracle =>
    cases key with
    | «omit» => simp [insert, writeInsert, Rendering.ofKey, hhead, hvalues, hheadBinds]
    | «return» column output =>
      have hb : column.bindings = [] := hk
      have hcolumn : ∀ n, column.writeFrom style n = column.write style :=
        Sql.writeFrom_of_unbound hb
      cases output with
      | none => simp [insert, writeInsert, Rendering.ofKey, hhead, hvalues, hheadBinds]
      | some output =>
        simp [insert, writeInsert, Rendering.ofKey, hhead, hvalues, hheadBinds, hvaluesBind, hb,
          hcolumn]
    | capture column name =>
      have hb : column.bindings = [] := hk
      have hcolumn : ∀ n, column.writeFrom style n = column.write style :=
        Sql.writeFrom_of_unbound hb
      simp [insert, writeInsert, Rendering.ofKey, hhead, hvalues, hheadBinds, hb, hcolumn]

/-- **An update is written from its assignments and its condition.** -/
theorem writeFrom_update {assignments : List Sql} {condition : Sql} {tableAlias : String} :
    (d.update (Sql.table table) [.text tableAlias] assignments condition).writeFrom style n =
      d.writeUpdate (style.qualifiedTable table) tableAlias
        ((Rendering.ofSql style).texts n assignments)
        (condition.writeFrom style (n + (assignments.flatMap Sql.bindings).length)) := by
  have hb : (Sql.list assignments).bindings = assignments.flatMap Sql.bindings :=
    Sql.filterMap_list passes_binding? assignments
  cases d with
  | sqlServer => simp [update, writeUpdate, Sql.writeFrom_list, hb]
  | oracle => simp [update, writeUpdate, Sql.writeFrom_list, hb]

/-- **A delete is written from its condition.** -/
theorem writeFrom_delete {condition : Sql} {tableAlias : String} :
    (d.delete (Sql.table table) [.text tableAlias] condition).writeFrom style n =
      d.writeDelete (style.qualifiedTable table) tableAlias (condition.writeFrom style n) := by
  cases d with
  | sqlServer => simp [delete, writeDelete]
  | oracle => simp [delete, writeDelete]

end Dialect

namespace Builder

/-! ## Statements -/

theorem renders_writeEntry (links : Links) (f : Field) :
    Renders b.dialect (Rendering.ofEntry b.style).option (b.insertEntry e links f)
      (b.writeEntry e links f) := by
  intro σ hσ
  unfold insertEntry writeEntry
  cases links.lookup f.name with
  | some name =>
    exact Rendered.pure (by simp [Rendering.ofEntry, Sql.write_eq])
      (Sink.after_of_inert rfl rfl).symm
  | none =>
    cases insertValue? e f with
    | none => exact Rendered.none
    | some json =>
      refine (renders_writeValue f json).bind_run hσ fun value _ _ => ?_
      exact Rendered.pure (by simp [Rendering.ofEntry, Sql.write_eq]) rfl

theorem renders_writeKeyReturn (handling : KeyHandling) :
    Renders b.dialect (.ofKey b.dialect b.style) (.ok (b.keyReturn e handling))
      (b.writeKeyReturn e handling) := by
  intro σ hσ
  have hname : ∀ name, Sql.write b.style [.name name] = b.style.identifier name := by
    simp [Sql.write_eq]
  have hinert : ∀ key, b.dialect.handsOut key = [] →
      σ = σ.after ((Rendering.ofKey b.dialect b.style).sql key) := by
    intro key hkey
    show σ = σ.after (b.dialect.handsOut key)
    rw [hkey, Sink.after_of_inert rfl rfl]
  unfold keyReturn writeKeyReturn
  cases e.key? with
  | none => exact Rendered.pure rfl (hinert .omit Dialect.handsOut_omit)
  | some key =>
    cases handling with
    | «return» =>
      cases hd : b.dialect with
      | sqlServer =>
        exact Rendered.pure (by simp [Rendering.ofKey, hname, Dialect.returnsKeyInParameter])
          (Sink.after_of_inert rfl rfl).symm
      | oracle =>
        show Agree _ _ ((Writing.bindOutput key.dataType >>= fun output =>
          Pure.pure (WrittenKey.return _ (some output))).run σ)
        rw [StateT.run_bind, Writing.bindOutput, Writing.run_push b.style _ hσ]
        refine Rendered.pure ?_ rfl
        simp [Rendering.ofKey, hname, Dialect.returnsKeyInParameter]
    | capture name =>
      exact Rendered.pure (by simp [Rendering.ofKey, hname])
        (hinert _ (Dialect.handsOut_capture _ _))
    | «omit» => exact Rendered.pure rfl (hinert _ Dialect.handsOut_omit)

/-- The columns of the entries of an insert are names. -/
theorem filterMap_columns {links : Links} {fields : List Field}
    {entries : List (Option (Sql × Sql))}
    (h : fields.mapM (b.insertEntry e links) = .ok entries) {β : Type} {pick : Piece → Option β}
    (hp : Passes pick) :
    ∀ column ∈ (entries.filterMap id).map Prod.fst, column.filterMap pick = [] := by
  refine List.forall_mem_map.2 fun entry hm => ?_
  obtain ⟨_, hentry, rfl⟩ := List.mem_filterMap.1 hm
  obtain ⟨f, _, hf⟩ := exists_of_mem_mapM h hentry
  rcases insertEntry_eq_ok.1 hf with ⟨_, _, h⟩ | ⟨_, ⟨_, h⟩ | ⟨_, _, _, _, h⟩⟩
  · obtain rfl := Option.some.inj h
    exact List.filterMap_cons_none (hp.name _)
  · exact absurd h (by simp)
  · obtain rfl := Option.some.inj h
    exact List.filterMap_cons_none (hp.name _)

/-- An insert is rendered from its entries, the key behind them. -/
theorem rendered_insert {entries : List (Sql × Sql)} (handling : KeyHandling)
    (hcolumns : ∀ {β : Type} {pick : Piece → Option β}, Passes pick →
      ∀ column ∈ entries.map Prod.fst, column.filterMap pick = [])
    (hσ : σ.dialect = b.dialect) {texts : List (String × String)}
    (htexts : (Rendering.ofEntry b.style).texts σ.count entries = texts) :
    Agree (Rendered (.ofSql b.style) σ)
      (.ok (b.dialect.insert ⟨Sql.table e.table, entries.map Prod.fst, entries.map Prod.snd⟩
        (b.keyReturn e handling)))
      ((b.writeKeyReturn e handling >>= fun key => Pure.pure (b.dialect.writeInsert
        ⟨b.style.qualifiedTable e.table, texts.map Prod.fst, texts.map Prod.snd⟩ key)).run
          (σ.after (entries.flatMap Prod.snd))) := by
  have hdialect : (σ.after (entries.flatMap Prod.snd)).dialect = b.dialect := hσ
  rw [StateT.run_bind, (renders_writeKeyReturn handling).run_eq hdialect]
  have hkey := filterMap_keyReturn (b := b) (e := e) passes_binding? handling
  refine Rendered.pure ?_ ?_
  · rw [Rendering.ofSql_text, Dialect.writeFrom_insert (hcolumns passes_binding?) hkey, ← htexts,
      Rendering.fst_ofEntry, Rendering.snd_ofEntry, Sink.count_after, Sql.bindings_flatMap,
      List.flatMap_map]
  · rw [Sink.after_after]
    refine Sink.after_of_passes fun hp => ?_
    rw [Rendering.ofSql_sql, filterMap_insert_keyReturn hp (hcolumns hp), List.filterMap_append,
      List.filterMap_flatMap, List.flatMap_map]
    rfl

theorem renders_writeInsert (links : Links) (handling : KeyHandling) :
    Renders b.dialect (.ofSql b.style) (b.insertBody e links handling)
      (b.writeInsert e links handling) := by
  intro σ hσ
  refine (Renders.mapM fun f _ => renders_writeEntry links f).bind_run hσ
    fun entries hentries _ => ?_
  have hcolumns := @filterMap_columns _ _ _ _ _ hentries
  have htexts := Rendering.texts_filterMap (R := .ofEntry b.style) (n := σ.count) entries
  have hpieces := Rendering.flatMap_option (R := .ofEntry b.style) entries
  rw [Rendering.list_text, Rendering.list_sql, htexts, hpieces]
  generalize entries.filterMap id = entries at hcolumns
  cases entries with
  | nil => exact .error _
  | cons entry entries => exact rendered_insert handling hcolumns hσ rfl

/-! ## Updates and deletes -/

theorem renders_writeAssignment (links : Links) (f : Field) :
    Renders b.dialect (.ofSql b.style) (b.assignment e links f) (b.writeAssignment e links f) := by
  -- whatever the value is, the column stands in front of it
  have hbehind : ∀ {x w}, Renders b.dialect (.ofSql b.style) x w →
      Renders b.dialect (.ofSql b.style)
        (x >>= fun value => pure ([.target .root f.columnName, .text " = "] ++ value))
        (w >>= fun text => pure (b.style.qualified .root f.columnName ++ " = " ++ text)) :=
    fun h σ hσ => h.bind_run hσ fun value _ _ =>
      Rendered.pure (by simp) (Sink.after_congr (by simp) (by simp))
  unfold assignment writeAssignment
  cases links.lookup f.name with
  | some name =>
    exact hbehind (x := .ok [.variable name]) (w := pure name) fun σ _ =>
      Rendered.pure (by simp) (Sink.after_of_inert rfl rfl).symm
  | none =>
    cases e.present? f.name with
    | some value => exact hbehind (renders_writeValue f value)
    | none => exact hbehind (renders_push b.style _)

theorem renders_writeUpdate (names : Option (List String)) (links : Links) :
    Renders b.dialect (.ofSql b.style) (b.updateBody e names links)
      (b.writeUpdate e names links) := by
  intro σ hσ
  refine Writing.check_bind_run fun key _ => ?_
  refine (Renders.mapM fun f _ => renders_writeAssignment links f).bind_run hσ
    fun assignments _ hσ => ?_
  cases assignments with
  | nil => exact .error _
  | cons assignment assignments =>
    refine (renders_writeKeyCondition (keyLink? e links)).bind_run hσ fun condition _ _ => ?_
    refine Rendered.pure ?_ ?_
    · refine Eq.trans ?_ Dialect.writeFrom_update.symm
      rw [Sink.count_after, Rendering.list_sql, Sql.bindings_flatMap]
      rfl
    · rw [Sink.after_after]
      refine Sink.after_of_passes fun hp => ?_
      refine Eq.trans ?_ (Dialect.filterMap_update hp (Sql.filterMap_table hp _)
        (List.filterMap_cons_none (hp.wording _))).symm
      rw [List.filterMap_append, Rendering.list_sql, List.filterMap_flatMap]
      rfl

theorem renders_writeDelete (links : Links) :
    Renders b.dialect (.ofSql b.style) (b.deleteBody e links) (b.writeDelete e links) := by
  intro σ hσ
  refine (renders_writeKeyCondition (keyLink? e links)).bind_run hσ fun condition _ _ => ?_
  refine Rendered.pure Dialect.writeFrom_delete.symm (Sink.after_of_passes fun hp => ?_)
  exact (Dialect.filterMap_delete hp (Sql.filterMap_table hp _)
    (List.filterMap_cons_none (hp.wording _))).symm

end Builder

end RecordSql
