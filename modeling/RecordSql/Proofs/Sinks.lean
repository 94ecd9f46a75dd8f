import RecordSql.Proofs.Agreement
import RecordSql.Proofs.BatchText
import RecordSql.Writer.Sink

/-!
# What is written along with a sink

A text written along with a sink is compared with the list of pieces that it stands for. The list
has a text of its own, in which the parameters are numbered by the places of their pieces, and it
binds and marks: so it says what text should come out of a sink, and what the sink should be behind
it.

* The sink **behind** a list has taken in what the list binds, in the order of its pieces, and is
  marked if it was or if one of the pieces needs the key.
* A writer **renders** a list when from every sink on it gives the text of the list, numbered on
  from the sink, and leaves the sink behind the list. It is refused when the list is, for the same
  cause.

That a writer renders a list is therefore all that is to be shown of it: its values are bound in the
order of the text, and the sink is marked just for what stands in the text. Writers that run one
after the other render lists that stand one after the other.
-/

namespace RecordSql

open Checked

theorem Checked.ok_bind {ε α β : Type} (a : α) (f : α → Except ε β) : (.ok a >>= f) = f a := rfl

/-! ## Text behind other text -/

namespace Sql

variable {style : Style} {sql a c : Sql} {n : Nat}

/-- The text of a list whose first parameter has the number `n`. -/
def writeFrom (style : Style) (n : Nat) (sql : Sql) : String :=
  String.ofList (charsFrom style n sql)

theorem write_eq (style : Style) (sql : Sql) : sql.write style = sql.writeFrom style 0 := rfl

@[simp]
theorem writeFrom_nil : writeFrom style n [] = "" := rfl

@[simp]
theorem writeFrom_append (a c : Sql) :
    writeFrom style n (a ++ c) =
      writeFrom style n a ++ writeFrom style (n + a.bindings.length) c := by
  rw [writeFrom, charsFrom_append, String.ofList_append]
  rfl

/-- A piece that binds nothing stands in front of the rest. -/
theorem writeFrom_cons {p : Piece} (h : p.binding? = none) (rest : Sql) :
    writeFrom style n (p :: rest) = p.write style n ++ writeFrom style n rest := by
  rw [writeFrom, charsFrom_of_binding?_none h, String.ofList_append, String.ofList_toList]
  rfl

@[simp]
theorem writeFrom_text (s : String) (rest : Sql) :
    writeFrom style n (.text s :: rest) = s ++ writeFrom style n rest :=
  writeFrom_cons rfl rest

@[simp]
theorem writeFrom_keyed (s : String) (rest : Sql) :
    writeFrom style n (.keyed s :: rest) = s ++ writeFrom style n rest :=
  writeFrom_cons rfl rest

@[simp]
theorem writeFrom_name (s : String) (rest : Sql) :
    writeFrom style n (.name s :: rest) = style.identifier s ++ writeFrom style n rest :=
  writeFrom_cons rfl rest

@[simp]
theorem writeFrom_column (t : TableAlias) (s : String) (rest : Sql) :
    writeFrom style n (.column t s :: rest) = style.qualified t s ++ writeFrom style n rest :=
  writeFrom_cons rfl rest

@[simp]
theorem writeFrom_target (t : TableAlias) (s : String) (rest : Sql) :
    writeFrom style n (.target t s :: rest) = style.qualified t s ++ writeFrom style n rest :=
  writeFrom_cons rfl rest

@[simp]
theorem writeFrom_variable (s : String) (rest : Sql) :
    writeFrom style n (.variable s :: rest) = s ++ writeFrom style n rest :=
  writeFrom_cons rfl rest

@[simp]
theorem writeFrom_bind (x : Binding) (rest : Sql) :
    writeFrom style n (.bind x :: rest) =
      style.dialect.placeholder (parameterName n) ++ writeFrom style (n + 1) rest := by
  rw [writeFrom, charsFrom, String.ofList_append, String.ofList_toList]
  rfl

/-- Without bound values it does not matter where a list stands. -/
theorem writeFrom_of_unbound (h : sql.bindings = []) (n : Nat) :
    writeFrom style n sql = sql.write style := by
  rw [writeFrom, charsFrom_of_bindings_nil h, String.ofList_toList]

/-! ## What a list binds and marks -/

@[simp]
theorem bindings_nil : bindings [] = [] := rfl

@[simp]
theorem bindings_text (s : String) (rest : Sql) : bindings (.text s :: rest) = bindings rest := rfl

@[simp]
theorem bindings_keyed (s : String) (rest : Sql) :
    bindings (.keyed s :: rest) = bindings rest := rfl

@[simp]
theorem bindings_name (s : String) (rest : Sql) : bindings (.name s :: rest) = bindings rest := rfl

@[simp]
theorem bindings_column (t : TableAlias) (s : String) (rest : Sql) :
    bindings (.column t s :: rest) = bindings rest := rfl

@[simp]
theorem bindings_target (t : TableAlias) (s : String) (rest : Sql) :
    bindings (.target t s :: rest) = bindings rest := rfl

@[simp]
theorem bindings_variable (s : String) (rest : Sql) :
    bindings (.variable s :: rest) = bindings rest := rfl

@[simp]
theorem bindings_bind (x : Binding) (rest : Sql) :
    bindings (.bind x :: rest) = x :: bindings rest := rfl

@[simp]
theorem needsKey_nil : needsKey [] = false := rfl

@[simp]
theorem needsKey_cons (p : Piece) (rest : Sql) :
    needsKey (p :: rest) = (p.isKeyed || needsKey rest) := rfl

@[simp]
theorem needsKey_append (a c : Sql) : needsKey (a ++ c) = (needsKey a || needsKey c) :=
  List.any_append

@[simp]
theorem needsKey_joined (separator : String) (parts : List Sql) :
    needsKey (joined separator parts) = parts.any needsKey := by
  induction parts with
  | nil => rfl
  | cons part rest ih =>
    cases rest with
    | nil => simp [joined]
    | cons next rest => rw [joined, needsKey_append, needsKey_cons, ih] <;> simp [Piece.isKeyed]

@[simp]
theorem bindings_flatMap {α : Type} (xs : List α) (f : α → Sql) :
    bindings (xs.flatMap f) = xs.flatMap fun a => (f a).bindings :=
  List.filterMap_flatMap

@[simp]
theorem needsKey_flatMap {α : Type} (xs : List α) (f : α → Sql) :
    needsKey (xs.flatMap f) = xs.any fun a => (f a).needsKey :=
  List.any_flatMap

/-- The parameters of a list, the first of them with the number `n`. -/
def parametersFrom (n : Nat) (sql : Sql) : List Parameter :=
  (sql.bindings.zipIdx n).map fun (x, k) => { x with name := parameterName k }

theorem parameters_eq (sql : Sql) : sql.parameters = sql.parametersFrom 0 := rfl

theorem length_parametersFrom : (sql.parametersFrom n).length = sql.bindings.length := by
  rw [parametersFrom, List.length_map, List.length_zipIdx]

theorem bindings_parametersFrom :
    (sql.parametersFrom n).map Parameter.toBinding = sql.bindings := by
  rw [parametersFrom, List.map_map]
  exact List.zipIdx_map_fst n sql.bindings

theorem parametersFrom_append :
    parametersFrom n (a ++ c) = parametersFrom n a ++ parametersFrom (n + a.bindings.length) c := by
  rw [parametersFrom, bindings_append, List.zipIdx_append, List.map_append]
  rfl

end Sql

/-! ## The sink behind a list -/

namespace Sink

variable {σ : Sink} {a c sql : Sql}

/-- The sink when a list has been written: it has the values that the list binds, and is marked if
the list needs the key. -/
def after (σ : Sink) (sql : Sql) : Sink where
  dialect := σ.dialect
  parameters := σ.parameters ++ sql.parametersFrom σ.count
  usesEncryption := σ.usesEncryption || sql.needsKey

@[simp]
theorem dialect_after : (σ.after sql).dialect = σ.dialect := rfl

@[simp]
theorem count_after : (σ.after sql).count = σ.count + sql.bindings.length := by
  rw [count, after, List.length_append, Sql.length_parametersFrom, count]

/-- Only what a list binds and whether it needs the key matter. -/
theorem after_congr (hb : a.bindings = c.bindings) (hk : a.needsKey = c.needsKey) :
    σ.after a = σ.after c := by
  rw [after, after, Sql.parametersFrom, Sql.parametersFrom, hb, hk]

/-- What comes out behind a list comes out behind one that binds and marks the same. -/
theorem ok_after {t t' : String} (ht : t = t') (hb : a.bindings = c.bindings)
    (hk : a.needsKey = c.needsKey) :
    (Except.ok (t, σ.after a) : Checked (String × Sink)) = .ok (t', σ.after c) := by
  rw [ht, after_congr hb hk]

theorem after_of_inert (hb : sql.bindings = []) (hk : sql.needsKey = false) : σ.after sql = σ := by
  rw [after, Sql.parametersFrom, hb, hk, List.zipIdx_nil, List.map_nil, List.append_nil,
    Bool.or_false]

@[simp]
theorem after_after : (σ.after a).after c = σ.after (a ++ c) := by
  have hcount : (σ.after a).count = σ.count + a.bindings.length := count_after
  unfold after at hcount ⊢
  rw [hcount, Sql.parametersFrom_append, Sql.needsKey_append, List.append_assoc, Bool.or_assoc]

/-- A mark is what a piece that needs the key leaves. -/
theorem marked_eq (s : String) : σ.marked = σ.after [.keyed s] := by
  simp [after, marked, Sql.parametersFrom, Piece.isKeyed]

theorem after_new (d : Dialect) (sql : Sql) :
    (new d).after sql = ⟨d, sql.parameters, sql.needsKey⟩ := by
  rw [after, Sql.parameters_eq]
  rfl

end Sink

/-! ## Renderings -/

/-- How a result in pieces is written: the list that stands for it, and what is written when the
next parameter has a number. -/
structure Rendering (α α' : Type) where
  sql : α → Sql
  text : Nat → α → α'

namespace Rendering

variable {α α' β β' : Type}

/-- A list of pieces is written as its text. -/
def ofSql (style : Style) : Rendering Sql String := ⟨id, Sql.writeFrom style⟩

/-- What may not be there. -/
def option (R : Rendering α α') : Rendering (Option α) (Option α') :=
  ⟨fun a => a.elim [] R.sql, fun n => Option.map (R.text n)⟩

/-- The texts of results that are written one after the other. -/
def texts (R : Rendering α α') : Nat → List α → List α'
  | _, [] => []
  | n, a :: rest => R.text n a :: R.texts (n + (R.sql a).bindings.length) rest

/-- Results that are written one after the other. -/
def list (R : Rendering α α') : Rendering (List α) (List α') := ⟨List.flatMap R.sql, R.texts⟩

variable {R : Rendering α α'} {n : Nat}

@[simp]
theorem ofSql_sql (style : Style) (sql : Sql) : (ofSql style).sql sql = sql := rfl

@[simp]
theorem ofSql_text (style : Style) (sql : Sql) :
    (ofSql style).text n sql = sql.writeFrom style n := rfl

@[simp]
theorem option_sql (a : Option α) : R.option.sql a = a.elim [] R.sql := rfl

@[simp]
theorem option_text (a : Option α) : R.option.text n a = a.map (R.text n) := rfl

@[simp]
theorem list_sql (xs : List α) : R.list.sql xs = xs.flatMap R.sql := rfl

@[simp]
theorem list_text (xs : List α) : R.list.text n xs = R.texts n xs := rfl

/-- What is not there moves no number. -/
theorem texts_filterMap (xs : List (Option α)) :
    (R.option.texts n xs).filterMap id = R.texts n (xs.filterMap id) := by
  induction xs generalizing n with
  | nil => rfl
  | cons x rest ih =>
    cases x with
    | none => exact ih
    | some a => exact congrArg (R.text n a :: ·) ih

theorem flatMap_option (xs : List (Option α)) :
    xs.flatMap R.option.sql = (xs.filterMap id).flatMap R.sql := by
  induction xs with
  | nil => rfl
  | cons x rest ih =>
    rw [List.flatMap_cons, ih]
    cases x with
    | none => rfl
    | some a => rfl

/-- Results that bind nothing are written each by itself. -/
theorem texts_of_unbound {xs : List α} (h : ∀ a ∈ xs, (R.sql a).bindings = [])
    (n : Nat) : R.texts n xs = xs.map (R.text n) := by
  induction xs with
  | nil => rfl
  | cons a rest ih =>
    obtain ⟨ha, hrest⟩ := List.forall_mem_cons.1 h
    rw [texts, ha, List.length_nil, Nat.add_zero, ih hrest, List.map_cons]

/-- A part of every result is written as a part of every text. -/
theorem map_texts {S : Rendering β β'} {f : α' → β'} {g : α → β}
    (ht : ∀ n a, f (R.text n a) = S.text n (g a))
    (hs : ∀ a, (R.sql a).bindings = (S.sql (g a)).bindings) (xs : List α) (n : Nat) :
    (R.texts n xs).map f = S.texts n (xs.map g) := by
  induction xs generalizing n with
  | nil => rfl
  | cons a rest ih => rw [texts, List.map_cons, ht, hs, ih, List.map_cons, texts]

/-- A part without a number is written alike everywhere. -/
theorem map_texts_of_const {f : α' → β'} {t : α → β'} {xs : List α}
    (ht : ∀ a ∈ xs, ∀ n, f (R.text n a) = t a) (n : Nat) : (R.texts n xs).map f = xs.map t := by
  induction xs generalizing n with
  | nil => rfl
  | cons a rest ih =>
    obtain ⟨ha, hrest⟩ := List.forall_mem_cons.1 ht
    rw [texts, List.map_cons, ha, ih hrest, List.map_cons]

theorem texts_of_const {t : α → α'} {xs : List α} (ht : ∀ a ∈ xs, ∀ n, R.text n a = t a)
    (n : Nat) : R.texts n xs = xs.map t := by
  rw [← map_texts_of_const (f := id) ht, List.map_id]

end Rendering

/-- The characters of texts that are written one after the other. -/
theorem Rendering.map_toList_texts {style : Style} (parts : List Sql) (n : Nat) :
    ((ofSql style).texts n parts).map String.toList = Sql.textsFrom style n parts := by
  induction parts generalizing n with
  | nil => rfl
  | cons part rest ih =>
    rw [texts, List.map_cons, ih, Sql.textsFrom]
    exact congrArg (· :: _) String.toList_ofList

/-- The text of joined parts. -/
theorem Sql.writeFrom_joined {style : Style} {n : Nat} (separator : String) (parts : List Sql) :
    (joined separator parts).writeFrom style n =
      separator.intercalate ((Rendering.ofSql style).texts n parts) := by
  rw [writeFrom, charsFrom_joined, ← String.toList_inj, String.toList_ofList,
    String.toList_intercalate, Rendering.map_toList_texts]

/-! ## Writers -/

section Writers

variable {α α' β β' : Type} {d : Dialect} {R : Rendering α α'} {S : β → β' × Sink → Prop}
  {x : Checked α} {w : Writing α'} {σ : Sink}

/-- What comes out of a sink is the text of a result, and the sink behind it. -/
def Rendered (R : Rendering α α') (σ : Sink) (a : α) (out : α' × Sink) : Prop :=
  out = (R.text σ.count a, σ.after (R.sql a))

/-- A writer renders a result, wherever it starts. -/
def Renders (d : Dialect) (R : Rendering α α') (x : Checked α) (w : Writing α') : Prop :=
  ∀ σ : Sink, σ.dialect = d → Agree (Rendered R σ) x (w.run σ)

/-- Behind a writer it goes on from the sink that is left. -/
theorem Renders.bind_run (h : Renders d R x w) (hσ : σ.dialect = d) {k : α → Checked β}
    {g : α' → Writing β'}
    (hk : ∀ a, x = .ok a → (σ.after (R.sql a)).dialect = d →
      Agree S (k a) ((g (R.text σ.count a)).run (σ.after (R.sql a)))) :
    Agree S (x >>= k) ((w >>= g).run σ) := by
  rw [StateT.run_bind]
  refine (h σ hσ).with_ok.bind ?_
  rintro a _ ⟨rfl, hx, _⟩
  exact hk a hx hσ

/-- Behind a check it goes on from the same sink. -/
theorem Writing.check_bind_run {k : α → Checked β} {g : α → Writing β'}
    (hk : ∀ a, x = .ok a → Agree S (k a) ((g a).run σ)) :
    Agree S (x >>= k) ((Writing.check x >>= g).run σ) := by
  rw [StateT.run_bind, Writing.check, StateT.run_lift]
  cases x with
  | ok a => exact hk a rfl
  | error fault => exact .error fault

/-- A check of a text that is written. -/
theorem Renders.check {y : Checked α'} {T : Rendering α α'}
    (h : Agree (fun a t => (∀ n, T.text n a = t) ∧ (T.sql a).bindings = [] ∧
      (T.sql a).needsKey = false) x y) :
    Renders d T x (Writing.check y) := by
  intro σ _
  rw [Writing.check, StateT.run_lift]
  cases h with
  | ok h =>
    obtain ⟨ht, hb, hk⟩ := h
    exact .ok (by rw [Rendered, ht, Sink.after_of_inert hb hk])
  | error fault => exact .error fault

/-- A result that is there is rendered from every sink on. -/
theorem Renders.run_eq {a : α} (h : Renders d R (.ok a) w) (hσ : σ.dialect = d) :
    w.run σ = .ok (R.text σ.count a, σ.after (R.sql a)) := by
  have hrun := h σ hσ
  generalize w.run σ = y at hrun
  cases hrun with
  | ok h => exact congrArg Except.ok h

/-- A refused result is refused from every sink on. -/
theorem Renders.run_error {fault : QueryError} (h : Renders d R (.error fault) w)
    (hσ : σ.dialect = d) : w.run σ = .error fault := by
  have hrun := h σ hσ
  generalize w.run σ = y at hrun
  cases hrun with
  | error fault => rfl

/-- A mark is put on the sink that is there. -/
theorem Writing.markEncryption_bind_run {g : Unit → Writing β'} :
    (Writing.markEncryption >>= g).run σ = (g ()).run σ.marked := rfl

/-- The end of a writer. -/
theorem Rendered.pure {a : α} {t : α'} {σ' : Sink} (ht : t = R.text σ.count a)
    (hσ : σ' = σ.after (R.sql a)) :
    Agree (Rendered R σ) (.ok a) ((Pure.pure t : Writing α').run σ') := by
  subst ht hσ
  exact .ok rfl

/-- The end of a writer that checks what it puts together. -/
theorem Rendered.check {y : Checked α'} {σ' : Sink}
    (h : Agree (fun a t => R.text σ.count a = t ∧ σ.after (R.sql a) = σ') x y) :
    Agree (Rendered R σ) x ((Writing.check y).run σ') := by
  rw [Writing.check, StateT.run_lift]
  cases h with
  | ok h =>
    obtain ⟨rfl, rfl⟩ := h
    exact .ok rfl
  | error fault => exact .error fault

theorem Rendered.some {a : α} {σ' : Sink} (h : Agree (Rendered R σ) (.ok a) (w.run σ')) :
    Agree (Rendered R.option σ) (.ok (some a)) ((w >>= fun t => Pure.pure (some t)).run σ') := by
  rw [StateT.run_bind]
  generalize w.run σ' = y at h
  cases h with
  | ok h =>
    subst h
    exact .ok rfl

/-- What is not there is not written. -/
theorem Rendered.none : Agree (Rendered R.option σ) (.ok none)
    ((Pure.pure none : Writing (Option α')).run σ) :=
  Rendered.pure rfl (Sink.after_of_inert rfl rfl).symm

/-- Binding a value writes its piece. -/
theorem renders_push (style : Style) (x : Binding) :
    Renders style.dialect (.ofSql style) (.ok [.bind x]) (modifyGet fun σ => σ.push x) := by
  intro σ hσ
  have hplaceholder : Sql.writeFrom style σ.count [.bind x] =
      σ.dialect.placeholder (parameterName σ.count) := by
    rw [Sql.writeFrom_bind, Sql.writeFrom_nil, String.append_empty, hσ]
  refine .ok (Prod.ext hplaceholder.symm ?_)
  show { σ with parameters := σ.parameters ++ [{ x with name := parameterName σ.count }] } =
    σ.after [.bind x]
  rw [Sink.after]
  simp [Sql.parametersFrom, Piece.isKeyed]

/-- Writers that run one after the other. -/
theorem Renders.mapM {ι : Type} {f : ι → Checked α} {g : ι → Writing α'} {xs : List ι}
    (h : ∀ i ∈ xs, Renders d R (f i) (g i)) : Renders d R.list (xs.mapM f) (xs.mapM g) := by
  induction xs with
  | nil =>
    intro σ _
    exact Rendered.pure rfl (Sink.after_of_inert rfl rfl).symm
  | cons i rest ih =>
    obtain ⟨hi, hrest⟩ := List.forall_mem_cons.1 h
    intro σ hσ
    rw [List.mapM_cons, List.mapM_cons]
    refine hi.bind_run hσ fun a _ hσ => ?_
    refine (ih hrest).bind_run hσ fun as _ _ => ?_
    refine Rendered.pure ?_ Sink.after_after
    rw [Sink.count_after]
    rfl

end Writers

end RecordSql
