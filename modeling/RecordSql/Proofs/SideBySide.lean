import RecordSql.Proofs.BatchSteps
import RecordSql.Proofs.Congruence
import RecordSql.Proofs.Refilled
import RecordSql.Proofs.Shapes
import RecordSql.Proofs.Unbound

/-!
# Two builders side by side

Some properties compare two answers: of one builder to requests that differ in values, of one
builder to requests that differ in values nobody looks at, of two builders to one request. All of
them go through the same builders in the same order, so that is done once, for any **likeness**.

A likeness of two builders says what is meant by parts of statements that are alike, and why the
places where the two may differ are written alike:

* the variables of a batch, the current time, and a date shown as text;
* the templates, in which likeness is kept;
* if the likeness is **loose**, the values that are bound. A run may then be refused for its value.

What the two requests have to share is said by `Request.Paired`: they are about entities with the
same metadata, and every value that is looked at is alike. Then one lemma for each function of the
builder shows that what it gives on both sides is alike, and the last of them that whole bodies are.
-/

namespace RecordSql

open Checked

/-! ## Likenesses -/

/-- What becomes of a new key is the same, up to the name of its variable. -/
inductive KeyHandling.Like (Named : String → String → Prop) : KeyHandling → KeyHandling → Prop where
  | return : Like Named .return .return
  | capture {name name' : String} : Named name name' → Like Named (.capture name) (.capture name')
  | omit : Like Named .omit .omit

/-- Variables of the same steps, up to their names. -/
def KeyVariables.Like (Named : String → String → Prop) (keyed keyed' : KeyVariables) : Prop :=
  List.Forall₂ (fun p p' => p.1 = p'.1 ∧ Named p.2 p'.2) keyed keyed'

theorem KeyVariables.Like.eq {keyed keyed' : KeyVariables} (h : Like Eq keyed keyed') :
    keyed = keyed' := by
  rw [← List.forall₂_eq_eq_eq]
  exact h.imp fun _ _ hp => Prod.ext hp.1 hp.2

/-- What two builders have in common when they write about like things. -/
structure Likeness (b b' : Builder) where
  /-- Values may differ, and be refused on one side only. -/
  loose : Prop
  /-- What holds of parts of statements. -/
  Like : Sql → Sql → Prop
  /-- What holds of bodies. -/
  Body : Sql → Sql → Prop
  /-- What holds of the names of variables. -/
  Named : String → String → Prop
  congruence : Sql.Congruence Like
  masked {sql sql' : Sql} : loose → sql.masked = sql'.masked → Like sql sql'
  body {sql sql' : Sql} : Like sql sql' → Body sql sql'
  named {name name' : String} : Named name name' → Like [.variable name] [.variable name']
  batchVariable (n : Nat) : Named (b.dialect.batchVariable n) (b'.dialect.batchVariable n)
  date (column : Sql) : Like (b.dialect.dateToString column) (b'.dialect.dateToString column)
  currentTime (type : DataType) :
    Like [.text (b.dialect.currentTime type)] [.text (b'.dialect.currentTime type)]
  paginate {projection projection' source orderBy : Sql} {filter filter' : Option Sql}
    (w : Window) : Like projection projection' → Option.Rel Like filter filter' →
    projection.bindings = [] → projection'.bindings = [] → source.bindings = [] →
    orderBy.bindings = [] →
    Like (b.dialect.paginate ⟨projection, source, filter, orderBy⟩ w)
      (b'.dialect.paginate ⟨projection', source, filter', orderBy⟩ w)
  /-- An insert may hand its key out, if it does not keep it. -/
  insert {e : Entity} {columns values values' : List Sql} {handling handling' : KeyHandling} :
    List.Forall₂ Like values values' → (∀ c ∈ columns, Sql.bindings c = []) →
    KeyHandling.Like Named handling handling' →
    (handling ≠ .return →
      Like (b.dialect.insert ⟨Sql.table e.table, columns, values⟩ (b.keyReturn e handling))
        (b'.dialect.insert ⟨Sql.table e.table, columns, values'⟩ (b'.keyReturn e handling'))) ∧
      Body (b.dialect.insert ⟨Sql.table e.table, columns, values⟩ (b.keyReturn e handling))
        (b'.dialect.insert ⟨Sql.table e.table, columns, values'⟩ (b'.keyReturn e handling'))
  update {table : String} {assignments assignments' : List Sql} {condition condition' : Sql} :
    List.Forall₂ Like assignments assignments' → Like condition condition' →
    Like (b.dialect.update (Sql.table table) [.text TableAlias.root.text] assignments condition)
      (b'.dialect.update (Sql.table table) [.text TableAlias.root.text] assignments' condition')
  delete {table : String} {condition condition' : Sql} : Like condition condition' →
    Like (b.dialect.delete (Sql.table table) [.text TableAlias.root.text] condition)
      (b'.dialect.delete (Sql.table table) [.text TableAlias.root.text] condition')
  batch {steps steps' : List BatchStep} {fragments fragments' : List Sql} :
    List.Forall₂ Like fragments fragments' →
    KeyVariables.Like Named (b.keyVariables steps) (b'.keyVariables steps') →
    Body (b.dialect.batch ⟨b.templateVariables steps, fragments⟩)
      (b'.dialect.batch ⟨b'.templateVariables steps', fragments'⟩)

/-- **One builder writes like parts as like statements**, for any likeness of SQL that is kept when
SQL is put together. -/
def Likeness.ofCongruence (b : Builder) (loose : Prop) {Like : Sql → Sql → Prop}
    (h : Sql.Congruence Like)
    (masked : loose → ∀ sql sql' : Sql, sql.masked = sql'.masked → Like sql sql') :
    Likeness b b where
  loose := loose
  Like := Like
  Body := Like
  Named := Eq
  congruence := h
  masked := fun hloose => masked hloose _ _
  body := id
  named := fun hname => hname ▸ h.refl _
  batchVariable := fun _ => rfl
  date := fun _ => h.refl _
  currentTime := fun _ => h.refl _
  paginate := fun w hp hf _ _ _ _ => h.paginate b.dialect w hp hf
  insert := fun hv _ hhandling => by
    have hkey : ∀ {handling handling' : KeyHandling}, KeyHandling.Like Eq handling handling' →
        handling = handling' := by
      intro handling handling' hh
      cases hh with
      | «return» => rfl
      | capture hname => rw [hname]
      | «omit» => rfl
    rw [hkey hhandling]
    exact ⟨fun _ => h.insert b.dialect _ hv, h.insert b.dialect _ hv⟩
  update := h.update b.dialect _ _
  delete := h.delete b.dialect _ _
  batch := fun {steps steps' _ _} hf hk => by
    rw [Builder.templateVariables, Builder.templateVariables, KeyVariables.Like.eq hk]
    exact h.batch b.dialect _ hf

/-- One builder writes the same of the same values. -/
def Likeness.same (b : Builder) : Likeness b b :=
  .ofCongruence b False ⟨fun _ => rfl, fun h hrest => h ▸ hrest ▸ rfl⟩ fun hloose => hloose.elim

/-- Two builders read the columns of an entity alike: they are one, or nothing is encrypted. -/
def Builder.ReadsAlike (b b' : Builder) (e : Entity) : Prop := b = b' ∨ ¬ e.HasEncrypted

/-- Values that are written alike into a field: both ask for the current time, or neither does. -/
def Field.Takes (loose : Prop) (f : Field) : Json → Json → Prop :=
  Varies loose fun v v' => f.dataType.isTemporal = true → isCurrentTime v = isCurrentTime v'

namespace Entity

/-- The values of two records ask for searches alike. -/
def SearchesLike (loose : Prop) (e e' : Entity) : Prop :=
  ∀ f ∈ e.fields, Matches loose (Option.Rel (Varies loose Predicate.OneShape))
    (Builder.examplePredicate e f) (Builder.examplePredicate e' f)

/-- Two records have the same key, unless it is linked. -/
def KeyLike (loose : Prop) (linked : List String) (e e' : Entity) : Prop :=
  ¬ loose → ∀ key, e.key? = some key → key.name ∉ linked →
    e.present? key.name = e'.present? key.name

/-- An insert gives the fields like values, unless they are linked. -/
def InsertsLike (loose : Prop) (change : Option Json → Option Json) (linked : List String)
    (e e' : Entity) : Prop :=
  ∀ f ∈ Builder.insertFields e, f.name ∉ linked →
    Option.Rel (f.Takes loose) (Builder.insertValue? e f)
      (Builder.insertValue? e' (f.mapDefault change))

/-- So does an update of the fields of some names. -/
def UpdatesLike (loose : Prop) (names : Option (List String)) (linked : List String)
    (e e' : Entity) : Prop :=
  ∀ f ∈ Builder.updateFields e names, f.name ∉ linked →
    Option.Rel (f.Takes loose) (e.present? f.name) (e'.present? f.name)

/-- Searches are alike for the same values. -/
theorem searchesLike_of_value {loose : Prop} {e e' : Entity}
    (h : ∀ f ∈ e.fields, e.value? f.name = e'.value? f.name) : e.SearchesLike loose e' := by
  intro f hf
  have hsame : Builder.examplePredicate e f = Builder.examplePredicate e' f := by
    unfold Builder.examplePredicate
    rw [h f hf]
  rw [← hsame]
  exact .refl fun o _ => rel_refl (fun _ => .refl rfl) o

end Entity

/-- A field takes what it takes. -/
theorem Field.takes_refl {loose : Prop} (f : Field) (o : Option Json) :
    Option.Rel (f.Takes loose) o o :=
  rel_refl (fun _ => .refl fun _ => rfl) o

/-- The value of a key is looked up under the key's name. -/
theorem Entity.requireKeyValue_of_key {e : Entity} {key : Field} (h : e.key? = some key) :
    e.requireKeyValue =
      match e.present? key.name with
      | some value => .ok (key, value)
      | none => .error (.noKeyValue key.name e.table) := by
  unfold requireKeyValue requireKey
  rw [h]
  rfl

namespace Likeness

variable {b b' : Builder} (L : Likeness b b') {e : Entity} {change : Option Json → Option Json}
  {values : Properties}

/-! ## Columns -/

/-- A name stands for the same thing on both sides, the default of a field apart. -/
theorem bind_resolve {α α' : Type} {S : α → α' → Prop} {loose : Prop} {name : String}
    {k : Target → Checked α} {k' : Target → Checked α'}
    (h : ∀ target, e.resolve name = .ok target →
      Matches loose S (k target) (k' (target.mapDefault change))) :
    Matches loose S (ofFilter (e.resolve name) >>= k)
      (ofFilter ((e.refilled change values).resolve name) >>= k') := by
  rw [Entity.resolve_refilled]
  cases ht : e.resolve name with
  | ok target => exact h target ht
  | error fault => exact .error _

/-- So does the key. -/
theorem bind_requireKey {α α' : Type} {S : α → α' → Prop} {loose : Prop}
    {k : Field → Checked α} {k' : Field → Checked α'}
    (h : ∀ key, e.key? = some key → Matches loose S (k key) (k' (key.mapDefault change))) :
    Matches loose S (ofEntity e.requireKey >>= k)
      (ofEntity (e.refilled change values).requireKey >>= k') := by
  rw [Entity.requireKey_refilled]
  cases hk : e.requireKey with
  | ok key => exact h key (Entity.requireKey_eq_ok.1 hk)
  | error fault => exact .error _

section Reads

variable (hr : b.ReadsAlike b' e)
include hr

theorem readField_eq {f : Field} (hf : f ∈ e.fields) :
    b'.readField (f.mapDefault change) = b.readField f := by
  have hread : f.dataType ≠ .encrypted → ∀ b : Builder,
      b.readField f = .ok [.column .root f.columnName] := fun hne b =>
    Builder.readField_eq_ok.2 (.inl ⟨hne, rfl⟩)
  rcases hr with rfl | hplain
  · rfl
  · have hne : f.dataType ≠ .encrypted := fun he => hplain ⟨f, hf, he⟩
    exact (hread hne b').trans (hread hne b).symm

/-- **What a name stands for is read in the same way.** -/
theorem operand_eq {name : String} {target : Target} (h : e.resolve name = .ok target) :
    b'.operand (target.mapDefault change) = b.operand target := by
  cases Entity.reaches_of_resolve? (Entity.resolve_eq_ok.1 h) with
  | field hf => exact readField_eq hr hf
  | joined _ _ => rfl

end Reads

/-! ## Conditions -/

/-- Runs on values that may vary are alike when they give the same under the mask. -/
theorem alike_of_masked {x y : Checked Sql} (hxy : ¬ L.loose → x = y)
    (hm : ∀ sql sql', x = .ok sql → y = .ok sql' → sql.masked = sql'.masked) :
    Matches L.loose L.Like x y := by
  refine .of_eq hxy fun sql sql' h h' => ?_
  by_cases hloose : L.loose
  · exact L.masked hloose (hm sql sql' h h')
  · obtain rfl := Except.ok.inj (h.symm.trans ((hxy hloose).trans h'))
    exact L.congruence.refl _

/-- What is typed from values that may vary is bound alike. -/
theorem like_condition {type : DataType} {p p' : Predicate} {c c' : Condition}
    (hp : Varies L.loose Predicate.OneShape p p') (hc : p.coerce type = .ok c)
    (hc' : p'.coerce type = .ok c') (operand : Sql) :
    L.Like (c.sql operand type) (c'.sql operand type) := by
  by_cases hloose : L.loose
  · exact L.masked hloose (Condition.masked_sql_of_shape hp.related hc hc' operand)
  · obtain rfl := hp.same hloose
    obtain rfl := Except.ok.inj (hc.symm.trans hc')
    exact L.congruence.refl _

theorem like_bound {v v' : Value} (hv : ¬ L.loose → v = v') (type : DataType) :
    L.Like [.bind (.input v type)] [.bind (.input v' type)] := by
  by_cases hloose : L.loose
  · exact L.masked hloose rfl
  · rw [hv hloose]
    exact L.congruence.refl _

/-- A value that may vary is typed, or refused, alike. -/
theorem typed_alike {ε : Type} {v v' : Json} (hv : ¬ L.loose → v = v') (type : DataType)
    (name : CoerceFault → ε) :
    Matches L.loose (fun x x' => ¬ L.loose → x = x') ((Value.coerce v type).mapError name)
      ((Value.coerce v' type).mapError name) := by
  refine .of_eq (fun hs => by rw [hv hs]) fun x x' hx hx' hs => ?_
  rw [hv hs] at hx
  exact Except.ok.inj (hx.symm.trans hx')

/-- A search is typed for a column, or refused, alike. -/
theorem coerce_alike {p p' : Predicate} (hp : Varies L.loose Predicate.OneShape p p')
    (type : DataType) (name : Predicate → CoerceFault → FilterFault) :
    Matches L.loose (fun c c' => ∀ operand, L.Like (c.sql operand type) (c'.sql operand type))
      (ofFilter ((p.coerce type).mapError (name p)))
      (ofFilter ((p'.coerce type).mapError (name p'))) := by
  refine .of_eq (fun hstrict => by rw [hp.same hstrict]) fun c c' hc hc' operand => ?_
  exact L.like_condition hp (mapError_eq_ok.1 (ofFilter_eq_ok.1 hc))
    (mapError_eq_ok.1 (ofFilter_eq_ok.1 hc')) operand

section Listings

variable (hr : b.ReadsAlike b' e) {l l' : Listing}
include hr

theorem columnCondition_alike {search search' : Predicate}
    (hs : Varies L.loose Predicate.OneShape search search') (name : String) :
    Matches L.loose L.Like (b.columnCondition e name search)
      (b'.columnCondition (e.refilled change values) name search') := by
  refine bind_resolve fun target ht => ?_
  rw [target.dataType_mapDefault, operand_eq hr ht]
  refine (L.coerce_alike hs target.dataType fun p => .columnSearch p name).bind fun c c' hc => ?_
  exact .bind_same fun operand _ => .ok (hc operand)

/-- A searchable column has a condition on both sides, or on none. -/
theorem searchCondition_alike {search search' : Predicate}
    (hs : Varies L.loose Predicate.OneShape search search') {name : String}
    (hok : ∀ target, e.resolve? name = some target →
      (search.coerce target.dataType).isOk = (search'.coerce target.dataType).isOk) :
    Matches L.loose (Option.Rel L.Like) (b.searchCondition e search name)
      (b'.searchCondition (e.refilled change values) search' name) := by
  refine bind_resolve fun target ht => ?_
  rw [target.dataType_mapDefault, operand_eq hr ht]
  -- the column can hold both searches or none, so two of four cases cannot be
  have hboth := hok target (Entity.resolve_eq_ok.1 ht)
  cases hc : search.coerce target.dataType with
  | error fault =>
    cases hc' : search'.coerce target.dataType with
    | error fault' => exact .ok .none
    | ok c' =>
      rw [hc, hc'] at hboth
      exact absurd hboth (by simp [Except.isOk, Except.toBool])
  | ok c =>
    cases hc' : search'.coerce target.dataType with
    | error fault' =>
      rw [hc, hc'] at hboth
      exact absurd hboth (by simp [Except.isOk, Except.toBool])
    | ok c' => exact .bind_same fun operand _ => .ok (.some (L.like_condition hs hc hc' operand))

theorem filterClause_alike (hl : Varies L.loose (Listing.Alike e) l l') :
    Matches L.loose (Option.Rel L.Like) (b.filterClause e l)
      (b'.filterClause (e.refilled change values) l') := by
  have hcolumns : Matches L.loose (List.Forall₂ L.Like) (b.columnConditions e l)
      (b'.columnConditions (e.refilled change values) l') := by
    refine .mapM ((searchedColumns_varies hl).imp fun c c' hc => ?_)
    obtain ⟨hname, hsearch⟩ := hc
    dsimp only
    rw [← hname]
    exact L.columnCondition_alike hr hsearch c.1
  have hsearches : Matches L.loose (List.Forall₂ L.Like) (b.searchConditions e l)
      (b'.searchConditions (e.refilled change values) l') := by
    have hsearch : Option.Rel (Varies L.loose Predicate.OneShape) l.search l'.search :=
      Varies.option (Predicate.oneShape_of_map hl.related.search) fun hs => by rw [hl.same hs]
    have hcoerces := hl.related.coerces
    unfold Builder.searchConditions
    rw [← searchableColumns_alike hl.related.columns]
    generalize l.search = search, l'.search = search' at hsearch hcoerces
    cases hsearch with
    | none => exact .ok .nil
    | @some p p' hp =>
      refine (Matches.mapM_same fun name hm => ?_).bind fun _ _ hc =>
        .ok (List.rel_filterMap (fun _ _ h => h) hc)
      exact L.searchCondition_alike hr hp (hcoerces p p' rfl rfl name hm)
  exact hcolumns.bind fun _ _ hc => hsearches.bind fun _ _ hs => .ok (L.congruence.combine hc hs)

theorem filterClause?_alike {l l' : Option Listing}
    (hl : Option.Rel (Varies L.loose (Listing.Alike e)) l l') :
    Matches L.loose (Option.Rel L.Like) (b.filterClause? e l)
      (b'.filterClause? (e.refilled change values) l') := by
  cases hl with
  | none => exact .ok .none
  | some hl => exact L.filterClause_alike hr hl

theorem exampleClause_alike (combinator : Combinator)
    (he : e.SearchesLike L.loose (e.refilled change values)) :
    Matches L.loose (Option.Rel L.Like) (b.exampleClause e combinator)
      (b'.exampleClause (e.refilled change values) combinator) := by
  have hconditions : Matches L.loose (List.Forall₂ (Option.Rel L.Like))
      (e.fields.mapM (b.exampleCondition e))
      ((e.refilled change values).fields.mapM
        (b'.exampleCondition (e.refilled change values))) := by
    refine .mapM_map fun f hf => ((he f hf).ofFilter).bind fun o o' ho => ?_
    cases ho with
    | none => exact .ok .none
    | some hp =>
      refine (L.coerce_alike hp f.dataType fun p => .exampleValue p f.name).bind fun c c' hc => ?_
      rw [readField_eq hr hf]
      exact .bind_same fun operand _ => .ok (.some (hc operand))
  refine hconditions.bind fun conditions conditions' hc => ?_
  have hkept : List.Forall₂ L.Like (conditions.filterMap id) (conditions'.filterMap id) :=
    List.rel_filterMap (fun _ _ h => h) hc
  generalize conditions.filterMap id = kept, conditions'.filterMap id = kept' at hkept
  have hjoined := L.congruence.joined (" " ++ combinator.keyword ++ " ") hkept
  cases hkept with
  | nil => exact .ok .none
  | cons _ _ => exact .ok (.some hjoined)

end Listings

/-- The row of a key is picked alike, by its variable or by its value. -/
theorem keyCondition_alike {replacement replacement' : Option String}
    (hn : Option.Rel L.Named replacement replacement')
    (hv : replacement = none → ¬ L.loose → ∀ key, e.key? = some key →
      e.present? key.name = (e.refilled change values).present? key.name) :
    Matches L.loose L.Like (Builder.keyCondition e replacement)
      (Builder.keyCondition (e.refilled change values) replacement') := by
  cases hn with
  | some hname =>
    exact bind_requireKey fun _ _ =>
      .ok (L.congruence.append (L.congruence.refl _) (L.named hname))
  | none =>
    refine L.alike_of_masked (fun hstrict => ?_) fun sql sql' h h' => ?_
    · have hmatch : Matches False Eq (Builder.keyCondition e none)
          (Builder.keyCondition (e.refilled change values) none) := by
        refine bind_requireKey fun key hkey => ?_
        have hkey' : (e.refilled change values).key? = some (key.mapDefault change) := by
          rw [Entity.key?_refilled, hkey, Option.map_some]
        have hpresent : e.present? key.name =
            (e.refilled change values).present? (key.mapDefault change).name :=
          hv rfl hstrict key hkey
        dsimp only
        rw [Entity.requireKeyValue_of_key hkey, Entity.requireKeyValue_of_key hkey', ← hpresent]
        cases e.present? key.name with
        | none => exact .error _
        | some v => exact .refl fun _ _ => rfl
      exact (hmatch.agree not_false).eq
    · obtain ⟨key, hkey, ⟨_, hn, _⟩ | ⟨_, _, _, v, _, rfl⟩⟩ := Builder.keyCondition_eq_ok.1 h
      · exact absurd hn (by simp)
      obtain ⟨key', hkey', ⟨_, hn, _⟩ | ⟨_, _, _, v', _, rfl⟩⟩ := Builder.keyCondition_eq_ok.1 h'
      · exact absurd hn (by simp)
      rw [Entity.key?_refilled, hkey] at hkey'
      obtain rfl := Option.some.inj hkey'
      rfl

/-! ## Selects -/

section Selects

variable (hr : b.ReadsAlike b' e)
include hr

/-- Items differ in how dates are shown. -/
theorem fieldItem_alike {f : Field} (hf : f ∈ e.fields) :
    Matches L.loose (fun item item' => L.Like item.sql item'.sql) (b.fieldItem f)
      (b'.fieldItem (f.mapDefault change)) := by
  have hread : b'.readField (f.mapDefault change) = b.readField f := readField_eq hr hf
  have htype : (f.mapDefault change).dataType = f.dataType := rfl
  unfold Builder.fieldItem
  rw [htype]
  split
  · exact .ok (L.congruence.append (L.date _) (L.congruence.refl _))
  · rw [hread]
    exact .bind_same fun _ _ => .ok (L.congruence.refl _)
  · exact .refl fun _ _ => L.congruence.refl _

theorem projection_alike :
    Matches L.loose (fun items items' => L.Like (Sql.items items) (Sql.items items'))
      (b.projection e) (b'.projection (e.refilled change values)) := by
  have hfields : (e.refilled change values).fields.filter Field.isProjected =
      (e.fields.filter Field.isProjected).map (Field.mapDefault change) :=
    e.filter_fields_refilled change values fun _ => rfl
  have hjoins : (e.refilled change values).joinedTables.flatMap JoinedTable.items =
      e.joinedTables.flatMap JoinedTable.items := by
    rw [Entity.joinedTables_refilled, List.flatMap_map]
    rfl
  unfold Builder.projection
  rw [hfields, hjoins]
  refine (Matches.mapM_map fun f hf =>
    L.fieldItem_alike hr (List.mem_of_mem_filter hf)).bind fun fields fields' h => ?_
  -- the same items of joins stand behind those of the fields
  have hitems : List.Forall₂ (fun item item' => L.Like item.sql item'.sql)
      (fields ++ e.joinedTables.flatMap JoinedTable.items)
      (fields' ++ e.joinedTables.flatMap JoinedTable.items) :=
    List.rel_append h (List.forall₂_same.2 fun _ _ => L.congruence.refl _)
  generalize fields ++ _ = items, fields' ++ _ = items' at hitems
  have hlike := L.congruence.items hitems
  cases hitems with
  | nil => exact .error _
  | cons _ _ => exact .ok hlike

/-- Sorts read the same columns. -/
theorem sortTerms?_eq {l l' : Option Listing}
    (hl : Option.Rel (Varies L.loose (Listing.Alike e)) l l') :
    b'.sortTerms? (e.refilled change values) l' = b.sortTerms? e l := by
  cases hl with
  | none => rfl
  | @some l l' hl =>
    have hmatch : Matches False (List.Forall₂ Eq) (b.sortTerms e l)
        (b'.sortTerms (e.refilled change values) l') := by
      refine ((agree_sortTargets hl.related).matches.mapError _).ofFilter.bind fun _ _ ht =>
        .mapM (ht.imp fun t t' htt => ?_)
      obtain ⟨hname, hdirection⟩ := htt
      dsimp only
      rw [← hdirection]
      show Matches _ _ _ (ofFilter ((e.refilled change values).resolve t'.1.data) >>= _)
      rw [← hname]
      refine bind_resolve fun target htarget => ?_
      rw [operand_eq hr htarget]
      exact .refl fun _ _ => rfl
    exact (hmatch.agree not_false).eq_of_forall₂.symm

omit hr in
theorem pagedSelect_alike {projection projection' source : Sql} {filter filter' : Option Sql}
    {terms : List Sql} {l l' : Option Listing}
    (hl : Option.Rel (Varies L.loose (Listing.Alike e)) l l')
    (hp : L.Like projection projection') (hf : Option.Rel L.Like filter filter')
    (hpn : projection.bindings = []) (hpn' : projection'.bindings = []) (hs : source.bindings = [])
    (ht : ∀ term ∈ terms, Sql.bindings term = []) :
    Matches L.loose L.Like (b.pagedSelect e projection source filter terms l)
      (b'.pagedSelect (e.refilled change values) projection' source filter' terms l') := by
  have hplain : Matches L.loose L.Like
      (.ok (Builder.plainSelect ⟨projection, source, filter, Sql.list terms⟩) :
        Except FilterFault Sql)
      (.ok (Builder.plainSelect ⟨projection', source, filter', Sql.list terms⟩)) :=
    .ok (L.congruence.plainSelect hp hf)
  unfold Builder.pagedSelect
  cases hl with
  | none => exact hplain
  | @some l l' hl =>
    have hwindowed : l'.isWindowed = l.isWindowed := by
      unfold Listing.isWindowed
      rw [hl.related.length]
    rw [Option.filter_some, Option.filter_some, hwindowed]
    cases l.isWindowed with
    | false => exact hplain
    | true =>
      -- a window is no value, so both sides have the same one
      rw [if_pos rfl, if_pos rfl]
      dsimp only
      rw [← hl.related.start, ← hl.related.length]
      cases Window.of? l.start l.length with
      | none => exact .error _
      | some w =>
        dsimp only
        rw [Builder.windowOrder_refilled]
        exact .bind_same fun _ ho =>
          .ok (L.paginate w hp hf hpn hpn' hs (Builder.bindings_windowOrder ht ho))

theorem selectBody_alike {l l' : Option Listing}
    (hl : Option.Rel (Varies L.loose (Listing.Alike e)) l l') :
    Matches L.loose L.Like (b.selectBody e l) (b'.selectBody (e.refilled change values) l') := by
  unfold Builder.selectBody
  rw [Builder.fromClause_refilled, L.sortTerms?_eq hr hl]
  refine (L.projection_alike hr).with_ok.bind fun items items' ⟨hlike, hi, hi'⟩ =>
    .bind_same fun source hsource => (L.filterClause?_alike hr hl).bind fun _ _ hf =>
      .bind_same fun terms hterms => .ofFilter ?_
  exact L.pagedSelect_alike hl hlike hf (Builder.bindings_projection hi)
    (Builder.bindings_projection hi') (bindings_fromClause hsource)
    (Builder.bindings_sortTerms? hterms)

theorem countBody_alike {l l' : Option Listing}
    (hl : Option.Rel (Varies L.loose (Listing.Alike e)) l l') :
    Matches L.loose L.Like (b.countBody e l) (b'.countBody (e.refilled change values) l') := by
  unfold Builder.countBody
  rw [Builder.fromClause_refilled]
  exact .bind_same fun _ _ => (L.filterClause?_alike hr hl).bind fun _ _ hf =>
    .ok (L.congruence.plainSelect (L.congruence.refl _) hf)

theorem selectByKeyBody_alike
    (hk : e.KeyLike L.loose [] (e.refilled change values)) :
    Matches L.loose L.Like (b.selectByKeyBody e)
      (b'.selectByKeyBody (e.refilled change values)) := by
  unfold Builder.selectByKeyBody
  rw [Builder.fromClause_refilled]
  have hkey := L.keyCondition_alike .none fun _ hs key hkey => hk hs key hkey List.not_mem_nil
  exact (L.projection_alike hr).bind fun _ _ hp => .bind_same fun _ _ =>
    hkey.bind fun _ _ hc => .ok (L.congruence.plainSelect hp (.some hc))

theorem selectByExampleBody_alike (combinator : Combinator)
    (he : e.SearchesLike L.loose (e.refilled change values)) :
    Matches L.loose L.Like (b.selectByExampleBody e combinator)
      (b'.selectByExampleBody (e.refilled change values) combinator) := by
  unfold Builder.selectByExampleBody
  rw [Builder.fromClause_refilled]
  exact (L.projection_alike hr).bind fun _ _ hp => .bind_same fun _ _ =>
    (L.exampleClause_alike hr combinator he).bind fun _ _ hf =>
      .ok (L.congruence.plainSelect hp hf)

end Selects

/-! ## Rows -/

/-- Links of the same fields, up to the names of variables. -/
def LinksLike (links links' : Links) : Prop :=
  ∀ name, Option.Rel L.Named (links.lookup name) (links'.lookup name)

/-- Entries of an insert for one column, which binds nothing. -/
structure EntryLike (entry entry' : Sql × Sql) : Prop where
  column : entry.1 = entry'.1
  bindings : Sql.bindings entry.1 = []
  value : L.Like entry.2 entry'.2

section Rows

variable {links links' : Links} {linked : List String} {f : Field}

theorem valueExpression_alike (hr : b.ReadsAlike b' e) (hf : f ∈ e.fields) {v v' : Json}
    (hv : f.Takes L.loose v v') :
    Matches L.loose L.Like (b.valueExpression e f v)
      (b'.valueExpression (e.refilled change values) (f.mapDefault change) v') := by
  have htype : (f.mapDefault change).dataType = f.dataType := rfl
  have htime : (f.dataType.isTemporal && isCurrentTime v') =
      (f.dataType.isTemporal && isCurrentTime v) := by
    cases ht : f.dataType.isTemporal with
    | false => rfl
    | true => rw [hv.related ht]
  unfold Builder.valueExpression
  rw [htype, htime]
  split
  · exact .ok (L.currentTime _)
  · refine (L.typed_alike hv.same f.dataType _).ofEntity.bind fun x x' hx => ?_
    have hbound := L.like_bound hx f.dataType
    split
    · next he =>
      rcases hr with rfl | hplain
      · exact .bind_same fun keys _ => (L.congruence.encrypt _ keys hbound).matches
      · exact absurd ⟨f, hf, he⟩ hplain
    · exact .ok hbound

theorem insertEntry_alike (hr : b.ReadsAlike b' e) (hf : f ∈ e.fields)
    (hl : L.LinksLike links links')
    (hv : links.lookup f.name = none → Option.Rel (f.Takes L.loose) (Builder.insertValue? e f)
      (Builder.insertValue? (e.refilled change values) (f.mapDefault change))) :
    Matches L.loose (Option.Rel L.EntryLike) (b.insertEntry e links f)
      (b'.insertEntry (e.refilled change values) links' (f.mapDefault change)) := by
  have hname : (f.mapDefault change).name = f.name := rfl
  have hlink := hl f.name
  unfold Builder.insertEntry
  rw [hname]
  generalize links.lookup f.name = o, links'.lookup f.name = o' at hlink hv
  cases hlink with
  | some hnamed => exact .ok (.some ⟨rfl, rfl, L.named hnamed⟩)
  | none =>
    have hvalue := hv rfl
    dsimp only
    generalize Builder.insertValue? e f = v,
      Builder.insertValue? (e.refilled change values) (f.mapDefault change) = v' at hvalue
    cases hvalue with
    | none => exact .ok .none
    | some hvalue =>
      exact (L.valueExpression_alike hr hf hvalue).bind fun _ _ hx => .ok (.some ⟨rfl, rfl, hx⟩)

/-- Inserts of like values are alike, if they keep their key or leave it alone. -/
theorem insertBody_alike (hr : b.ReadsAlike b' e) (hl : L.LinksLike links links')
    (hn : ∀ name, links.lookup name = none → name ∉ linked) {handling handling' : KeyHandling}
    (hh : handling.Like L.Named handling')
    (hv : e.InsertsLike L.loose change linked (e.refilled change values)) :
    Matches L.loose (fun sql sql' => (handling ≠ .return → L.Like sql sql') ∧ L.Body sql sql')
      (b.insertBody e links handling)
      (b'.insertBody (e.refilled change values) links' handling') := by
  unfold Builder.insertBody
  rw [Builder.insertFields_refilled, Builder.keyReturn_refilled]
  have hentries : Matches L.loose (List.Forall₂ (Option.Rel L.EntryLike))
      ((Builder.insertFields e).mapM (b.insertEntry e links))
      (((Builder.insertFields e).map (Field.mapDefault change)).mapM
        (b'.insertEntry (e.refilled change values) links')) :=
    .mapM_map fun f hf => L.insertEntry_alike hr (List.mem_of_mem_filter hf) hl fun hf' =>
      hv f hf (hn f.name hf')
  refine hentries.bind fun entries entries' h => ?_
  have hkept : List.Forall₂ L.EntryLike (entries.filterMap id) (entries'.filterMap id) :=
    List.rel_filterMap (fun _ _ h => h) h
  generalize entries.filterMap id = kept, entries'.filterMap id = kept' at hkept
  have hcolumns : kept'.map Prod.fst = kept.map Prod.fst :=
    map_eq_of_forall₂ (hkept.imp fun _ _ h => h.column.symm).flip
  have hunbound : ∀ c ∈ kept.map Prod.fst, Sql.bindings c = [] :=
    List.forall_mem_map.2 fun entry hm => by
      obtain ⟨_, _, h⟩ := exists_right_of_forall₂ hkept hm
      exact h.bindings
  have hvalues : List.Forall₂ L.Like (kept.map Prod.snd) (kept'.map Prod.snd) :=
    List.forall₂_map_left_iff.2 (List.forall₂_map_right_iff.2 (hkept.imp fun _ _ h => h.value))
  cases hkept with
  | nil => exact .error _
  | cons _ _ =>
    refine .ok ?_
    show (_ → L.Like _ (b'.dialect.insert ⟨Sql.table e.table, _, _⟩ _)) ∧
      L.Body _ (b'.dialect.insert ⟨Sql.table e.table, _, _⟩ _)
    rw [hcolumns]
    exact L.insert hvalues hunbound hh

theorem assignment_alike (hr : b.ReadsAlike b' e) (hf : f ∈ e.fields)
    (hl : L.LinksLike links links')
    (hv : links.lookup f.name = none → Option.Rel (f.Takes L.loose) (e.present? f.name)
      ((e.refilled change values).present? f.name)) :
    Matches L.loose L.Like (b.assignment e links f)
      (b'.assignment (e.refilled change values) links' (f.mapDefault change)) := by
  have hname : (f.mapDefault change).name = f.name := rfl
  have hlink := hl f.name
  unfold Builder.assignment
  rw [hname]
  have hassign : ∀ {value value' : Sql}, L.Like value value' →
      L.Like ([.target .root f.columnName, .text " = "] ++ value)
        ([.target .root f.columnName, .text " = "] ++ value') :=
    L.congruence.append (L.congruence.refl _)
  generalize links.lookup f.name = o, links'.lookup f.name = o' at hlink hv
  cases hlink with
  | some hnamed => exact .ok (hassign (L.named hnamed))
  | none =>
    have hvalue := hv rfl
    dsimp only
    generalize e.present? f.name = v, (e.refilled change values).present? f.name = v' at hvalue
    cases hvalue with
    | none => exact .ok (L.congruence.refl _)
    | some hvalue =>
      exact (L.valueExpression_alike hr hf hvalue).bind fun _ _ hx => .ok (hassign hx)

/-- The row of a key that may be linked is picked alike. -/
theorem linkedKey_alike (hl : L.LinksLike links links')
    (hn : ∀ name, links.lookup name = none → name ∉ linked)
    (hk : e.KeyLike L.loose linked (e.refilled change values)) :
    Matches L.loose L.Like (Builder.keyCondition e (Builder.keyLink? e links))
      (Builder.keyCondition (e.refilled change values)
        (Builder.keyLink? (e.refilled change values) links')) := by
  rw [Builder.keyLink?_refilled]
  refine L.keyCondition_alike ?_ fun hnone hs key hkey => hk hs key hkey (hn key.name ?_)
  · unfold Builder.keyLink?
    cases e.key? with
    | none => exact .none
    | some key => exact hl key.name
  · rwa [Builder.keyLink?, hkey] at hnone

theorem updateBody_alike (hr : b.ReadsAlike b' e) (hl : L.LinksLike links links')
    (hn : ∀ name, links.lookup name = none → name ∉ linked) {names : Option (List String)}
    (hk : e.KeyLike L.loose linked (e.refilled change values))
    (hv : e.UpdatesLike L.loose names linked (e.refilled change values)) :
    Matches L.loose L.Like (b.updateBody e names links)
      (b'.updateBody (e.refilled change values) names links') := by
  refine bind_requireKey fun key _ => ?_
  rw [Builder.updateFields_refilled]
  have hassignments : Matches L.loose (List.Forall₂ L.Like)
      ((Builder.updateFields e names).mapM (b.assignment e links))
      (((Builder.updateFields e names).map (Field.mapDefault change)).mapM
        (b'.assignment (e.refilled change values) links')) :=
    .mapM_map fun f hf =>
      L.assignment_alike hr (List.mem_of_mem_filter (List.mem_of_mem_filter hf)) hl fun hf' =>
        hv f hf (hn f.name hf')
  refine hassignments.bind fun assignments assignments' h => ?_
  have hupdate : ∀ {condition condition' : Sql}, L.Like condition condition' → L.Like
      (b.dialect.update (Sql.table e.table) [.text TableAlias.root.text] assignments condition)
      (b'.dialect.update (Sql.table e.table) [.text TableAlias.root.text] assignments'
        condition') := L.update h
  cases h with
  | nil => exact .error _
  | cons _ _ =>
    exact (L.linkedKey_alike hl hn hk).bind fun _ _ hc => .ok (hupdate hc)

theorem deleteBody_alike (hl : L.LinksLike links links')
    (hn : ∀ name, links.lookup name = none → name ∉ linked)
    (hk : e.KeyLike L.loose linked (e.refilled change values)) :
    Matches L.loose L.Like (b.deleteBody e links)
      (b'.deleteBody (e.refilled change values) links') :=
  (L.linkedKey_alike hl hn hk).bind fun _ _ hc => .ok (L.delete hc)

end Rows

/-! ## Aggregates -/

section Aggregates

variable (hr : b.ReadsAlike b' e) {a a' : Aggregation}
include hr

/-- What is read of a column, and no more of it looked at, is the same. -/
theorem bind_operand_eq {α : Type} {name : String} {k : Target → Sql → Checked α}
    (hk : ∀ target operand, k (target.mapDefault change) operand = k target operand) :
    (ofFilter ((e.refilled change values).resolve name) >>= fun target =>
        b'.operand target >>= k target) =
      ofFilter (e.resolve name) >>= fun target => b.operand target >>= k target := by
  have hmatch : Matches False Eq
      (ofFilter (e.resolve name) >>= fun target => b.operand target >>= k target)
      (ofFilter ((e.refilled change values).resolve name) >>= fun target =>
        b'.operand target >>= k target) := by
    refine bind_resolve fun target ht => ?_
    rw [operand_eq hr ht]
    exact .bind_same fun operand _ => hk target operand ▸ .refl fun _ _ => rfl
  exact (hmatch.agree not_false).eq.symm

theorem groupTerm_eq (name : String) :
    b'.groupTerm (e.refilled change values) name = b.groupTerm e name :=
  bind_operand_eq hr fun target operand => by rw [target.columnName_mapDefault]

theorem rollupItems_eq (rollup : Option String) :
    b'.rollupItems (e.refilled change values) rollup = b.rollupItems e rollup := by
  cases rollup with
  | none => rfl
  | some name => exact bind_operand_eq hr fun _ _ => rfl

/-- Calls of one function on one column. -/
structure CallLike (change : Option Json → Option Json) (call call' : AggregateCall) : Prop where
  column : Varies L.loose AggregateColumn.Alike call.column call'.column
  sql : call.sql = call'.sql
  target : call'.target = call.target.map (Target.mapDefault change)

theorem aggregateCall_alike {c c' : AggregateColumn}
    (hc : Varies L.loose AggregateColumn.Alike c c') :
    Matches L.loose (L.CallLike change) (b.aggregateCall e c)
      (b'.aggregateCall (e.refilled change values) c') := by
  unfold Builder.aggregateCall
  rw [← hc.related.field, ← hc.related.function]
  cases c.field with
  | none =>
    dsimp only
    split
    · exact .ok ⟨hc, rfl, rfl⟩
    · exact .error _
  | some name =>
    refine bind_resolve fun target ht => ?_
    rw [operand_eq hr ht]
    exact .bind_same fun _ _ => .ok ⟨hc, rfl, rfl⟩

omit hr in
/-- The result of a call is compared in both aggregates, or in none. -/
theorem havingCondition_alike {call call' : AggregateCall} (hc : L.CallLike change call call') :
    Matches L.loose (Option.Rel L.Like) (Builder.havingCondition call)
      (Builder.havingCondition call') := by
  have htarget : call'.target.map Target.dataType = call.target.map Target.dataType := by
    rw [hc.target, Option.map_map]
    exact congrArg (Option.map · call.target) (funext (Target.dataType_mapDefault change))
  have htype : Builder.havingType call' = Builder.havingType call := by
    unfold Builder.havingType
    rw [← hc.column.related.function, htarget]
  have halias : call'.column.aliasOrDefault = call.column.aliasOrDefault := by
    unfold AggregateColumn.aliasOrDefault
    rw [hc.column.related.label]
  have hhaving := having?_varies hc.column
  unfold Builder.havingCondition
  rw [htype, halias, ← hc.sql]
  generalize call.column.having? = o, call'.column.having? = o' at hhaving
  cases hhaving with
  | none => exact .ok .none
  | @some p p' hp =>
    obtain ⟨operator, v⟩ := p
    obtain ⟨operator', v'⟩ := p'
    obtain ⟨rfl, hv⟩ := hp
    refine .bind_same fun comparison _ => (L.typed_alike hv _ _).bind fun x x' hx => .ok (.some ?_)
    exact L.congruence.append (L.congruence.refl _) (L.congruence.cons _ (L.like_bound hx _))

/-- Sources of an aggregate that let through rows for searches alike. -/
inductive SourceLike (e e' : Entity) : AggregateSource → AggregateSource → Prop where
  | «example» (combinator : Combinator) : e.SearchesLike L.loose e' →
      SourceLike e e' (.example combinator) (.example combinator)
  | listing {l l' : Listing} : Varies L.loose (Listing.Alike e) l l' →
      SourceLike e e' (.listing l) (.listing l')

theorem sourceClause_alike {source source' : AggregateSource}
    (hs : L.SourceLike e (e.refilled change values) source source') :
    Matches L.loose (Option.Rel L.Like) (b.sourceClause e source)
      (b'.sourceClause (e.refilled change values) source') := by
  cases hs with
  | «example» combinator he => exact L.exampleClause_alike hr combinator he
  | listing hl => exact L.filterClause_alike hr hl

omit hr in
/-- An item looks at the text of its call and at no value. -/
theorem callItems_eq (ha : a.Alike a') {calls calls' : List AggregateCall}
    (hc : List.Forall₂ (L.CallLike change) calls calls') :
    Builder.callItems a' calls' = Builder.callItems a calls := by
  have hsql : calls'.map AggregateCall.sql = calls.map AggregateCall.sql :=
    map_eq_of_forall₂ (hc.imp fun _ _ h => h.sql.symm).flip
  have hitems : ∀ (a : Aggregation) (calls : List AggregateCall), Builder.callItems a calls =
      ((calls.map AggregateCall.sql).zip a.resolvedAliases).map fun p => .labelled p.1 p.2 := by
    intro a calls
    rw [List.zip_map_left, List.map_map]
    rfl
  rw [hitems, hitems, hsql, resolvedAliases_alike ha]

theorem aggregateBody_alike {source source' : AggregateSource}
    (ha : Varies L.loose Aggregation.Alike a a')
    (hs : L.SourceLike e (e.refilled change values) source source') :
    Matches L.loose L.Like (b.aggregateBody e a source)
      (b'.aggregateBody (e.refilled change values) a' source') := by
  have hcolumns : List.Forall₂ (Varies L.loose AggregateColumn.Alike) a.columns a'.columns :=
    Varies.forall₂ ha.related.columns fun hs => by rw [ha.same hs]
  have hempty : a'.columns.isEmpty = a.columns.isEmpty := by
    have hmatch := ha.related.columns
    generalize a.columns = columns, a'.columns = columns' at hmatch
    cases hmatch with
    | nil | cons _ _ => rfl
  have hgroups : (Builder.groupNames a').mapM (b'.groupTerm (e.refilled change values)) =
      (Builder.groupNames a).mapM (b.groupTerm e) := by
    rw [← groupNames_alike ha.related]
    exact mapM_congr fun name _ => groupTerm_eq hr name
  unfold Builder.aggregateBody
  rw [hgroups, ← ha.related.rollup, rollupItems_eq hr, Builder.fromClause_refilled, hempty,
    ← ha.related.groupBy]
  cases a.groupBy.isEmpty && a.rollup.isNone && a.columns.isEmpty with
  | true => exact .error _
  | false =>
    refine .bind_same fun groups _ => .bind_same fun rollup _ =>
      (Matches.mapM (hcolumns.imp fun _ _ hc => L.aggregateCall_alike hr hc)).bind
        fun calls calls' hcalls => (L.sourceClause_alike hr hs).bind fun filter filter' hf =>
          (Matches.mapM (hcalls.imp fun _ _ hc => L.havingCondition_alike hc)).ofFilter.bind
            fun having having' hh => .bind_same fun rows _ => ?_
    rw [L.callItems_eq ha.related hcalls]
    have hkept : List.Forall₂ L.Like (having.filterMap id) (having'.filterMap id) :=
      List.rel_filterMap (fun _ _ h => h) hh
    exact .ok (L.congruence.append (L.congruence.append (L.congruence.append (L.congruence.refl _)
      (L.congruence.whereSuffix hf)) (L.congruence.refl _)) (L.congruence.havingSuffix hkept))

end Aggregates

/-! ## Batches -/

/-- Steps that do the same to entities with the same metadata, and write like values to what they
do not link. -/
inductive StepLike : BatchStep → BatchStep → Prop where
  | mk {step : BatchStep} (change : Option Json → Option Json) (values : Properties) :
      b.ReadsAlike b' step.entity →
      (step.operation = .insert → step.entity.InsertsLike L.loose change
        (step.links.map KeyLink.field) (step.entity.refilled change values)) →
      (step.operation = .update → step.entity.UpdatesLike L.loose none
        (step.links.map KeyLink.field) (step.entity.refilled change values)) →
      (step.operation ≠ .insert → step.entity.KeyLike L.loose (step.links.map KeyLink.field)
        (step.entity.refilled change values)) →
      StepLike step { step with entity := step.entity.refilled change values }

section Batches

variable {steps steps' : List BatchStep} {step step' : BatchStep} {i : Nat}

theorem StepLike.capturesKey (h : L.StepLike step step') :
    step'.capturesKey = step.capturesKey := by
  cases h with
  | mk change values _ _ _ _ => exact step.capturesKey_refilled change values

/-- The keys of the same steps are kept. -/
theorem keyVariables_like
    (h : List.Forall₂ (fun step step' => step'.capturesKey = step.capturesKey) steps steps') :
    KeyVariables.Like L.Named (b.keyVariables steps) (b'.keyVariables steps') := by
  have hfrom : ∀ n count : Nat, KeyVariables.Like L.Named
      (Builder.keyVariablesFrom b.dialect n count steps)
      (Builder.keyVariablesFrom b'.dialect n count steps') := by
    induction h with
    | nil => exact fun _ _ => .nil
    | @cons step step' _ _ hstep _ ih =>
      intro n count
      rw [Builder.keyVariablesFrom, Builder.keyVariablesFrom, hstep]
      split
      · exact .cons ⟨rfl, L.batchVariable count⟩ (ih _ _)
      · exact ih _ _
  exact hfrom 0 0

theorem lookup_like {keyed keyed' : KeyVariables} (h : KeyVariables.Like L.Named keyed keyed')
    (i : Nat) : Option.Rel L.Named (keyed.lookup i) (keyed'.lookup i) := by
  induction h with
  | nil => exact .none
  | @cons p p' _ _ hp _ ih =>
    obtain ⟨n, name⟩ := p
    obtain ⟨n', name'⟩ := p'
    obtain ⟨rfl, hname⟩ := hp
    rw [List.lookup_cons, List.lookup_cons]
    cases i == n with
    | true => exact .some hname
    | false => exact ih

/-- Links lead back to the same steps. -/
theorem checkLinks_eq (h : List.Forall₂ L.StepLike steps steps') {keyed keyed' : KeyVariables}
    (hk : KeyVariables.Like L.Named keyed keyed') :
    Builder.checkLinks steps' keyed' = Builder.checkLinks steps keyed := by
  have hlink : Builder.checkLink steps' keyed' = Builder.checkLink steps keyed := by
    funext i link
    have hkept : (keyed'.lookup link.step).isSome = (keyed.lookup link.step).isSome := by
      have hl := L.lookup_like hk link.step
      generalize keyed.lookup link.step = o, keyed'.lookup link.step = o' at hl
      cases hl with
      | none | some _ => rfl
    have hsource := getElem?_forall₂ h link.step
    unfold Builder.checkLink
    rw [hkept]
    generalize steps[link.step]? = source, steps'[link.step]? = source' at hsource
    cases hsource with
    | none => rfl
    | some hs =>
      cases hs with
      | mk change values _ _ _ _ =>
        dsimp only
        rw [Entity.key?_refilled]
        cases Entity.key? _ <;> rfl
  unfold Builder.checkLinks
  rw [hlink]
  refine (forM_congr_forall₂ ((zipIdx_forall₂ h 0).imp fun p p' hp => ?_)).symm
  obtain ⟨step, i⟩ := p
  obtain ⟨step', i'⟩ := p'
  obtain ⟨hs, rfl⟩ := hp
  cases hs with
  | mk _ _ _ _ _ _ => rfl

theorem addLink_alike {keyed keyed' : KeyVariables} (hk : KeyVariables.Like L.Named keyed keyed')
    {links links' : Links} (hl : L.LinksLike links links') (link : KeyLink) :
    Matches L.loose L.LinksLike (Builder.addLink keyed i e links link)
      (Builder.addLink keyed' i (e.refilled change values) links' link) := by
  have hlookup := L.lookup_like hk link.step
  unfold Builder.addLink
  rw [Entity.field?_refilled]
  cases e.field? link.field with
  | none => exact .error _
  | some f =>
    dsimp only [Option.map_some]
    generalize keyed.lookup link.step = o, keyed'.lookup link.step = o' at hlookup
    cases hlookup with
    | none => exact .ok hl
    | some hname =>
      refine .ok fun name => ?_
      rw [List.lookup_cons, List.lookup_cons]
      cases name == link.field with
      | true => exact .some hname
      | false => exact hl name

/-- **A step keeps its key or leaves it alone**, and never looks at the value of a field that it
links. -/
theorem stepBody_alike (h : L.StepLike step step') {keyed' : KeyVariables}
    (hk : KeyVariables.Like L.Named (b.keyVariables steps) keyed')
    (hback : ∀ link ∈ step.links, Builder.LeadsBack steps i link) :
    Matches L.loose L.Like (b.stepBody (b.keyVariables steps) step i)
      (b'.stepBody keyed' step' i) := by
  cases h with
  | mk change values hr hinsert hupdate hkey =>
    unfold Builder.stepBody
    dsimp only
    rw [Entity.check_refilled]
    have hlinks : Matches L.loose L.LinksLike
        (step.links.foldlM (Builder.addLink (b.keyVariables steps) i step.entity) [])
        (step.links.foldlM
          (Builder.addLink keyed' i (step.entity.refilled change values)) []) :=
      .foldlM (fun link _ _ _ hl => L.addLink_alike hk hl link) fun _ => .none
    refine .bind_same fun _ _ => hlinks.ofEntity.with_ok.bind fun links links' ⟨hl, hok, _⟩ => ?_
    -- a field whose variable is not found has no link
    obtain rfl := Builder.eq_stepLinks step hback hok
    have hn : ∀ name, (b.stepLinks steps step).lookup name = none →
        name ∉ step.links.map KeyLink.field := by
      intro name hnone hm
      obtain ⟨link, hlink, rfl⟩ := List.mem_map.1 hm
      exact Builder.lookup_stepLinks_eq_none.1 hnone link hlink rfl
    cases hoperation : step.operation with
    | insert =>
      have hkept := L.lookup_like hk i
      dsimp only
      generalize (b.keyVariables steps).lookup i = o, keyed'.lookup i = o' at hkept
      cases hkept with
      | none =>
        exact (L.insertBody_alike hr hl hn .omit (hinsert hoperation)).imp fun _ _ h =>
          h.1 (by simp)
      | some hname =>
        exact (L.insertBody_alike hr hl hn (.capture hname) (hinsert hoperation)).imp fun _ _ h =>
          h.1 (by simp)
    | update => exact L.updateBody_alike hr hl hn (hkey (by simp [hoperation])) (hupdate hoperation)
    | delete => exact L.deleteBody_alike hl hn (hkey (by simp [hoperation]))

theorem batchBody_alike (h : List.Forall₂ L.StepLike steps steps') :
    Matches L.loose L.Body (b.batchBody steps) (b'.batchBody steps') := by
  have hk := L.keyVariables_like (h.imp fun _ _ => StepLike.capturesKey L)
  have hfragments : Builder.LinksBack steps → Matches L.loose (List.Forall₂ L.Like)
      (steps.zipIdx.mapM fun p => b.stepBody (b.keyVariables steps) p.1 p.2)
      (steps'.zipIdx.mapM fun p => b'.stepBody (b'.keyVariables steps') p.1 p.2) := by
    intro hback
    refine .mapM (((List.forall₂_and_left _ _).2
      ⟨fun _ hp => hp, zipIdx_forall₂ h 0⟩).imp fun p p' hp => ?_)
    obtain ⟨hm, hstep, hi⟩ := hp
    rw [← hi]
    exact L.stepBody_alike hstep hk (hback p.2 p.1 (List.mem_zipIdx_iff_getElem?.1 hm))
  have hchecked := L.checkLinks_eq h hk
  cases h with
  | nil => exact .error _
  | cons _ _ =>
    rw [Builder.batchBody_cons, Builder.batchBody_cons, hchecked]
    refine .bind_same fun _ hlinks => ?_
    exact (hfragments (Builder.checkLinks_eq_ok.1 (ofEntity_eq_ok.1 hlinks))).bind fun _ _ hf =>
      .ok (L.batch hf hk)

end Batches

end Likeness

/-! ## Requests -/

/-- Requests for the same thing about entities with the same metadata, which look at like values. -/
inductive Request.Paired {b b' : Builder} (L : Likeness b b') : Request → Request → Prop where
  | select {e : Entity} (change : Option Json → Option Json) (values : Properties)
      {l l' : Option Listing} : b.ReadsAlike b' e →
      Option.Rel (Varies L.loose (Listing.Alike e)) l l' →
      Paired L (.select e l) (.select (e.refilled change values) l')
  | count {e : Entity} (change : Option Json → Option Json) (values : Properties)
      {l l' : Option Listing} : b.ReadsAlike b' e →
      Option.Rel (Varies L.loose (Listing.Alike e)) l l' →
      Paired L (.count e l) (.count (e.refilled change values) l')
  | selectByKey {e : Entity} (change : Option Json → Option Json) (values : Properties) :
      b.ReadsAlike b' e → e.KeyLike L.loose [] (e.refilled change values) →
      Paired L (.selectByKey e) (.selectByKey (e.refilled change values))
  | selectByExample {e : Entity} (change : Option Json → Option Json) (values : Properties)
      (combinator : Combinator) : b.ReadsAlike b' e →
      e.SearchesLike L.loose (e.refilled change values) →
      Paired L (.selectByExample e combinator)
        (.selectByExample (e.refilled change values) combinator)
  | insert {e : Entity} (change : Option Json → Option Json) (values : Properties) :
      b.ReadsAlike b' e → e.InsertsLike L.loose change [] (e.refilled change values) →
      Paired L (.insert e) (.insert (e.refilled change values))
  | update {e : Entity} (change : Option Json → Option Json) (values : Properties) :
      b.ReadsAlike b' e → e.KeyLike L.loose [] (e.refilled change values) →
      e.UpdatesLike L.loose none [] (e.refilled change values) →
      Paired L (.update e) (.update (e.refilled change values))
  | updateProperties {e : Entity} (change : Option Json → Option Json) (values : Properties)
      (names : List String) : b.ReadsAlike b' e →
      e.KeyLike L.loose [] (e.refilled change values) →
      e.UpdatesLike L.loose (some names) [] (e.refilled change values) →
      Paired L (.updateProperties e names) (.updateProperties (e.refilled change values) names)
  | delete {e : Entity} (change : Option Json → Option Json) (values : Properties) :
      e.KeyLike L.loose [] (e.refilled change values) →
      Paired L (.delete e) (.delete (e.refilled change values))
  | aggregate {e : Entity} (change : Option Json → Option Json) (values : Properties)
      {a a' : Aggregation} {source source' : AggregateSource} : b.ReadsAlike b' e →
      Varies L.loose Aggregation.Alike a a' →
      L.SourceLike e (e.refilled change values) source source' →
      Paired L (.aggregate e a source) (.aggregate (e.refilled change values) a' source')
  | batch {steps steps' : List BatchStep} : List.Forall₂ L.StepLike steps steps' →
      Paired L (.batch steps) (.batch steps')

namespace Likeness

variable {b b' : Builder} (L : Likeness b b') {e : Entity} {change : Option Json → Option Json}
  {values : Properties}

theorem bodyAbout_alike {body body' : Checked Sql} (h : Matches L.loose L.Body body body') :
    Matches L.loose L.Body (Builder.bodyAbout e body)
      (Builder.bodyAbout (e.refilled change values) body') := by
  unfold Builder.bodyAbout
  rw [Entity.check_refilled]
  exact .bind_same fun _ _ => h

/-- **Paired requests have like bodies**, or are refused for the same cause. -/
theorem checkedBody_alike {r r' : Request} (h : Request.Paired L r r') :
    Matches L.loose L.Body (b.checkedBody r) (b'.checkedBody r') := by
  have habout : ∀ {e : Entity} {change : Option Json → Option Json} {values : Properties}
      {body body' : Checked Sql}, Matches L.loose L.Like body body' →
      Matches L.loose L.Body (Builder.bodyAbout e body)
        (Builder.bodyAbout (e.refilled change values) body') := fun h =>
    L.bodyAbout_alike (h.imp fun _ _ => L.body)
  have hlinks : L.LinksLike [] [] := fun _ => .none
  have hnone : ∀ name : String, List.lookup name ([] : Links) = none → name ∉ ([] : List String) :=
    fun _ _ => List.not_mem_nil
  cases h with
  | select change values hr hl => exact habout (L.selectBody_alike hr hl)
  | count change values hr hl => exact habout (L.countBody_alike hr hl)
  | selectByKey change values hr hk => exact habout (L.selectByKeyBody_alike hr hk)
  | selectByExample change values combinator hr he =>
    exact habout (L.selectByExampleBody_alike hr combinator he)
  | insert change values hr hv =>
    exact L.bodyAbout_alike ((L.insertBody_alike hr hlinks hnone .return hv).imp fun _ _ h => h.2)
  | update change values hr hk hv => exact habout (L.updateBody_alike hr hlinks hnone hk hv)
  | updateProperties change values names hr hk hv =>
    exact habout (L.updateBody_alike hr hlinks hnone hk hv)
  | delete change values hk => exact habout (L.deleteBody_alike hlinks hnone hk)
  | aggregate change values hr ha hs => exact habout (L.aggregateBody_alike hr ha hs)
  | batch hs => exact L.batchBody_alike hs

end Likeness

end RecordSql
