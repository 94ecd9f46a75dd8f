import Mathlib.Data.List.Forall2
import RecordSql.Builder.Request

/-!
# What a success says

Every builder is a chain of steps, each of which may refuse. Here a successful run is taken apart,
once for each builder: what its steps gave, and how the result was put together from that.

Nothing is said about the parts themselves. The statements about SQL build on these equivalences
and never unfold a builder again.
-/

namespace RecordSql

/-! ## Results -/

namespace Checked

variable {ε ε' α β : Type}

theorem bind_eq_ok {x : Except ε α} {f : α → Except ε β} {b : β} :
    (x >>= f) = .ok b ↔ ∃ a, x = .ok a ∧ f a = .ok b := by
  cases x with
  | error fault => simp [bind, Except.bind]
  | ok a => simp [bind, Except.bind]

/-- A check stands before what comes after it. -/
theorem seq_eq_ok {x : Except ε Unit} {y : Except ε β} {b : β} :
    (x >>= fun _ => y) = .ok b ↔ x = .ok () ∧ y = .ok b := by
  rw [bind_eq_ok]
  constructor
  · rintro ⟨_, hx, hy⟩
    exact ⟨hx, hy⟩
  · rintro ⟨hx, hy⟩
    exact ⟨(), hx, hy⟩

theorem pure_eq_ok {a b : α} : (pure a : Except ε α) = .ok b ↔ a = b := by
  simp [pure, Except.pure]

theorem map_eq_ok {x : Except ε α} {f : α → β} {b : β} :
    x.map f = .ok b ↔ ∃ a, x = .ok a ∧ f a = b := by
  cases x with
  | error fault => simp [Except.map]
  | ok a => simp [Except.map]

theorem map_eq_error {x : Except ε α} {f : α → β} {fault : ε} :
    x.map f = .error fault ↔ x = .error fault := by
  cases x with
  | error fault => simp [Except.map]
  | ok a => simp [Except.map]

theorem mapError_eq_ok {x : Except ε α} {f : ε → ε'} {a : α} :
    x.mapError f = .ok a ↔ x = .ok a := by
  cases x with
  | error fault => simp [Except.mapError]
  | ok a => simp [Except.mapError]

theorem mapError_eq_error {x : Except ε α} {f : ε → ε'} {fault : ε'} :
    x.mapError f = .error fault ↔ ∃ cause, x = .error cause ∧ f cause = fault := by
  cases x with
  | error cause => simp [Except.mapError]
  | ok a => simp [Except.mapError]

theorem ofEntity_eq_ok {x : Except EntityFault α} {a : α} : ofEntity x = .ok a ↔ x = .ok a := by
  cases x with
  | error fault => simp [ofEntity]
  | ok a => simp [ofEntity]

theorem ofFilter_eq_ok {x : Except FilterFault α} {a : α} : ofFilter x = .ok a ↔ x = .ok a := by
  cases x with
  | error fault => simp [ofFilter]
  | ok a => simp [ofFilter]

theorem ofFilter_eq_error {x : Except FilterFault α} {error : QueryError} :
    ofFilter x = .error error ↔ ∃ fault, x = .error fault ∧ .invalidFilter fault = error := by
  cases x with
  | error fault => simp [ofFilter]
  | ok a => simp [ofFilter]

/-- A list of results succeeds when every one of them does. -/
theorem mapM_eq_ok {f : α → Except ε β} {xs : List α} {ys : List β} :
    xs.mapM f = .ok ys ↔ List.Forall₂ (fun x y => f x = .ok y) xs ys := by
  induction xs generalizing ys with
  | nil => rw [List.mapM_nil, pure_eq_ok, List.forall₂_nil_left_iff, eq_comm]
  | cons x xs ih =>
    simp only [List.mapM_cons, bind_eq_ok, pure_eq_ok]
    -- both sides take the list apart at its first member
    constructor
    · rintro ⟨y, hy, ys, hys, rfl⟩
      exact .cons hy (ih.1 hys)
    · intro h
      cases h with
      | cons hy hys => exact ⟨_, hy, _, ih.2 hys, rfl⟩

theorem forM_eq_ok {f : α → Except ε Unit} {xs : List α} :
    xs.forM f = .ok () ↔ ∀ x ∈ xs, f x = .ok () := by
  induction xs with
  | nil => simp [pure, Except.pure]
  | cons x xs ih =>
    rw [List.forM, seq_eq_ok, List.forall_mem_cons, ← ih]

/-- In two lists that match, a member on the right has its partner on the left. -/
theorem exists_left_of_forall₂ {R : α → β → Prop} {xs : List α} {ys : List β}
    (h : List.Forall₂ R xs ys) {y : β} (hy : y ∈ ys) : ∃ x ∈ xs, R x y := by
  induction h with
  | nil => exact absurd hy (by simp)
  | @cons x y' xs ys hx _ ih =>
    rcases List.mem_cons.1 hy with he | hm
    · exact ⟨x, List.mem_cons_self, he ▸ hx⟩
    · obtain ⟨z, hz, hr⟩ := ih hm
      exact ⟨z, List.mem_cons_of_mem _ hz, hr⟩

theorem exists_right_of_forall₂ {R : α → β → Prop} {xs : List α} {ys : List β}
    (h : List.Forall₂ R xs ys) {x : α} (hx : x ∈ xs) : ∃ y ∈ ys, R x y :=
  exists_left_of_forall₂ (R := fun y x => R x y) h.flip hx

/-- When partners match by way of something, their lists match by way of a list. -/
theorem exists_between_of_forall₂ {γ : Type} {R : α → β → Prop} {P : α → γ → Prop}
    {Q : β → γ → Prop} {xs : List α} {ys : List β} (hr : ∀ x y, R x y → ∃ z, P x z ∧ Q y z)
    (h : List.Forall₂ R xs ys) : ∃ zs, List.Forall₂ P xs zs ∧ List.Forall₂ Q ys zs := by
  induction h with
  | nil => exact ⟨[], .nil, .nil⟩
  | cons hxy _ ih =>
    obtain ⟨z, hp, hq⟩ := hr _ _ hxy
    obtain ⟨zs, hps, hqs⟩ := ih
    exact ⟨z :: zs, .cons hp hps, .cons hq hqs⟩

/-- In two lists that match, the members in one place are partners. -/
theorem related_of_getElem? {R : α → β → Prop} {xs : List α} {ys : List β} {i : Nat} {x : α} {y : β}
    (h : List.Forall₂ R xs ys) (hx : xs[i]? = some x) (hy : ys[i]? = some y) : R x y := by
  obtain ⟨hi, rfl⟩ := List.getElem?_eq_some_iff.1 hx
  obtain ⟨hj, rfl⟩ := List.getElem?_eq_some_iff.1 hy
  exact h.get hi hj

/-- What a list of results holds comes from one of its members. -/
theorem exists_of_mem_mapM {f : α → Except ε β} {xs : List α} {ys : List β}
    (h : xs.mapM f = .ok ys) {y : β} (hy : y ∈ ys) : ∃ x ∈ xs, f x = .ok y :=
  exists_left_of_forall₂ (mapM_eq_ok.1 h) hy

/-- Every member of a list of results gives something that the list holds. -/
theorem exists_of_mapM_mem {f : α → Except ε β} {xs : List α} {ys : List β}
    (h : xs.mapM f = .ok ys) {x : α} (hx : x ∈ xs) : ∃ y ∈ ys, f x = .ok y :=
  exists_right_of_forall₂ (mapM_eq_ok.1 h) hx

/-- What is kept of a list of optional results comes from one of its members. -/
theorem exists_of_mem_filterMap_id {f : α → Except ε (Option β)} {xs : List α}
    {ys : List (Option β)} (h : xs.mapM f = .ok ys) {y : β} (hy : y ∈ ys.filterMap id) :
    ∃ x ∈ xs, f x = .ok (some y) := by
  obtain ⟨o, ho, hoy⟩ := List.mem_filterMap.1 hy
  obtain ⟨x, hx, hf⟩ := exists_of_mem_mapM h ho
  exact ⟨x, hx, hf.trans (congrArg Except.ok hoy)⟩

end Checked

open Checked

variable {b : Builder} {e : Entity} {s : Statement} {sql : Sql}

/-! ## Finishing a statement -/

namespace Dialect

/-- The line in front of a statement that needs a key. -/
def keyOpening (keys : EncryptionKeys) : String :=
  let key := Dialect.sqlServer.quote keys.keyName
  let certificate := Dialect.sqlServer.quote keys.certificateName
  s!"OPEN SYMMETRIC KEY {key} DECRYPTION BY CERTIFICATE {certificate};\n"

/-- The text behind a statement that needs a key. -/
def keyClosing (keys : EncryptionKeys) : String :=
  s!";\nCLOSE SYMMETRIC KEY {Dialect.sqlServer.quote keys.keyName};"

end Dialect

namespace Builder

/-- An encrypted field needs a dialect that encrypts and keys to do it with. -/
theorem keysFor_eq_ok {f : Field} {keys : EncryptionKeys} :
    b.keysFor f = .ok keys ↔ b.dialect = .sqlServer ∧ b.config.encryption = some keys := by
  unfold keysFor
  cases hd : b.dialect with
  | oracle => simp [Dialect.supportsEncryption]
  | sqlServer =>
    cases hk : b.config.encryption with
    | none => simp [Dialect.supportsEncryption]
    | some k => simp [Dialect.supportsEncryption]

/-- A field is read as its column, or decrypted around its column when it is encrypted. -/
theorem readField_eq_ok {f : Field} :
    b.readField f = .ok sql ↔
      (f.dataType ≠ .encrypted ∧ sql = [.column .root f.columnName]) ∨
      (f.dataType = .encrypted ∧ b.dialect = .sqlServer ∧ b.config.encryption.isSome ∧
        sql = [.keyed Dialect.decryptOpening, .column .root f.columnName,
          .text Dialect.encryptionClosing]) := by
  unfold readField
  by_cases hf : f.dataType = .encrypted
  · simp only [hf, if_true, bind_eq_ok, keysFor_eq_ok, ne_eq, not_true_eq_false, false_and,
      false_or, true_and]
    constructor
    · rintro ⟨keys, ⟨hd, hk⟩, h⟩
      rw [hd] at h
      -- the key has to be there, though the text of a decryption does not name it
      injection h with h
      exact ⟨hd, by rw [hk]; rfl, h.symm⟩
    · rintro ⟨hd, hk, rfl⟩
      obtain ⟨keys, hk⟩ := Option.isSome_iff_exists.1 hk
      exact ⟨keys, ⟨hd, hk⟩, by rw [hd]; rfl⟩
  · simp only [hf, if_false, Except.ok.injEq, ne_eq, not_false_eq_true, true_and, false_and,
      or_false]
    exact eq_comm

/-- A statement is finished as it is, or between the opening and the closing of its key. -/
theorem finish_eq_ok :
    b.finish sql = .ok s ↔
      (sql.needsKey = false ∧ ⟨sql, b.style⟩ = s) ∨
      (sql.needsKey = true ∧ ∃ keys, b.config.encryption = some keys ∧
        ∃ wrapped, b.dialect.withKeys sql keys = .ok wrapped ∧ ⟨wrapped, b.style⟩ = s) := by
  unfold finish
  cases hn : sql.needsKey with
  | false => simp
  | true =>
    cases hk : b.config.encryption with
    | none => simp
    | some keys => simp only [if_true, bind_eq_ok, pure_eq_ok]; simp

/-- A statement is finished as it is, or on SQL Server between the opening and the closing of the
key of the settings. -/
theorem finish_cases (h : b.finish sql = .ok s) :
    (sql.needsKey = false ∧ s = ⟨sql, b.style⟩) ∨
      (sql.needsKey = true ∧ b.dialect = .sqlServer ∧ ∃ keys, b.config.encryption = some keys ∧
        s = ⟨.text (Dialect.keyOpening keys) :: sql.withoutSemicolons ++
          [.text (Dialect.keyClosing keys)], b.style⟩) := by
  rcases finish_eq_ok.1 h with ⟨hn, rfl⟩ | ⟨hn, keys, hkeys, wrapped, hwrapped, rfl⟩
  · exact .inl ⟨hn, rfl⟩
  · cases hd : b.dialect with
    | oracle =>
      rw [hd] at hwrapped
      exact absurd hwrapped (by simp [Dialect.withKeys])
    | sqlServer =>
      rw [hd] at hwrapped
      obtain rfl := Except.ok.inj hwrapped
      exact .inr ⟨hn, rfl, keys, hkeys, rfl⟩

theorem build_eq_ok {body : Checked Sql} :
    b.build e body = .ok s ↔
      e.check = .ok () ∧ ∃ sql, body = .ok sql ∧ b.finish sql = .ok s := by
  unfold build
  rw [seq_eq_ok, ofEntity_eq_ok, bind_eq_ok]

end Builder

/-! ## Names -/

namespace Entity

theorem resolve_eq_ok {name : String} {target : Target} :
    e.resolve name = .ok target ↔ e.resolve? name = some target := by
  unfold resolve
  cases e.resolve? name with
  | none => simp
  | some target' => simp

theorem requireKey_eq_ok {key : Field} : e.requireKey = .ok key ↔ e.key? = some key := by
  unfold requireKey
  cases e.key? with
  | none => simp
  | some key' => simp

theorem requireKeyValue_eq_ok {p : Field × Json} :
    e.requireKeyValue = .ok p ↔ e.key? = some p.1 ∧ e.present? p.1.name = some p.2 := by
  unfold requireKeyValue
  simp only [bind_eq_ok, requireKey_eq_ok]
  constructor
  · rintro ⟨key, hk, h⟩
    cases hp : e.present? key.name with
    | none => rw [hp] at h; exact absurd h (by simp)
    | some json =>
      rw [hp, Except.ok.injEq] at h
      subst h
      exact ⟨hk, hp⟩
  · rintro ⟨hk, hp⟩
    exact ⟨p.1, hk, by rw [hp]⟩

/-- The local side of a join is the field itself, or what the name it gives stands for. -/
theorem joinSource_eq_ok {t : JoinedTable} {target : Target} :
    e.joinSource t = .ok target ↔
      (t.join.localColumn = none ∧ target = .field t.field) ∨
      ∃ name, t.join.localColumn = some name ∧
        e.resolveWithin? (e.joinedTables.take t.index) name = some target := by
  unfold joinSource
  cases t.join.localColumn with
  | none => simp [eq_comm]
  | some name =>
    cases h : e.resolveWithin? (e.joinedTables.take t.index) name with
    | none => simp [h]
    | some target' => simp [h]

end Entity

/-! ## Typed conditions -/

namespace Predicate

variable {type : DataType}

theorem typedBound_eq_ok {text : Option String} {value : Option Value} :
    typedBound type text = .ok value ↔
      (text = none ∧ none = value) ∨
      ∃ t v, text = some t ∧ typed type t = .ok v ∧ some v = value := by
  cases text with
  | none => simp [typedBound]
  | some t => simp [typedBound, map_eq_ok]

theorem typedItems_eq_ok {items : List String} {values : List Value} :
    typedItems type items = .ok values ↔
      List.Forall₂ (fun text value => typed type text = .ok value) items values := by
  induction items generalizing values with
  | nil => rw [typedItems, Except.ok.injEq, List.forall₂_nil_left_iff, eq_comm]
  | cons text rest ih =>
    simp only [typedItems, bind_eq_ok, pure_eq_ok]
    constructor
    · intro h
      obtain ⟨value, hv, values, hvs, rfl⟩ := h
      exact .cons hv (ih.1 hvs)
    · intro h
      cases h with
      | cons hv hvs => exact ⟨_, hv, _, ih.2 hvs, rfl⟩

/-- A range has a bound, and both bounds that it has are values. -/
theorem coerce_range_eq_ok {lower upper : Option String} {c : Condition} :
    (range lower upper).coerce type = .ok c ↔
      (lower.isSome ∨ upper.isSome) ∧ ∃ l, typedBound type lower = .ok l ∧
        ∃ u, typedBound type upper = .ok u ∧ .range l u = c := by
  cases lower with
  | none =>
    cases upper with
    | none => simp [coerce]
    | some u => simp only [coerce, bind_eq_ok, pure_eq_ok]; simp
  | some l => simp only [coerce, bind_eq_ok, pure_eq_ok]; simp

/-- The condition that a predicate becomes when its values are given a type. -/
inductive Types (type : DataType) : Predicate → Condition → Prop where
  | isNull : Types type .isNull .isNull
  | isNotNull : Types type .isNotNull .isNotNull
  | not {p : Predicate} {c : Condition} : Types type p c → Types type (.not p) (.not c)
  | atLeast {text : String} {value : Value} : typed type text = .ok value →
      Types type (.range (some text) none) (.range (some value) none)
  | atMost {text : String} {value : Value} : typed type text = .ok value →
      Types type (.range none (some text)) (.range none (some value))
  | between {low high : String} {l u : Value} : typed type low = .ok l → typed type high = .ok u →
      Types type (.range (some low) (some high)) (.range (some l) (some u))
  | list {items : List String} {values : List Value} :
      List.Forall₂ (fun text value => typed type text = .ok value) items values →
      Types type (.list items) (.oneOf values)
  | like {text : String} : Types type (.like text) (.like text)
  | equals {text : String} {value : Value} : typed type text = .ok value →
      Types type (.equals text) (.equals value)

theorem types_of_coerce {p : Predicate} {c : Condition} (h : p.coerce type = .ok c) :
    Types type p c := by
  induction p generalizing c with
  | isNull =>
    obtain rfl := Except.ok.inj h
    exact .isNull
  | isNotNull =>
    obtain rfl := Except.ok.inj h
    exact .isNotNull
  | not inner ih =>
    obtain ⟨d, hd, rfl⟩ := map_eq_ok.1 h
    exact .not (ih hd)
  | range lower upper =>
    obtain ⟨hbound, l, hl, u, hu, rfl⟩ := coerce_range_eq_ok.1 h
    rcases typedBound_eq_ok.1 hl with ⟨rfl, rfl⟩ | ⟨low, l, rfl, hlow, rfl⟩
    · rcases typedBound_eq_ok.1 hu with ⟨rfl, rfl⟩ | ⟨high, u, rfl, hhigh, rfl⟩
      · exact absurd hbound (by simp)
      · exact .atMost hhigh
    · rcases typedBound_eq_ok.1 hu with ⟨rfl, rfl⟩ | ⟨high, u, rfl, hhigh, rfl⟩
      · exact .atLeast hlow
      · exact .between hlow hhigh
  | list items =>
    obtain ⟨values, hvalues, rfl⟩ := map_eq_ok.1 h
    exact .list (typedItems_eq_ok.1 hvalues)
  | like text =>
    obtain rfl := Except.ok.inj h
    exact .like
  | equals text =>
    obtain ⟨value, hvalue, rfl⟩ := map_eq_ok.1 h
    exact .equals hvalue

end Predicate

namespace Builder

/-! ## Conditions -/

theorem columnCondition_eq_ok {name : String} {search : Predicate} :
    b.columnCondition e name search = .ok sql ↔
      ∃ target condition operand, e.resolve? name = some target ∧
        search.coerce target.dataType = .ok condition ∧ b.operand target = .ok operand ∧
        condition.sql operand target.dataType = sql := by
  simp only [columnCondition, bind_eq_ok, pure_eq_ok, ofFilter_eq_ok, mapError_eq_ok,
    Entity.resolve_eq_ok]
  constructor
  · rintro ⟨target, ht, condition, hc, operand, ho, h⟩
    exact ⟨target, condition, operand, ht, hc, ho, h⟩
  · rintro ⟨target, condition, operand, ht, hc, ho, h⟩
    exact ⟨target, ht, condition, hc, operand, ho, h⟩

/-- The global search has a condition on just the columns that can hold it. -/
theorem searchCondition_eq_ok {name : String} {search : Predicate} {o : Option Sql} :
    b.searchCondition e search name = .ok o ↔
      ∃ target, e.resolve? name = some target ∧
        ((∃ fault, search.coerce target.dataType = .error fault ∧ none = o) ∨
          ∃ condition, search.coerce target.dataType = .ok condition ∧
            ∃ operand, b.operand target = .ok operand ∧
              some (condition.sql operand target.dataType) = o) := by
  simp only [searchCondition, bind_eq_ok, ofFilter_eq_ok, Entity.resolve_eq_ok]
  refine exists_congr fun target => and_congr_right fun _ => ?_
  -- a column that cannot hold what is searched for is left out, which is no failure
  cases search.coerce target.dataType with
  | error fault => simp only [pure_eq_ok]; simp
  | ok condition => simp only [bind_eq_ok, pure_eq_ok]; simp

theorem searchConditions_eq_ok {l : Listing} {searches : List Sql} :
    b.searchConditions e l = .ok searches ↔
      (l.search = none ∧ [] = searches) ∨
      ∃ search, l.search = some search ∧
        ∃ conditions, (searchableColumns l).mapM (b.searchCondition e search) = .ok conditions ∧
          conditions.filterMap id = searches := by
  unfold searchConditions
  cases l.search with
  | none => simp
  | some search => simp only [bind_eq_ok, pure_eq_ok]; simp

/-- What is in the group of the global search is its condition on a searchable column. -/
theorem exists_of_mem_searchConditions {l : Listing} {searches : List Sql}
    (h : b.searchConditions e l = .ok searches) (hm : sql ∈ searches) :
    ∃ search, l.search = some search ∧
      ∃ name ∈ searchableColumns l, ∃ target, e.resolve? name = some target ∧
        ∃ condition, search.coerce target.dataType = .ok condition ∧
          ∃ operand, b.operand target = .ok operand ∧
            condition.sql operand target.dataType = sql := by
  rcases searchConditions_eq_ok.1 h with ⟨-, rfl⟩ | ⟨search, hs, conditions, hall, rfl⟩
  · exact absurd hm List.not_mem_nil
  obtain ⟨name, hname, hpart⟩ := exists_of_mem_filterMap_id hall hm
  obtain ⟨target, ht, ⟨_, _, hnone⟩ | ⟨condition, hc, operand, ho, hsome⟩⟩ :=
    searchCondition_eq_ok.1 hpart
  · exact absurd hnone (by simp)
  · exact ⟨search, hs, name, hname, target, ht, condition, hc, operand, ho,
      Option.some.inj hsome⟩

/-- A searchable column that can hold what is searched for is not left out. -/
theorem mem_searchConditions {l : Listing} {search : Predicate} {searches : List Sql}
    (h : b.searchConditions e l = .ok searches) (hs : l.search = some search) {name : String}
    (hname : name ∈ searchableColumns l) :
    ∃ target, e.resolve? name = some target ∧
      ∀ condition, search.coerce target.dataType = .ok condition →
        ∃ operand, b.operand target = .ok operand ∧
          condition.sql operand target.dataType ∈ searches := by
  rcases searchConditions_eq_ok.1 h with ⟨hnone, -⟩ | ⟨_, hs', conditions, hall, rfl⟩
  · exact absurd (hs.symm.trans hnone) (by simp)
  obtain rfl := Option.some.inj (hs.symm.trans hs')
  obtain ⟨o, ho, hpart⟩ := exists_of_mapM_mem hall hname
  obtain ⟨target, ht, hcondition⟩ := searchCondition_eq_ok.1 hpart
  refine ⟨target, ht, fun condition hc => ?_⟩
  rcases hcondition with ⟨fault, hfault, -⟩ | ⟨condition', hc', operand, hoperand, rfl⟩
  · exact absurd (hfault.symm.trans hc) (by simp)
  · obtain rfl := Except.ok.inj (hc'.symm.trans hc)
    exact ⟨operand, hoperand, List.mem_filterMap.2 ⟨_, ho, rfl⟩⟩

theorem filterClause_eq_ok {l : Listing} {clause : Option Sql} :
    b.filterClause e l = .ok clause ↔
      ∃ columns searches, b.columnConditions e l = .ok columns ∧
        b.searchConditions e l = .ok searches ∧ combine columns searches = clause := by
  simp only [filterClause, bind_eq_ok, pure_eq_ok]
  constructor
  · rintro ⟨columns, hc, searches, hs, h⟩
    exact ⟨columns, searches, hc, hs, h⟩
  · rintro ⟨columns, searches, hc, hs, h⟩
    exact ⟨columns, hc, searches, hs, h⟩

theorem exampleCondition_eq_ok {f : Field} {o : Option Sql} :
    b.exampleCondition e f = .ok o ↔
      (examplePredicate e f = .ok none ∧ none = o) ∨
      ∃ search condition operand, examplePredicate e f = .ok (some search) ∧
        search.coerce f.dataType = .ok condition ∧ b.readField f = .ok operand ∧
        some (condition.sql operand f.dataType) = o := by
  simp only [exampleCondition, bind_eq_ok, ofFilter_eq_ok]
  constructor
  · rintro ⟨p, hp, h⟩
    cases p with
    | none => exact .inl ⟨hp, pure_eq_ok.1 h⟩
    | some search =>
      simp only [bind_eq_ok, ofFilter_eq_ok, mapError_eq_ok, pure_eq_ok] at h
      obtain ⟨condition, hc, operand, ho, h⟩ := h
      exact .inr ⟨search, condition, operand, hp, hc, ho, h⟩
  · rintro (⟨hp, rfl⟩ | ⟨search, condition, operand, hp, hc, ho, rfl⟩)
    · exact ⟨none, hp, rfl⟩
    · refine ⟨some search, hp, ?_⟩
      simp only [bind_eq_ok, ofFilter_eq_ok, mapError_eq_ok, pure_eq_ok]
      exact ⟨condition, hc, operand, ho, rfl⟩

theorem exampleClause_eq_ok {combinator : Combinator} {clause : Option Sql} :
    b.exampleClause e combinator = .ok clause ↔
      ∃ conditions, e.fields.mapM (b.exampleCondition e) = .ok conditions ∧
        (if conditions.filterMap id = [] then none
          else some (combinator.join (conditions.filterMap id))) = clause := by
  simp only [exampleClause, bind_eq_ok]
  refine exists_congr fun conditions => and_congr_right fun _ => ?_
  cases conditions.filterMap id with
  | nil => simp only [pure_eq_ok]; simp
  | cons c cs => simp only [pure_eq_ok]; simp

/-- A row is picked by a variable, or by the typed value of its key. -/
theorem keyCondition_eq_ok {replacement : Option String} :
    keyCondition e replacement = .ok sql ↔
      ∃ key, e.key? = some key ∧
        ((∃ name, replacement = some name ∧
            [.column .root key.columnName, .text " = ", .variable name] = sql) ∨
          (replacement = none ∧ ∃ json, e.present? key.name = some json ∧
            ∃ value, Value.coerce json key.dataType = .ok value ∧
              [.column .root key.columnName, .text " = ",
                .bind (.input value key.dataType)] = sql)) := by
  unfold keyCondition
  simp only [bind_eq_ok, ofEntity_eq_ok, Entity.requireKey_eq_ok]
  refine exists_congr fun key => and_congr_right fun hk => ?_
  cases replacement with
  | some name => simp [pure_eq_ok]
  | none =>
    simp only [bind_eq_ok, ofEntity_eq_ok, mapError_eq_ok, Entity.requireKeyValue_eq_ok]
    constructor
    · rintro ⟨⟨key', json⟩, ⟨hk', hj⟩, value, hv, h⟩
      -- the key is looked up a second time, and is the same
      rw [hk, Option.some.injEq] at hk'
      subst hk'
      exact .inr ⟨trivial, json, hj, value, hv, pure_eq_ok.1 h⟩
    · rintro (⟨name, hn, _⟩ | ⟨_, json, hj, value, hv, h⟩)
      · exact absurd hn (by simp)
      · exact ⟨(key, json), ⟨hk, hj⟩, value, hv, pure_eq_ok.2 h⟩

end Builder

/-! ## Reading -/

namespace Builder

/-- The item of a visible field, by the type of the field. -/
theorem fieldItem_eq_ok {f : Field} {item : Item} :
    b.fieldItem f = .ok item ↔
      (f.dataType = .date ∧
        .labelled (b.dialect.dateToString [.column .root f.columnName]) f.name = item) ∨
      (f.dataType = .encrypted ∧
        ∃ value, b.readField f = .ok value ∧ .labelled value f.name = item) ∨
      (f.dataType ≠ .date ∧ f.dataType ≠ .encrypted ∧
        (if f.columnName = f.name then .bare .root f.columnName
          else .labelled [.column .root f.columnName] f.name) = item) := by
  unfold fieldItem
  cases f.dataType with
  | encrypted => simp only [bind_eq_ok, pure_eq_ok]; simp
  | date => simp
  | _ => by_cases hc : f.columnName = f.name <;> simp [hc]

theorem projection_eq_ok {items : List Item} :
    b.projection e = .ok items ↔
      ∃ fields, (e.fields.filter Field.isProjected).mapM b.fieldItem = .ok fields ∧
        fields ++ e.joinedTables.flatMap JoinedTable.items ≠ [] ∧
        fields ++ e.joinedTables.flatMap JoinedTable.items = items := by
  simp only [projection, bind_eq_ok]
  refine exists_congr fun fields => and_congr_right fun _ => ?_
  cases fields ++ e.joinedTables.flatMap JoinedTable.items with
  | nil => simp
  | cons item items => simp only [pure_eq_ok]; simp

end Builder

theorem joinClause_eq_ok {t : JoinedTable} :
    joinClause e t = .ok sql ↔
      ∃ target, e.joinSource t = .ok target ∧
        .text s!" {t.join.direction.keywords} " :: Sql.table t.join.table ++
          [.text s!" {t.tableAlias.text} ON ", .column t.tableAlias t.join.onColumn, .text " = "]
          ++ target.column = sql := by
  simp only [joinClause, bind_eq_ok, pure_eq_ok]

theorem fromClause_eq_ok :
    fromClause e = .ok sql ↔
      ∃ joins, e.joinedTables.mapM (joinClause e) = .ok joins ∧
        .text "FROM " :: Sql.table e.table ++ .text s!" {TableAlias.root.text}" :: joins.flatten
          = sql := by
  simp only [fromClause, bind_eq_ok, pure_eq_ok, ofEntity_eq_ok]

namespace Builder

theorem sortTerm_eq_ok {column : ListColumn} {direction : SortDirection} :
    b.sortTerm e column direction = .ok sql ↔
      ∃ target, e.resolve? column.data = some target ∧
        ∃ operand, b.operand target = .ok operand ∧
          operand ++ [.text s!" {direction.keyword}"] = sql := by
  simp only [sortTerm, bind_eq_ok, pure_eq_ok, ofFilter_eq_ok, Entity.resolve_eq_ok]

theorem sortTerms_eq_ok {l : Listing} {terms : List Sql} :
    b.sortTerms e l = .ok terms ↔
      ∃ targets, l.sortTargets = .ok targets ∧
        targets.mapM (fun (column, direction) => b.sortTerm e column direction) = .ok terms := by
  simp only [sortTerms, bind_eq_ok, ofFilter_eq_ok, mapError_eq_ok]

/-- Every term of an order is the term of a column in a direction. -/
theorem exists_of_mem_sortTerms? {l : Option Listing} {terms : List Sql} {term : Sql}
    (h : b.sortTerms? e l = .ok terms) (hm : term ∈ terms) :
    ∃ column direction, b.sortTerm e column direction = .ok term := by
  cases l with
  | none =>
    obtain rfl := Except.ok.inj h
    exact absurd hm (by simp)
  | some l =>
    obtain ⟨targets, _, hterms⟩ := sortTerms_eq_ok.1 h
    obtain ⟨⟨column, direction⟩, _, hterm⟩ := exists_of_mem_mapM hterms hm
    exact ⟨column, direction, hterm⟩

theorem windowOrder_eq_ok {terms : List Sql} :
    windowOrder e terms = .ok sql ↔
      (terms = [] ∧ ∃ key, e.key? = some key ∧
        [.column .root key.columnName, .text s!" {SortDirection.asc.keyword}"] = sql) ∨
      (terms ≠ [] ∧ Sql.list terms = sql) := by
  unfold windowOrder
  cases terms with
  | nil =>
    cases e.key? with
    | none => simp
    | some key => simp
  | cons term terms => simp

/-- A listing without a window is selected as a whole; a window has to be a page. -/
theorem pagedSelect_eq_ok {projection source : Sql} {filter : Option Sql} {terms : List Sql}
    {l : Option Listing} :
    b.pagedSelect e projection source filter terms l = .ok sql ↔
      (l.filter Listing.isWindowed = none ∧
        plainSelect ⟨projection, source, filter, Sql.list terms⟩ = sql) ∨
      ∃ l', l.filter Listing.isWindowed = some l' ∧
        ∃ w, Window.of? l'.start l'.length = some w ∧
          ∃ orderBy, windowOrder e terms = .ok orderBy ∧
            b.dialect.paginate ⟨projection, source, filter, orderBy⟩ w = sql := by
  unfold pagedSelect
  cases l.filter Listing.isWindowed with
  | none => simp
  | some l' =>
    cases hw : Window.of? l'.start l'.length with
    | none => simp [hw]
    | some w => simp only [hw, bind_eq_ok, pure_eq_ok]; simp [hw]

theorem selectBody_eq_ok {l : Option Listing} :
    b.selectBody e l = .ok sql ↔
      ∃ items, b.projection e = .ok items ∧
        ∃ source, fromClause e = .ok source ∧
          ∃ filter, b.filterClause? e l = .ok filter ∧
            ∃ terms, b.sortTerms? e l = .ok terms ∧
              b.pagedSelect e (Sql.items items) source filter terms l = .ok sql := by
  simp only [selectBody, bind_eq_ok, ofFilter_eq_ok]

theorem selectByKeyBody_eq_ok :
    b.selectByKeyBody e = .ok sql ↔
      ∃ items, b.projection e = .ok items ∧
        ∃ source, fromClause e = .ok source ∧
          ∃ condition, keyCondition e none = .ok condition ∧
            plainSelect ⟨Sql.items items, source, some condition, []⟩ = sql := by
  simp only [selectByKeyBody, bind_eq_ok, pure_eq_ok]

theorem selectByExampleBody_eq_ok {combinator : Combinator} :
    b.selectByExampleBody e combinator = .ok sql ↔
      ∃ items, b.projection e = .ok items ∧
        ∃ source, fromClause e = .ok source ∧
          ∃ filter, b.exampleClause e combinator = .ok filter ∧
            plainSelect ⟨Sql.items items, source, filter, []⟩ = sql := by
  simp only [selectByExampleBody, bind_eq_ok, pure_eq_ok]

theorem countBody_eq_ok {l : Option Listing} :
    b.countBody e l = .ok sql ↔
      ∃ source, fromClause e = .ok source ∧
        ∃ filter, b.filterClause? e l = .ok filter ∧
          plainSelect ⟨[.text "COUNT(*) AS Total"], source, filter, []⟩ = sql := by
  simp only [countBody, bind_eq_ok, pure_eq_ok]

/-! ## Writing -/

/-- A value is the current time, or bound, and then encrypted if its field is. -/
theorem valueExpression_eq_ok {f : Field} {value : Json} :
    b.valueExpression e f value = .ok sql ↔
      ((f.dataType.isTemporal && isCurrentTime value) = true ∧
        [.text (b.dialect.currentTime f.dataType)] = sql) ∨
      ((f.dataType.isTemporal && isCurrentTime value) = false ∧
        ∃ typed, Value.coerce value f.dataType = .ok typed ∧
          ((f.dataType = .encrypted ∧ ∃ keys, b.keysFor f = .ok keys ∧
              b.dialect.encrypt [.bind (.input typed f.dataType)] keys = .ok sql) ∨
            (f.dataType ≠ .encrypted ∧ [.bind (.input typed f.dataType)] = sql))) := by
  unfold valueExpression
  cases f.dataType.isTemporal && isCurrentTime value with
  | true => simp
  | false =>
    simp only [Bool.false_eq_true, if_false, bind_eq_ok, ofEntity_eq_ok, mapError_eq_ok,
      false_and, true_and, false_or]
    refine exists_congr fun typed => and_congr_right fun _ => ?_
    by_cases hf : f.dataType = .encrypted
    · simp [hf, bind_eq_ok]
    · simp [hf, pure_eq_ok]

/-- A field of an insert takes its link, or its value, or no part. -/
theorem insertEntry_eq_ok {links : Links} {f : Field} {o : Option (Sql × Sql)} :
    b.insertEntry e links f = .ok o ↔
      (∃ name, links.lookup f.name = some name ∧
        some ([.name f.columnName], [.variable name]) = o) ∨
      (links.lookup f.name = none ∧
        ((insertValue? e f = none ∧ none = o) ∨
          ∃ json, insertValue? e f = some json ∧
            ∃ value, b.valueExpression e f json = .ok value ∧
              some ([.name f.columnName], value) = o)) := by
  unfold insertEntry
  cases links.lookup f.name with
  | some name => simp
  | none =>
    cases insertValue? e f with
    | none => simp
    | some json => simp only [bind_eq_ok, pure_eq_ok]; simp

theorem insertBody_eq_ok {links : Links} {handling : KeyHandling} :
    b.insertBody e links handling = .ok sql ↔
      ∃ entries, (insertFields e).mapM (b.insertEntry e links) = .ok entries ∧
        entries.filterMap id ≠ [] ∧
        b.dialect.insert
          ⟨Sql.table e.table, (entries.filterMap id).map Prod.fst,
            (entries.filterMap id).map Prod.snd⟩
          (b.keyReturn e handling) = sql := by
  simp only [insertBody, bind_eq_ok]
  refine exists_congr fun entries => and_congr_right fun _ => ?_
  cases entries.filterMap id with
  | nil => simp
  | cons entry entries => simp only [pure_eq_ok]; simp

/-- A field of an update takes its link, or its value, or null. -/
theorem assignment_eq_ok {links : Links} {f : Field} :
    b.assignment e links f = .ok sql ↔
      ∃ value,
        ((∃ name, links.lookup f.name = some name ∧ [.variable name] = value) ∨
          (links.lookup f.name = none ∧
            ((∃ json, e.present? f.name = some json ∧ b.valueExpression e f json = .ok value) ∨
              (e.present? f.name = none ∧ [.bind (.input .null f.dataType)] = value)))) ∧
        [.target .root f.columnName, .text " = "] ++ value = sql := by
  unfold assignment
  cases links.lookup f.name with
  | some name => simp only [bind_eq_ok, pure_eq_ok]; simp
  | none =>
    cases e.present? f.name with
    | none => simp only [bind_eq_ok, pure_eq_ok]; simp
    | some json => simp only [bind_eq_ok, pure_eq_ok]; simp

theorem updateBody_eq_ok {names : Option (List String)} {links : Links} :
    b.updateBody e names links = .ok sql ↔
      (∃ key, e.key? = some key) ∧
        ∃ assignments, (updateFields e names).mapM (b.assignment e links) = .ok assignments ∧
          assignments ≠ [] ∧
          ∃ condition, keyCondition e (keyLink? e links) = .ok condition ∧
            b.dialect.update (Sql.table e.table) [.text TableAlias.root.text] assignments
              condition = sql := by
  simp only [updateBody, bind_eq_ok, ofEntity_eq_ok, Entity.requireKey_eq_ok]
  -- the key is asked for, and then nothing is done with it
  rw [← exists_and_right]
  refine exists_congr fun key => and_congr_right fun _ => ?_
  refine exists_congr fun assignments => and_congr_right fun _ => ?_
  cases assignments with
  | nil => simp
  | cons a as => simp only [bind_eq_ok, pure_eq_ok]; simp

theorem deleteBody_eq_ok {links : Links} :
    b.deleteBody e links = .ok sql ↔
      ∃ condition, keyCondition e (keyLink? e links) = .ok condition ∧
        b.dialect.delete (Sql.table e.table) [.text TableAlias.root.text] condition = sql := by
  simp only [deleteBody, bind_eq_ok, pure_eq_ok]

/-! ## Aggregating -/

theorem groupTerm_eq_ok {name : String} {term : Sql × Item} :
    b.groupTerm e name = .ok term ↔
      ∃ target, e.resolve? name = some target ∧
        ∃ operand, b.operand target = .ok operand ∧
          (operand, .labelled operand target.columnName) = term := by
  simp only [groupTerm, bind_eq_ok, pure_eq_ok, ofFilter_eq_ok, Entity.resolve_eq_ok]

theorem rollupItems_eq_ok {rollup : Option String} {items : List Item} :
    b.rollupItems e rollup = .ok items ↔
      (rollup = none ∧ [] = items) ∨
      ∃ name, rollup = some name ∧
        ∃ target, e.resolve? name = some target ∧
          ∃ operand, b.operand target = .ok operand ∧
            [.labelled (.text "GROUPING(" :: operand ++ [.text ")"]) (groupingName name)]
              = items := by
  cases rollup with
  | none => simp [rollupItems]
  | some name =>
    simp only [rollupItems, bind_eq_ok, pure_eq_ok, ofFilter_eq_ok, Entity.resolve_eq_ok]
    simp

/-- A call counts rows, or reads what its field stands for. -/
theorem aggregateCall_eq_ok {c : AggregateColumn} {call : AggregateCall} :
    b.aggregateCall e c = .ok call ↔
      (c.field = none ∧ c.function = .count ∧ ⟨c, [.text "COUNT(*)"], none⟩ = call) ∨
      ∃ name, c.field = some name ∧
        ∃ target, e.resolve? name = some target ∧
          ∃ operand, b.operand target = .ok operand ∧
            ⟨c, .text (callOpening c.function) :: operand ++ [.text ")"], some target⟩ = call := by
  unfold aggregateCall
  cases c.field with
  | none => by_cases hc : c.function = .count <;> simp [hc]
  | some name =>
    simp only [bind_eq_ok, pure_eq_ok, ofFilter_eq_ok, Entity.resolve_eq_ok]
    simp

/-- A condition is asked for by an operator and a value. -/
theorem of_having? {c : AggregateColumn} {operator : String} {json : Json}
    (h : c.having? = some (operator, json)) :
    c.havingOperator = some operator ∧ c.havingValue = some json ∧ json.isNull = false := by
  unfold AggregateColumn.having? at h
  split at h
  · next operator' json' ho hv =>
    obtain ⟨rfl, rfl⟩ := Prod.mk.inj (Option.some.inj h)
    obtain ⟨hvalue, hnull⟩ := Option.filter_eq_some_iff.1 hv
    exact ⟨ho, hvalue, by simpa using hnull⟩
  · exact absurd h (by simp)

theorem havingCondition_eq_ok {call : AggregateCall} {o : Option Sql} :
    havingCondition call = .ok o ↔
      (call.column.having? = none ∧ none = o) ∨
      ∃ operator json, call.column.having? = some (operator, json) ∧
        ∃ comparison, Comparison.require operator = .ok comparison ∧
          ∃ value, Value.coerce json (havingType call) = .ok value ∧
            some (call.sql ++ [.text s!" {comparison.symbol} ",
              .bind (.input value (havingType call))]) = o := by
  unfold havingCondition
  cases call.column.having? with
  | none => simp
  | some p =>
    obtain ⟨operator, json⟩ := p
    simp only [bind_eq_ok, pure_eq_ok, mapError_eq_ok]
    simp

theorem aggregateBody_eq_ok {a : Aggregation} {source : AggregateSource} :
    b.aggregateBody e a source = .ok sql ↔
      (a.groupBy.isEmpty && a.rollup.isNone && a.columns.isEmpty) = false ∧
        ∃ groups, (groupNames a).mapM (b.groupTerm e) = .ok groups ∧
          ∃ rollup, b.rollupItems e a.rollup = .ok rollup ∧
            ∃ calls, a.columns.mapM (b.aggregateCall e) = .ok calls ∧
              ∃ filter, b.sourceClause e source = .ok filter ∧
                ∃ having, calls.mapM havingCondition = .ok having ∧
                  ∃ rows, fromClause e = .ok rows ∧
                    .text "SELECT " ::
                        Sql.items (groups.map Prod.snd ++ rollup ++ callItems a calls) ++
                      .text " " :: rows ++ Sql.whereSuffix filter ++
                      groupSuffix a.rollup.isSome (groups.map Prod.fst) ++
                      havingSuffix (having.filterMap id) = sql := by
  unfold aggregateBody
  -- there is nothing to select when there is nothing to group by and no function
  cases a.groupBy.isEmpty && a.rollup.isNone && a.columns.isEmpty with
  | true => simp [bind_eq_ok]
  | false =>
    simp only [Bool.false_eq_true, if_false, bind_eq_ok, pure_eq_ok, ofFilter_eq_ok, true_and]

/-! ## Batches -/

/-- A step is checked, its links are looked up, and then it is written as a statement of its own
kind. -/
theorem stepBody_eq_ok {keyed : KeyVariables} {step : BatchStep} {index : Nat} :
    b.stepBody keyed step index = .ok sql ↔
      step.entity.check = .ok () ∧
        ∃ links, step.links.foldlM (addLink keyed index step.entity) [] = .ok links ∧
          ((step.operation = .insert ∧
              b.insertBody step.entity links
                (match keyed.lookup index with
                  | some name => .capture name
                  | none => .omit) = .ok sql) ∨
            (step.operation = .update ∧ b.updateBody step.entity none links = .ok sql) ∨
            (step.operation = .delete ∧ b.deleteBody step.entity links = .ok sql)) := by
  unfold stepBody
  rw [seq_eq_ok, ofEntity_eq_ok, bind_eq_ok]
  simp only [ofEntity_eq_ok]
  refine and_congr_right fun _ => exists_congr fun links => and_congr_right fun _ => ?_
  cases step.operation with
  | insert => exact ⟨fun h => .inl ⟨rfl, h⟩, fun h => (h.resolve_right (by simp)).2⟩
  | update => simp
  | delete => simp

theorem batchBody_eq_ok {steps : List BatchStep} :
    b.batchBody steps = .ok sql ↔
      steps ≠ [] ∧ checkLinks steps (b.keyVariables steps) = .ok () ∧
        ∃ fragments,
          steps.zipIdx.mapM (fun (step, index) => b.stepBody (b.keyVariables steps) step index)
            = .ok fragments ∧
          b.dialect.batch
            ⟨(b.keyVariables steps).map fun (_, name) => b.batchVariable name, fragments⟩
            = sql := by
  unfold batchBody
  cases steps with
  | nil => simp [bind_eq_ok]
  | cons step steps =>
    simp only [List.isEmpty_cons, Bool.false_eq_true, if_false, ne_eq, reduceCtorEq,
      not_false_eq_true, true_and]
    rw [seq_eq_ok, ofEntity_eq_ok]
    simp only [bind_eq_ok, pure_eq_ok]

theorem batch_eq_ok {steps : List BatchStep} :
    b.batch steps = .ok s ↔ ∃ sql, b.batchBody steps = .ok sql ∧ b.finish sql = .ok s := by
  simp only [batch, bind_eq_ok]

end Builder

/-! ## Requests -/

/-- The entities that a request is about. -/
def Request.entities : Request → List Entity
  | .select e _ => [e]
  | .count e _ => [e]
  | .selectByKey e => [e]
  | .selectByExample e _ => [e]
  | .insert e => [e]
  | .update e => [e]
  | .updateProperties e _ => [e]
  | .delete e => [e]
  | .aggregate e _ _ => [e]
  | .batch steps => steps.map BatchStep.entity

namespace Builder

/-- What a request is answered with before its key is opened. -/
def body (b : Builder) : Request → Checked Sql
  | .select e l => b.selectBody e l
  | .count e l => b.countBody e l
  | .selectByKey e => b.selectByKeyBody e
  | .selectByExample e combinator => b.selectByExampleBody e combinator
  | .insert e => b.insertBody e [] .return
  | .update e => b.updateBody e none []
  | .updateProperties e names => b.updateBody e (some names) []
  | .delete e => b.deleteBody e []
  | .aggregate e a source => b.aggregateBody e a source
  | .batch steps => b.batchBody steps

/-- A body about an entity that passes its check. -/
def bodyAbout (e : Entity) (body : Checked Sql) : Checked Sql := do
  Checked.ofEntity e.check
  body

/-- The body of a request, with the check of the entity in front of it. The steps of a batch check
their own. -/
def checkedBody (b : Builder) : Request → Checked Sql
  | .select e l => bodyAbout e (b.selectBody e l)
  | .count e l => bodyAbout e (b.countBody e l)
  | .selectByKey e => bodyAbout e (b.selectByKeyBody e)
  | .selectByExample e combinator => bodyAbout e (b.selectByExampleBody e combinator)
  | .insert e => bodyAbout e (b.insertBody e [] .return)
  | .update e => bodyAbout e (b.updateBody e none [])
  | .updateProperties e names => bodyAbout e (b.updateBody e (some names) [])
  | .delete e => bodyAbout e (b.deleteBody e [])
  | .aggregate e a source => bodyAbout e (b.aggregateBody e a source)
  | .batch steps => b.batchBody steps

/-- An answer is a finished body. -/
theorem run_eq_finish (r : Request) : b.run r = b.checkedBody r >>= b.finish := by
  cases r with
  | batch steps => rfl
  | _ => exact (bind_assoc _ _ _).symm

/-- A body is about entities that pass their check. -/
theorem body_of_checkedBody {r : Request} (h : b.checkedBody r = .ok sql) :
    (∀ e ∈ r.entities, e.check = .ok ()) ∧ b.body r = .ok sql := by
  have hone : ∀ {e : Entity} {body : Checked Sql}, bodyAbout e body = .ok sql →
      (∀ e' ∈ [e], e'.check = .ok ()) ∧ body = .ok sql := by
    intro e body h
    obtain ⟨hc, hb⟩ := seq_eq_ok.1 h
    exact ⟨List.forall_mem_singleton.2 (ofEntity_eq_ok.1 hc), hb⟩
  cases r with
  | batch steps =>
    refine ⟨List.forall_mem_map.2 fun step hm => ?_, h⟩
    obtain ⟨_, _, fragments, hfrag, _⟩ := batchBody_eq_ok.1 h
    -- each step was written under its index, and checked before that
    obtain ⟨index, hi⟩ := List.mem_iff_getElem?.1 hm
    obtain ⟨_, _, hstep⟩ := exists_of_mapM_mem hfrag (List.mk_mem_zipIdx_iff_getElem?.2 hi)
    exact (stepBody_eq_ok.1 hstep).1
  | _ => exact hone h

theorem run_eq_ok {r : Request} {s : Statement} (h : b.run r = .ok s) :
    (∀ e ∈ r.entities, e.check = .ok ()) ∧ ∃ sql, b.body r = .ok sql ∧ b.finish sql = .ok s := by
  rw [run_eq_finish, bind_eq_ok] at h
  obtain ⟨sql, hsql, hfinish⟩ := h
  obtain ⟨hc, hbody⟩ := body_of_checkedBody hsql
  exact ⟨hc, sql, hbody, hfinish⟩

theorem style_finish (h : b.finish sql = .ok s) : s.style = b.style := by
  rcases finish_eq_ok.1 h with ⟨_, rfl⟩ | ⟨_, _, _, wrapped, _, rfl⟩
  · rfl
  · rfl

theorem style_run {r : Request} (h : b.run r = .ok s) : s.style = b.style := by
  obtain ⟨_, sql, _, hf⟩ := run_eq_ok h
  exact style_finish hf

end Builder

end RecordSql
