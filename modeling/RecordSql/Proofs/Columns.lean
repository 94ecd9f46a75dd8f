import RecordSql.Proofs.Carrying

/-!
# Which columns a statement names

Every column of the entity's own table stands in a statement for a reason, and every reason shows:

* the request shows the field or asks for it, and the column is read, inside of its decryption when
  the field is encrypted;
* the request picks rows by the field or joins on it, and the column stands there as it is, of
  whatever type the field is;
* the request assigns to it.

Two questions are answered from this, each with an exact condition. An encrypted column is read raw
just when its field picks rows or joins. A field that no statement may write or show is named just
when the request asks for it: a name that stands for a field finds it whether it is shown or not.
-/

namespace RecordSql

open Sql

variable {b : Builder} {e : Entity} {r : Request} {s : Statement} {f : Field} {c : String}
  {before after : Sql}

/-! ## Why a column is there -/

/-- The condition of a join up to its local side. -/
def Sql.joinOpening (index : Nat) (on : String) : Sql :=
  [.text s!" {(TableAlias.join index).text} ON ", .column (.join index) on, .text " = "]

/-- What a column of the entity's own table is in the statement of a request for, by what stands
before it and after it. -/
inductive Request.ColumnUse (r : Request) (f : Field) (before after : Sql) : Prop where
  | plain : r.uses.reads f → f.dataType ≠ .encrypted → ColumnUse r f before after
  | decrypted : r.uses.reads f → [.keyed Dialect.decryptOpening] <:+ before →
      [.text Dialect.encryptionClosing] <+: after → ColumnUse r f before after
  | picked : r.Picks f → ColumnUse r f before after
  | joined {index : Nat} {on : String} : r.Joins f → joinOpening index on <:+ before →
      ColumnUse r f before after

theorem Part.columnUse {x y : Sql} (h : Part b e r.uses (r.Adds b) (x ++ .column .root c :: y))
    (hx : x <:+ before) (hy : y <+: after) :
    ∃ f ∈ e.fields, f.columnName = c ∧ r.ColumnUse f before after := by
  generalize ha : x ++ .column .root c :: y = a at h
  have hm : .column .root c ∈ a := ha ▸ List.mem_append_right _ List.mem_cons_self
  cases h with
  | @plain f hf hu hp =>
    obtain rfl : c = f.columnName := by simpa using hm
    exact ⟨f, hf, rfl, .plain hu hp⟩
  | @decrypted f hf hu he hd =>
    -- only the middle one of the three pieces is a column
    obtain ⟨rfl, ⟨rfl, rfl⟩⟩ : x = [.keyed Dialect.decryptOpening] ∧
        c = f.columnName ∧ y = [.text Dialect.encryptionClosing] := by
      simpa [List.append_eq_cons_iff, List.cons_eq_append_iff] using ha
    exact ⟨f, hf, rfl, .decrypted hu hx hy⟩
  | @picked f hf hu =>
    obtain rfl : c = f.columnName := by simpa using hm
    exact ⟨f, hf, rfl, .picked hu⟩
  | @on t target ht hs hu =>
    cases target with
    | field f =>
      have hf : f ∈ e.fields := by
        cases Entity.reaches_of_joinSource ht hs with
        | field hf => exact hf
      obtain ⟨rfl, ⟨rfl, rfl⟩⟩ : x = joinOpening t.index t.join.onColumn ∧
          c = f.columnName ∧ y = [] := by
        simpa [List.append_eq_cons_iff, List.cons_eq_append_iff, Target.column, joinOpening,
          JoinedTable.tableAlias] using ha
      exact ⟨f, hf, rfl, .joined (hu f rfl) hx⟩
    | joined index column => exact absurd hm (by simp [Target.column, JoinedTable.tableAlias])
  | extra hp _ =>
    obtain rfl := List.mem_singleton.1 hm
    cases hp with
    | batch hp => exact absurd hp (by rintro ⟨⟩)
  | _ => exact absurd hm (by simp [JoinedTable.tableAlias])

theorem Part.targetUse {x y : Sql} (h : Part b e r.uses (r.Adds b) (x ++ .target .root c :: y)) :
    ∃ f ∈ e.fields, f.columnName = c ∧ r.Assigns f := by
  generalize ha : x ++ .target .root c :: y = a at h
  have hm : .target .root c ∈ a := ha ▸ List.mem_append_right _ List.mem_cons_self
  cases h with
  | @assigned f hf hu =>
    obtain rfl : c = f.columnName := by simpa using hm
    exact ⟨f, hf, rfl, hu⟩
  | @on t target _ _ _ => cases target <;> exact absurd hm (by simp [Target.column])
  | extra hp _ =>
    obtain rfl := List.mem_singleton.1 hm
    cases hp with
    | batch hp => exact absurd hp (by rintro ⟨⟩)
  | _ => exact absurd hm (by simp)

namespace Builder

theorem columnUse_run (h : b.run r = .ok s) (hs : s.sql = before ++ .column .root c :: after) :
    ∃ e ∈ r.entities, ∃ f ∈ e.fields, f.columnName = c ∧ r.ColumnUse f before after := by
  obtain ⟨x, y, hpart, hx, hy⟩ := (woven_run h).occurs hs
  rcases hpart with ⟨e, he, hpart⟩ | ⟨keys, _, hframe | hframe⟩
  · exact ⟨e, he, hpart.columnUse hx hy⟩
  · exact absurd hframe (by simp [List.append_eq_cons_iff])
  · exact absurd hframe (by simp [List.append_eq_cons_iff])

theorem targetUse_run (h : b.run r = .ok s) (hs : s.sql = before ++ .target .root c :: after) :
    ∃ e ∈ r.entities, ∃ f ∈ e.fields, f.columnName = c ∧ r.Assigns f := by
  obtain ⟨x, y, hpart, _, _⟩ := (woven_run h).occurs hs
  rcases hpart with ⟨e, he, hpart⟩ | ⟨keys, _, hframe | hframe⟩
  · exact ⟨e, he, hpart.targetUse⟩
  · exact absurd hframe (by simp [List.append_eq_cons_iff])
  · exact absurd hframe (by simp [List.append_eq_cons_iff])

/-! ## Every reason shows -/

theorem reads_run (hf : r.uses.reads f) (h : b.run r = .ok s) : b.Reads f s.sql := by
  obtain ⟨_, sql, hb, hfinish⟩ := run_eq_ok h
  obtain ⟨operand, ho, hcarries⟩ := reads_body hf hb
  refine ⟨operand, ho, ?_⟩
  rcases readField_eq_ok.1 ho with ⟨_, rfl⟩ | ⟨_, _, _, rfl⟩
  · exact carries_finish (a := []) rfl hcarries hfinish
  · have hclosing : Sql.withoutSemicolons [.text Dialect.encryptionClosing] =
        [.text Dialect.encryptionClosing] := by decide
    exact carries_finish (a := [_, _]) hclosing hcarries hfinish

theorem picks_run (hf : r.Picks f) (h : b.run r = .ok s) :
    Carries [.column .root f.columnName] s.sql := by
  obtain ⟨_, sql, hb, hfinish⟩ := run_eq_ok h
  exact carries_finish (a := []) rfl (picks_body hf hb) hfinish

theorem joins_run (hf : r.Joins f) (h : b.run r = .ok s) :
    [.text " = ", .column .root f.columnName] <:+: s.sql := by
  obtain ⟨_, sql, hb, hfinish⟩ := run_eq_ok h
  exact infix_finish (a := [.text " = "]) rfl (joins_body hf hb) hfinish

theorem assigns_run (hf : r.Assigns f) (h : b.run r = .ok s) :
    Carries [.target .root f.columnName] s.sql := by
  obtain ⟨_, sql, hb, hfinish⟩ := run_eq_ok h
  exact carries_finish (a := []) rfl (assigns_body hf hb) hfinish

end Builder

/-- What is carried has nothing in front of it, or wording that does not compare. -/
theorem Sql.Carries.exists_before {x y sql : Sql} {p : Piece} (h : Carries (x ++ p :: y) sql) :
    ∃ before after, sql = before ++ p :: after ∧ y <+: after ∧
      (before = x ∨ ∃ rest t, t ≠ " = " ∧ before = rest ++ .text t :: x) := by
  rcases h with ⟨after, rfl⟩ | ⟨t, ht, rest, after, rfl⟩
  · exact ⟨x, y ++ after, by simp, List.prefix_append y after, .inl rfl⟩
  · exact ⟨rest ++ .text t :: x, y ++ after, by simp, List.prefix_append y after,
      .inr ⟨rest, t, ht, rfl⟩⟩

/-! ## Raw reads -/

namespace Sql

/-- SQL reads a column of the entity's own table raw: it stands outside of a decryption. -/
def ReadsRaw (sql : Sql) (c : String) : Prop :=
  ∃ before after, sql = before ++ .column .root c :: after ∧
    ¬ ([.keyed Dialect.decryptOpening] <:+ before ∧ [.text Dialect.encryptionClosing] <+: after)

/-- SQL reads a column of the entity's own table in its decryption. -/
def Decrypts (sql : Sql) (c : String) : Prop :=
  [.keyed Dialect.decryptOpening, .column .root c, .text Dialect.encryptionClosing] <:+: sql

/-- Behind wording, a column is read raw. -/
theorem readsRaw_of_text {sql : Sql} (rest : Sql) (t : String) (after : Sql)
    (h : sql = rest ++ .text t :: .column .root c :: after) : sql.ReadsRaw c := by
  refine ⟨rest ++ [.text t], after, by simp [h], fun hdecrypted => ?_⟩
  have hlast := hdecrypted.1
  rw [List.singleton_suffix_iff_getLast?_eq_some, List.getLast?_concat] at hlast
  exact absurd hlast (by simp)

theorem Carries.readsRaw {sql : Sql} (h : Carries [.column .root c] sql) : sql.ReadsRaw c := by
  obtain ⟨before, after, hs, _, rfl | ⟨rest, t, _, rfl⟩⟩ := h.exists_before (x := [])
  · exact ⟨[], after, hs, fun hdecrypted => absurd (List.suffix_nil.1 hdecrypted.1) (by simp)⟩
  · exact readsRaw_of_text rest t after (by simpa using hs)

end Sql

namespace Builder

/-- **An encrypted column is read raw just when its field picks rows or joins.** Of the fields that
a request shows or asks for, the encrypted ones are read in their decryption, and only by a builder
that can decrypt; the key that rows are picked or put in order by, and the local side of a join,
stand as they are. So on Oracle an encrypted column is never shown or asked for, but may pick rows
or join. -/
theorem readsRaw_run (h : b.run r = .ok s) :
    (∀ c, s.sql.ReadsRaw c ↔ ∃ e ∈ r.entities, ∃ f ∈ e.fields, f.columnName = c ∧
      (r.Picks f ∨ r.Joins f ∨ (f.dataType ≠ .encrypted ∧ (r.Shows f ∨ r.Asks f)))) ∧
    ∀ f : Field, f.dataType = .encrypted → r.Shows f ∨ r.Asks f →
      b.dialect = .sqlServer ∧ b.config.encryption.isSome ∧ s.sql.Decrypts f.columnName := by
  refine ⟨fun c => ⟨?_, ?_⟩, fun f hencrypted hreads => ?_⟩
  · rintro ⟨before, after, hs, hraw⟩
    obtain ⟨e, he, f, hf, hc, huse⟩ := columnUse_run h hs
    refine ⟨e, he, f, hf, hc, ?_⟩
    cases huse with
    | plain hu hp => exact .inr (.inr ⟨hp, hu⟩)
    | decrypted _ hopening hclosing => exact absurd ⟨hopening, hclosing⟩ hraw
    | picked hu => exact .inl hu
    | joined hu _ => exact .inr (.inl hu)
  · rintro ⟨e, _, f, _, rfl, hpicks | hjoins | ⟨hplain, hreads⟩⟩
    · exact (picks_run hpicks h).readsRaw
    · obtain ⟨rest, after, hs⟩ := joins_run hjoins h
      exact readsRaw_of_text rest " = " after (by simp [← hs])
    · obtain ⟨operand, ho, hcarries⟩ := reads_run hreads h
      rcases readField_eq_ok.1 ho with ⟨_, rfl⟩ | ⟨hencrypted, _⟩
      · exact hcarries.readsRaw
      · exact absurd hencrypted hplain
  · obtain ⟨operand, ho, hcarries⟩ := reads_run hreads h
    rcases readField_eq_ok.1 ho with ⟨hplain, _⟩ | ⟨_, hd, hk, rfl⟩
    · exact absurd hencrypted hplain
    · refine ⟨hd, hk, ?_⟩
      obtain hprefix | ⟨t, _, hinfix⟩ := hcarries
      · exact hprefix.isInfix
      · exact (List.suffix_cons _ _).isInfix.trans hinfix

end Builder

/-! ### An encrypted key -/

/-- The key of an account, which is encrypted. -/
def accountId : Field := { Field.new "Id" .encrypted with isKey := true }

/-- An account with its key. -/
def account : Entity :=
  ⟨"Accounts", [accountId, .new "Iban" .encrypted], ⟨[("Id", .string "7")], by decide⟩⟩

/-- A builder with a key for accounts. -/
def accountBuilder : Builder := .ofConfig ⟨.sqlServer, false, some ⟨"AccountKey", "Accounts"⟩⟩

theorem Builder.readsRaw_run_account :
    ∃ s, accountBuilder.run (.selectByKey account) = .ok s ∧ s.sql.ReadsRaw "Id" ∧
      ¬ s.sql.ReadsRaw "Iban" ∧ s.sql.Decrypts "Id" ∧ s.sql.Decrypts "Iban" := by
  obtain ⟨s, hs⟩ : ∃ s, accountBuilder.run (.selectByKey account) = .ok s := ⟨_, rfl⟩
  obtain ⟨hraw, hdecrypts⟩ := readsRaw_run hs
  refine ⟨s, hs, (hraw "Id").2 ?_, fun hiban => ?_, ?_, ?_⟩
  · exact ⟨account, List.mem_singleton_self _, accountId, List.mem_cons_self, rfl, .inl rfl⟩
  · -- the other field is no key, joins nothing and is encrypted
    obtain ⟨e, he, f, hf, hc, huse⟩ := (hraw "Iban").1 hiban
    obtain rfl := List.mem_singleton.1 he
    have hf : f = .new "Iban" .encrypted := by
      rcases List.mem_cons.1 hf with rfl | hf
      · exact absurd hc (by decide)
      · exact List.mem_singleton.1 hf
    rcases huse with hpicks | ⟨t, ht, _⟩ | ⟨hplain, _⟩
    · have hkey : accountId = f := Option.some.inj hpicks
      exact absurd (hkey.trans hf) (fun h => absurd (congrArg Field.isKey h) (by decide))
    · exact absurd ht List.not_mem_nil
    · exact absurd (congrArg Field.dataType hf) hplain
  · exact (hdecrypts accountId rfl (.inl ⟨List.mem_cons_self, rfl⟩)).2.2
  · have hiban : Field.new "Iban" .encrypted ∈ account.fields :=
      List.mem_cons_of_mem _ (List.mem_singleton_self _)
    exact (hdecrypts _ rfl (.inl ⟨hiban, rfl⟩)).2.2

/-- **An encrypted key is compared raw**, even where nothing can be decrypted: the delete is
answered on Oracle, and compares the stored ciphertext with the value. -/
theorem Builder.readsRaw_account_oracle :
    ∃ s, (Builder.ofConfig (.new .oracle)).run (.delete account) = .ok s ∧
      s.text = "DELETE FROM Accounts t0 WHERE t0.Id = :p0" ∧
      accountId ∈ account.fields ∧ accountId.dataType = .encrypted ∧
      s.sql.ReadsRaw accountId.columnName := by
  refine ⟨_, rfl, by decide +kernel, List.mem_cons_self, rfl, ?_⟩
  exact readsRaw_of_text [.text "DELETE FROM ", .name "Accounts", .text " ", .text "t0"] " WHERE "
    _ rfl

/-! ## Fields that are not shown -/

/-- SQL refers to a column of the entity's own table, other than as the local side of a join. -/
def Sql.RefersTo (sql : Sql) (c : String) : Prop :=
  ∃ before p after, sql = before ++ p :: after ∧ (p = .column .root c ∨ p = .target .root c) ∧
    ∀ index on, ¬ joinOpening index on <:+ before

/-- No statement writes the field or shows it, and it is no key. -/
structure Field.Hidden (f : Field) : Prop where
  key : f.isKey = false
  insertable : f.insertable = false
  updatable : f.updatable = false

/-- The condition of a join ends in wording that compares. -/
theorem Sql.eq_of_joinOpening_suffix {index : Nat} {on : String} (rest : Sql) {p : Piece}
    (h : joinOpening index on <:+ rest ++ [p]) : p = .text " = " := by
  obtain ⟨front, hfront⟩ := h
  have hlast := congrArg List.getLast? hfront
  rw [joinOpening, List.getLast?_concat] at hlast
  simpa using hlast.symm

/-- What is carried is no part of a join. -/
theorem Sql.Carries.refersTo {x y sql : Sql} {p : Piece} (h : Carries (x ++ p :: y) sql)
    (hp : p = .column .root c ∨ p = .target .root c)
    (hx : x = [] ∨ ∃ opening, x = [.keyed opening]) : sql.RefersTo c := by
  obtain ⟨before, after, hs, _, hbefore⟩ := h.exists_before
  refine ⟨before, p, after, hs, hp, fun index on hsuffix => ?_⟩
  rcases hx with rfl | ⟨opening, rfl⟩
  · rcases hbefore with rfl | ⟨rest, t, ht, rfl⟩
    · exact absurd (List.suffix_nil.1 hsuffix) (by simp [joinOpening])
    · exact ht (by simpa using eq_of_joinOpening_suffix rest hsuffix)
  · rcases hbefore with rfl | ⟨rest, t, _, rfl⟩
    · exact absurd (eq_of_joinOpening_suffix [] hsuffix) (by simp)
    · have hlast : joinOpening index on <:+ (rest ++ [.text t]) ++ [.keyed opening] := by
        simpa using hsuffix
      exact absurd (eq_of_joinOpening_suffix _ hlast) (by simp)

namespace Builder

/-- A field that is read is referred to, decrypted or not. -/
theorem refersTo_of_reads (hu : r.uses.reads f) (h : b.run r = .ok s) :
    s.sql.RefersTo f.columnName := by
  obtain ⟨operand, ho, hcarries⟩ := reads_run hu h
  rcases readField_eq_ok.1 ho with ⟨_, rfl⟩ | ⟨_, _, _, rfl⟩
  · exact hcarries.refersTo (x := []) (.inl rfl) (.inl rfl)
  · exact hcarries.refersTo (x := [_]) (.inl rfl) (.inr ⟨_, rfl⟩)

/-- A statement refers to the columns of the fields that its request shows, asks for, picks rows by
or assigns to, and to no others. -/
theorem refersTo_run (h : b.run r = .ok s) (c : String) :
    s.sql.RefersTo c ↔ ∃ e ∈ r.entities, ∃ f ∈ e.fields, f.columnName = c ∧
      (r.Shows f ∨ r.Asks f ∨ r.Picks f ∨ r.Assigns f) := by
  constructor
  · rintro ⟨before, p, after, hs, rfl | rfl, hjoin⟩
    · obtain ⟨e, he, f, hf, hc, huse⟩ := columnUse_run h hs
      refine ⟨e, he, f, hf, hc, ?_⟩
      cases huse with
      | plain hu _ => exact hu.imp_right .inl
      | decrypted hu _ _ => exact hu.imp_right .inl
      | picked hu => exact .inr (.inr (.inl hu))
      | joined _ hopening => exact absurd hopening (hjoin _ _)
    · obtain ⟨e, he, f, hf, hc, hu⟩ := targetUse_run h hs
      exact ⟨e, he, f, hf, hc, .inr (.inr (.inr hu))⟩
  · rintro ⟨e, _, f, _, rfl, huse⟩
    rcases huse with hu | hu | hu | hu
    · exact refersTo_of_reads (.inl hu) h
    · exact refersTo_of_reads (.inr hu) h
    · exact (picks_run hu h).refersTo (x := []) (.inl rfl) (.inl rfl)
    · exact (assigns_run hu h).refersTo (x := []) (.inr rfl) (.inl rfl)

end Builder

theorem Field.Hidden.not_shows (hf : f.Hidden) : ¬ r.Shows f := by
  intro h
  have hp : f.isProjected = true := by
    cases r with
    | select _ _ | selectByKey _ | selectByExample _ _ => exact h.2
    | _ => exact absurd h id
  simp [Field.isProjected, hf.insertable, hf.updatable] at hp

theorem Field.Hidden.not_picks (hf : f.Hidden) : ¬ r.Picks f := by
  intro h
  have hkey : ∃ e : Entity, e.key? = some f := by
    cases r with
    | select e l =>
      cases l with
      | none => exact absurd h id
      | some l => exact ⟨e, h.2.2⟩
    | batch steps =>
      obtain ⟨step, _, _, hk⟩ := h
      exact ⟨step.entity, hk⟩
    | selectByKey e | update e | updateProperties e _ | delete e => exact ⟨e, h⟩
    | _ => exact absurd h id
  obtain ⟨e, hk⟩ := hkey
  exact absurd (List.find?_some hk) (by simp [hf.key])

theorem Field.Hidden.not_assigns (hf : f.Hidden) : ¬ r.Assigns f := by
  intro h
  have hfields : ∃ e names, f ∈ Builder.updateFields e names := by
    cases r with
    | update e => exact ⟨e, none, h⟩
    | updateProperties e names => exact ⟨e, some names, h⟩
    | batch steps =>
      obtain ⟨step, _, _, hm⟩ := h
      exact ⟨step.entity, none, hm⟩
    | _ => exact absurd h id
  obtain ⟨e, names, hm⟩ := hfields
  have hupdatable := List.of_mem_filter (List.mem_of_mem_filter hm)
  simp [hf.updatable] at hupdatable

/-- **A hidden field is named just when the request asks for it.** That is so of a column that no
other field has, outside of the conditions of joins: a statement that writes, a statement by key
and a batch never name it; a filter, an order, an example, a group and a function do when they ask
for it. -/
theorem Builder.hidden_run (h : b.run r = .ok s) (hf : f.Hidden)
    (hc : ∀ e ∈ r.entities, ∀ g ∈ e.fields, g.columnName = f.columnName → g = f) :
    s.sql.RefersTo f.columnName ↔ r.Asks f := by
  constructor
  · intro hrefers
    obtain ⟨e, he, g, hg, hname, huse⟩ := (refersTo_run h _).1 hrefers
    obtain rfl := hc e he g hg hname
    rcases huse with hshows | hasks | hpicks | hassigns
    · exact absurd hshows hf.not_shows
    · exact hasks
    · exact absurd hpicks hf.not_picks
    · exact absurd hassigns hf.not_assigns
  · exact fun hasks => refersTo_of_reads (.inr hasks) h

/-! ### A score that is asked for -/

/-- The score of a customer, which no statement writes or shows. -/
def score : Field := { Field.new "Score" .integer with insertable := false, updatable := false }

/-- A customer with a score. -/
def customer : Entity := ⟨"Customers", [.new "Name" .text, score], .empty⟩

/-- A listing of the rows with a value in a column. -/
def withValue (column value : String) : Listing :=
  { Listing.empty with columns := [⟨column, false, some (.equals value)⟩] }

theorem Builder.hidden_run_score :
    (∃ s, Builder.default.run (.select customer (some (withValue "Name" "Ada"))) = .ok s ∧
      ¬ s.sql.RefersTo score.columnName) ∧
    ∃ s, Builder.default.run (.count customer (some (withValue "Score" "7"))) = .ok s ∧
      s.sql.RefersTo score.columnName := by
  have hscore : score.Hidden := ⟨rfl, rfl, rfl⟩
  have honly : ∀ e ∈ [customer], ∀ g ∈ e.fields, g.columnName = score.columnName → g = score := by
    intro e he g hg hname
    obtain rfl := List.mem_singleton.1 he
    rcases List.mem_cons.1 hg with rfl | hg
    · exact absurd hname (by decide)
    · exact List.mem_singleton.1 hg
  constructor
  · obtain ⟨s, hs⟩ : ∃ s, Builder.default.run
        (.select customer (some (withValue "Name" "Ada"))) = .ok s := ⟨_, rfl⟩
    refine ⟨s, hs, fun hrefers => ?_⟩
    rcases (hidden_run hs hscore honly).1 hrefers with hfilters | ⟨sort, hsort, _⟩
    · -- the only column that is searched is that of the name
      cases hfilters with
      | column hm hn =>
        obtain ⟨rfl, _⟩ := Prod.mk.inj (List.mem_singleton.1 hm)
        have hfield : Field.new "Name" .text = score := Target.field.inj (Option.some.inj hn)
        exact absurd (congrArg Field.name hfield) (by decide)
      | search hsearch => exact absurd hsearch (by simp [withValue, Listing.empty])
    · exact absurd hsort List.not_mem_nil
  · obtain ⟨s, hs⟩ : ∃ s, Builder.default.run
        (.count customer (some (withValue "Score" "7"))) = .ok s := ⟨_, rfl⟩
    refine ⟨s, hs, (hidden_run hs hscore honly).2 ?_⟩
    have hsearched : ("Score", .equals "7") ∈ searchedColumns (withValue "Score" "7") :=
      List.mem_cons_self
    exact .column hsearched rfl

/-- **A hidden field can be asked for**: a filter on the score is answered, and tells which
customers have it. -/
theorem Builder.hidden_score_counted :
    ∃ s, Builder.default.run (.count customer (some (withValue "Score" "7"))) = .ok s ∧
      s.text = "SELECT COUNT(*) AS Total FROM Customers t0 WHERE t0.Score = @p0" ∧
      score ∈ customer.fields ∧ score.Hidden ∧ s.sql.RefersTo score.columnName := by
  refine ⟨_, rfl, by decide +kernel, List.mem_cons_of_mem _ (List.mem_singleton_self _),
    ⟨rfl, rfl, rfl⟩, ?_⟩
  refine ⟨[.text "SELECT ", .text "COUNT(*) AS Total", .text " ", .text "FROM ", .name "Customers",
    .text " t0"] ++ [.text " WHERE "], _, _, rfl, .inl rfl, fun index on h => ?_⟩
  exact absurd (eq_of_joinOpening_suffix _ h) (by decide)

end RecordSql
