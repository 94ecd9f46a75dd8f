import RecordSql.Proofs.Parts

/-!
# Where the pieces of a statement come from

`Supplied b e extra` is the stock of the statements that a builder writes about an entity: fixed
wording and bound values, the columns that a name can stand for, the names that the entity
declares, and the texts of encryption when a field is encrypted. `extra` is what a statement adds
of its own: the aliases that an aggregation makes up, or the variables of a batch.

The parts that statements are woven from are formed from this stock, and so is every statement.
Whatever is asked about single pieces of a statement is answered by going through the constructors
of `Supplied`.
-/

namespace RecordSql

open Checked Text

variable {b : Builder} {e : Entity} {u : Uses} {extra : Piece → Prop} {sql : Sql}

/-- Whether an entity has an encrypted field. -/
def Entity.HasEncrypted (e : Entity) : Prop := ∃ f ∈ e.fields, f.dataType = .encrypted

/-- The stock of statements about an entity. -/
inductive Supplied (b : Builder) (e : Entity) (extra : Piece → Prop) : Piece → Prop where
  | wording {s : String} : Plain s → Supplied b e extra (.text s)
  | binding {x : Binding} : Supplied b e extra (.bind x)
  | field {f : Field} : f ∈ e.fields → Supplied b e extra (.column .root f.columnName)
  | pulled {t : JoinedTable} {c : JoinColumn} : t ∈ e.joinedTables → c ∈ t.join.columns →
      Supplied b e extra (.column t.tableAlias c.source)
  | onColumn {t : JoinedTable} : t ∈ e.joinedTables →
      Supplied b e extra (.column t.tableAlias t.join.onColumn)
  | target {f : Field} : f ∈ e.fields → Supplied b e extra (.target .root f.columnName)
  | name {n : String} : e.Declares n → Supplied b e extra (.name n)
  | decrypt : e.HasEncrypted → Supplied b e extra (.keyed Dialect.decryptOpening)
  | encrypt {keys : EncryptionKeys} : e.HasEncrypted → b.config.encryption = some keys →
      Supplied b e extra (.keyed (Dialect.encryptOpening keys))
  | extra {p : Piece} : extra p → Supplied b e extra p

/-- Parts are formed from the stock: a value inside of one is closed off by the wording after it. -/
theorem Part.formed {a : Sql} (h : Part b e u extra a) : Sql.Formed (Supplied b e extra) a := by
  have hclosing : Sql.Formed (Supplied b e extra) [.text Dialect.encryptionClosing] :=
    .single (.wording (by decide))
  cases h with
  | wording hs => exact .single (.wording hs.1)
  | binding => exact .single .binding
  | name hn => exact .single (.name hn)
  | pulled ht hc => exact .single (.pulled ht hc)
  | plain hf _ _ => exact .single (.field hf)
  | decrypted hf _ he _ => exact .cons (.decrypt ⟨_, hf, he⟩) rfl (.cons (.field hf) rfl hclosing)
  | picked hf _ => exact .single (.field hf)
  | @on t target ht hs _ =>
    have hon : Plain s!" {t.tableAlias.text} ON " :=
      (Plain.append (by decide) (TableAlias.plain_text _)).append (by decide)
    have htarget : Sql.Formed (Supplied b e extra) target.column := by
      cases Entity.reaches_of_joinSource ht hs with
      | field hf => exact .single (.field hf)
      | joined ht hc => exact .single (.pulled ht hc)
    exact .cons (.wording hon) rfl
      (.cons (.onColumn ht) rfl (.cons (.wording (by decide)) rfl htarget))
  | assigned hf _ => exact .single (.target hf)
  | encrypted hf he _ hk =>
    exact .cons (.encrypt ⟨_, hf, he⟩ hk) rfl
      ((Sql.Formed.single .binding).append hclosing fun _ hp => Option.some.inj hp ▸ rfl)
  | extra hp _ => exact .single (.extra hp)

/-! ## Requests -/

/-- The stock of a request: that of each of its entities. -/
def Request.Stock (b : Builder) (r : Request) (p : Piece) : Prop :=
  ∃ e ∈ r.entities, Supplied b e (r.Adds b) p

namespace Builder

/-- **Every body is formed from the stock of its request.** -/
theorem formed_body {r : Request} (h : b.body r = .ok sql) : Sql.Formed (r.Stock b) sql :=
  (woven_body h).formed fun _ ⟨e, he, ha⟩ => ha.formed.mono fun _ _ hp => ⟨e, he, hp⟩

/-- What holds of wording that calls nothing, of the labels asked for, and of texts that are put
together from such, holds of every name that an aggregate makes up. -/
theorem forall_madeUp {a : Aggregation} {source : AggregateSource} {P : String → Prop}
    (hflat : ∀ s, Flat s → P s) (happend : ∀ s t, P s → P t → P (s ++ t))
    (hc : e.check = .ok ()) (hl : ∀ label ∈ a.columns.filterMap AggregateColumn.label, P label)
    (h : b.aggregateBody e a source = .ok sql) : ∀ n ∈ a.madeUp, P n := by
  intro n hn
  rcases List.mem_append.1 hn with hn | hn
  · -- the mark of a rollup is a declared name with an ending
    rw [Option.mem_toList, Option.map_eq_some_iff] at hn
    obtain ⟨name, hr, rfl⟩ := hn
    have hname := flat_of_check ((Aggregation.declares_rollup h hr).check hc)
    exact happend _ _ (hflat _ hname) (hflat _ (by decide))
  · -- an alias is the label it was given, or the default, and may have a number
    obtain ⟨c, hm, hname⟩ := exists_left_of_forall₂ a.resolvedAliases_forall₂ hn
    have hlabel : P c.aliasOrDefault := by
      unfold AggregateColumn.aliasOrDefault
      cases hcl : c.label with
      | none => exact hflat _ (by decide)
      | some label => exact hl label (List.mem_filterMap.2 ⟨c, hm, hcl⟩)
    rcases hname with rfl | ⟨k, rfl⟩
    · exact hlabel
    · exact happend _ _ hlabel (hflat _ (flat_nat k))

/-- The same holds of every name that a request adds. -/
theorem forall_adds {r : Request} {P : String → Prop} (hflat : ∀ s, Flat s → P s)
    (happend : ∀ s t, P s → P t → P (s ++ t)) (hc : ∀ e ∈ r.entities, e.check = .ok ())
    (hl : ∀ label ∈ r.functionAliases, P label) (h : b.body r = .ok sql) {n : String}
    (ha : r.Adds b (.name n)) : P n := by
  cases ha with
  | label hn => exact forall_madeUp hflat happend (hc _ (List.mem_singleton.2 rfl)) hl h n hn
  | batch ha => cases ha

/-! ## Finished statements -/

theorem framed_of_plain {s : String} (h : Plain s) : Framed s := fun c hc => .inl (h c hc)

theorem Framed.append {s t : String} (hs : Framed s) (ht : Framed t) : Framed (s ++ t) := by
  intro c hc
  rw [String.toList_append] at hc
  rcases List.mem_append.1 hc with h | h
  · exact hs c h
  · exact ht c h

theorem framed_opening {key certificate : String} (hk : Framed key) (hc : Framed certificate) :
    Framed s!"OPEN SYMMETRIC KEY {key} DECRYPTION BY CERTIFICATE {certificate};\n" :=
  (((Framed.append (by decide) hk).append (by decide)).append hc).append (by decide)

theorem framed_closing {key : String} (hk : Framed key) :
    Framed s!";\nCLOSE SYMMETRIC KEY {key};" :=
  (Framed.append (by decide) hk).append (by decide)

/-- The name of a key stands in brackets, which no identifier has. -/
theorem framed_quote {name : String} (h : Identifier.check name = .ok ()) :
    Framed (Dialect.sqlServer.quote name) := by
  intro c hc
  unfold Dialect.quote quoteIdentifier at hc
  rw [String.toList_ofList] at hc
  rcases mem_between hc with rfl | hm | rfl
  · decide
  · exact .inl (plain_of_check h c hm)
  · decide

end Builder

/-- The stock of a finished statement has the frames of an open key as well. -/
def Request.Finished (b : Builder) (r : Request) (p : Piece) : Prop :=
  r.Stock b p ∨ ∃ s, Builder.Framed s ∧ p = .text s

/-- **Every answer is formed from the stock of its request**, if the names of the key are
identifiers. -/
theorem Builder.formed_run {r : Request} {s : Statement} (hc : b.config.check = .ok ())
    (h : b.run r = .ok s) : Sql.Formed (r.Finished b) s.sql := by
  refine (woven_run h).formed ?_
  rintro a (⟨e, he, ha⟩ | ⟨keys, hk, ha⟩)
  · exact ha.formed.mono fun _ _ hp => .inl ⟨e, he, hp⟩
  · obtain ⟨_, hkey, hcertificate⟩ := Config.check_eq_ok.1 hc keys hk
    -- the statement stands between two frames
    rcases ha with rfl | rfl
    · have hopening := framed_opening (framed_quote hkey) (framed_quote hcertificate)
      exact .single (.inr ⟨_, hopening, rfl⟩)
    · exact .single (.inr ⟨_, framed_closing (framed_quote hkey), rfl⟩)

end RecordSql
