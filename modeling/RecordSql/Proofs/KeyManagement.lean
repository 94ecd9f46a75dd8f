import RecordSql.Proofs.Columns
import RecordSql.Proofs.SinkAnswers
import RecordSql.Proofs.WrittenRows

/-!
# A key is open around what needs it

A statement with an expression that decrypts or encrypts stands between two lines, which open and
close the key of the settings. Every other statement stands by itself.

* Whether a statement needs the key is kept by the sink that it is written along with. The sink is
  marked just when a piece that needs the key stands in the statement, and such pieces show in its
  text as whole expressions.
* The lines of a statement are easy to tell: only a batch has more than one, and each of them starts
  with a command of its own, which is none that opens or closes a key. So the two lines are the only
  ones that do.
-/

namespace RecordSql

open Text Checked

variable {b : Builder} {e : Entity} {r : Request} {s : Statement} {sql : Sql} {style : Style}
  {extra : Piece → Prop}

/-! ## Lines -/

namespace Text

/-- The commands that open and close a key. -/
def keyCommands : List String := ["OPEN SYMMETRIC KEY ", "CLOSE SYMMETRIC KEY "]

/-- A line that opens or closes a key. -/
def ManagesKey (line : List Char) : Prop := ∃ command ∈ keyCommands, command.toList <+: line

/-- A text without such a line. -/
def Unmanaged (text : List Char) : Prop := ∀ line ∈ pieces '\n' text, ¬ ManagesKey line

/-- Wording that starts neither command, and that neither command starts. -/
def Heads (s : String) : Prop :=
  ∀ command ∈ keyCommands, ¬ command.toList <+: s.toList ∧ ¬ s.toList <+: command.toList

instance (s : String) : Decidable (Heads s) := List.decidableBAll _ keyCommands

variable {text line : List Char} {s : String}

theorem Heads.not_managesKey (h : Heads s) (hs : s.toList <+: line) : ¬ ManagesKey line := by
  rintro ⟨command, hm, hc⟩
  obtain ⟨hcs, hsc⟩ := h command hm
  rcases List.prefix_or_prefix_of_prefix hc hs with h | h
  · exact hcs h
  · exact hsc h

theorem newline_not_mem_command : ∀ command ∈ keyCommands, '\n' ∉ command.toList := by decide

theorem unmanaged_iff :
    Unmanaged text ↔ ∀ command ∈ keyCommands, ¬ '\n' :: command.toList <:+: '\n' :: text := by
  unfold Unmanaged ManagesKey
  constructor
  · intro h command hm hi
    obtain ⟨line, hline, hc⟩ := (exists_pieces_prefix_iff (newline_not_mem_command _ hm)).2 hi
    exact h line hline ⟨command, hm, hc⟩
  · rintro h line hline ⟨command, hm, hc⟩
    refine h command hm ?_
    exact (exists_pieces_prefix_iff (newline_not_mem_command _ hm)).1 ⟨line, hline, hc⟩

/-- A text of one line. -/
theorem unmanaged_of_not_mem (hn : '\n' ∉ text) (h : ¬ ManagesKey text) : Unmanaged text := by
  intro line hline
  rw [pieces_of_not_mem hn, List.mem_singleton] at hline
  exact hline ▸ h

theorem Unmanaged.of_start {part : List Char} (h : Unmanaged text) (hp : part <+: text) :
    Unmanaged part := by
  rw [unmanaged_iff] at h ⊢
  intro command hm hi
  exact h command hm (hi.trans ((List.prefix_cons_inj _).2 hp).isInfix)

theorem Unmanaged.append_semicolon (h : Unmanaged text) : Unmanaged (text ++ [';']) := by
  rw [unmanaged_iff] at h ⊢
  intro command hm hi
  have hsep : ∀ command ∈ keyCommands, ';' ∉ '\n' :: command.toList := by decide
  rw [← List.cons_append, infix_append_sep (List.cons_ne_nil _ _) (hsep command hm)] at hi
  rcases hi with hi | hi
  · exact h command hm hi
  · exact absurd (List.infix_nil.1 hi) (List.cons_ne_nil _ _)

end Text

/-! ## Bodies of one line -/

/-- A piece without a line break. -/
def Piece.Unbroken (style : Style) (p : Piece) : Prop := ∀ n, '\n' ∉ (p.write style n).toList

theorem Piece.unbroken_text {s : String} (h : '\n' ∉ s.toList) : (Piece.text s).Unbroken style :=
  fun _ => h

theorem Text.Plain.newline_not_mem {s : String} (h : Plain s) : '\n' ∉ s.toList :=
  fun hm => absurd (h _ hm) (by decide)

/-- Only what a statement adds of its own can break a line. -/
theorem Supplied.unbroken {p : Piece} (hc : b.config.check = .ok ()) (hb : p.Bare b.style)
    (hx : extra p → p.Unbroken b.style) (h : Supplied b e extra p) : p.Unbroken b.style := by
  intro n
  cases h with
  | wording hs => exact hs.newline_not_mem
  | decrypt _ =>
    have hopening : Plain Dialect.decryptOpening := by decide
    exact hopening.newline_not_mem
  | encrypt _ hk =>
    exact (Builder.plain_encryptOpening (Config.check_eq_ok.1 hc _ hk).2.1).newline_not_mem
  | extra hp => exact hx hp n
  | _ => exact (hb rfl n).2

namespace Sql

/-- SQL that starts with a command, which is none that opens or closes a key. -/
def Heads (sql : Sql) : Prop := ∃ s rest, sql = .text s :: rest ∧ Text.Heads s

/-- SQL that is written in one line, which neither opens nor closes a key. -/
structure OneLine (style : Style) (sql : Sql) : Prop where
  /-- It starts with a command. -/
  heads : sql.Heads
  /-- No piece has a line break. -/
  unbroken : ∀ p ∈ sql, p.Unbroken style

namespace OneLine

theorem newline_not_mem (h : OneLine style sql) (n : Nat) : '\n' ∉ charsFrom style n sql := by
  intro hm
  obtain ⟨p, hp, k, hk⟩ := exists_of_mem_charsFrom hm
  exact h.unbroken p hp k hk

theorem not_managesKey (h : OneLine style sql) (n : Nat) :
    ¬ ManagesKey (charsFrom style n sql) := by
  obtain ⟨s, rest, rfl, hs⟩ := h.heads
  refine hs.not_managesKey ?_
  rw [charsFrom_of_binding?_none rfl]
  exact List.prefix_append _ _

theorem text {rest : Sql} (s : String) (hs : Text.Heads s ∧ '\n' ∉ s.toList)
    (h : ∀ p ∈ rest, p.Unbroken style) : OneLine style (.text s :: rest) :=
  ⟨⟨s, rest, rfl, hs.1⟩, List.forall_mem_cons.2 ⟨Piece.unbroken_text hs.2, h⟩⟩

theorem append {rest : Sql} (hs : OneLine style sql) (h : ∀ p ∈ rest, p.Unbroken style) :
    OneLine style (sql ++ rest) := by
  obtain ⟨s, tail, rfl, hhead⟩ := hs.heads
  exact ⟨⟨s, tail ++ rest, rfl, hhead⟩, List.forall_mem_append.2 ⟨hs.unbroken, h⟩⟩

end OneLine

/-- What holds of the separator and of all parts holds of the whole. -/
theorem forall_mem_joined {P : Piece → Prop} {separator : String} {parts : List Sql}
    (hs : P (.text separator)) (h : ∀ part ∈ parts, ∀ p ∈ part, P p) :
    ∀ p ∈ joined separator parts, P p :=
  joined_induction (P := fun sql => ∀ p ∈ sql, P p) (List.forall_mem_nil _)
    (fun _ _ ha hc => List.forall_mem_append.2 ⟨ha, List.forall_mem_cons.2 ⟨hs, hc⟩⟩) h

/-- Lines that are joined keep to their lines. -/
theorem unmanaged_joined {parts : List Sql} (h : ∀ part ∈ parts, OneLine style part) (n : Nat) :
    Unmanaged (charsFrom style n (joined "\n" parts)) := by
  induction parts generalizing n with
  | nil =>
    have hcommand : ∀ command ∈ keyCommands, command.toList ≠ [] := by decide
    refine unmanaged_of_not_mem List.not_mem_nil ?_
    rintro ⟨command, hm, hc⟩
    exact hcommand command hm (List.prefix_nil.1 hc)
  | cons part rest ih =>
    obtain ⟨hpart, hrest⟩ := List.forall_mem_cons.1 h
    cases rest with
    | nil => exact unmanaged_of_not_mem (hpart.newline_not_mem n) (hpart.not_managesKey n)
    | cons next rest =>
      intro line hline
      rw [joined, charsFrom_between] at hline
      · have hbreak : "\n".toList = ['\n'] := by decide
        rw [hbreak, List.singleton_append, pieces_append (hpart.newline_not_mem n)] at hline
        rcases List.mem_cons.1 hline with rfl | hline
        · exact hpart.not_managesKey n
        · exact ih hrest _ line hline
      · exact List.cons_ne_nil _ _

end Sql

namespace Builder

theorem heads_insertBody {links : Links} {handling : KeyHandling}
    (h : b.insertBody e links handling = .ok sql) : sql.Heads := by
  obtain ⟨_, _, _, rfl⟩ := insertBody_eq_ok.1 h
  have hinsert : Text.Heads "INSERT INTO " := by decide
  unfold Dialect.insert
  split <;> exact ⟨_, _, rfl, hinsert⟩

theorem heads_updateBody {names : Option (List String)} {links : Links}
    (h : b.updateBody e names links = .ok sql) : sql.Heads := by
  obtain ⟨_, _, _, _, _, _, rfl⟩ := updateBody_eq_ok.1 h
  have hupdate : Text.Heads "UPDATE " := by decide
  cases b.dialect with
  | sqlServer => exact ⟨_, _, rfl, hupdate⟩
  | oracle => exact ⟨_, _, rfl, hupdate⟩

theorem heads_deleteBody {links : Links} (h : b.deleteBody e links = .ok sql) : sql.Heads := by
  obtain ⟨_, _, rfl⟩ := deleteBody_eq_ok.1 h
  cases b.dialect with
  | sqlServer => exact ⟨"DELETE ", _, rfl, by decide⟩
  | oracle => exact ⟨"DELETE FROM ", _, rfl, by decide⟩

theorem heads_plainSelect (select : PagedSelect) : (plainSelect select).Heads :=
  ⟨"SELECT ", _, rfl, by decide⟩

/-- A body about one entity starts with its command. -/
theorem heads_body (hr : ∀ steps, r ≠ .batch steps) (h : b.body r = .ok sql) : sql.Heads := by
  cases r with
  | select e l =>
    obtain ⟨_, _, _, _, _, _, _, _, h⟩ := selectBody_eq_ok.1 h
    rcases pagedSelect_eq_ok.1 h with ⟨_, rfl⟩ | ⟨_, _, w, _, _, _, rfl⟩
    · exact heads_plainSelect _
    · cases b.dialect with
      | sqlServer => exact ⟨"SELECT * FROM (SELECT ", _, rfl, by decide⟩
      | oracle => exact ⟨"SELECT ", _, rfl, by decide⟩
  | count e l =>
    obtain ⟨_, _, _, _, rfl⟩ := countBody_eq_ok.1 h
    exact heads_plainSelect _
  | selectByKey e =>
    obtain ⟨_, _, _, _, _, _, rfl⟩ := selectByKeyBody_eq_ok.1 h
    exact heads_plainSelect _
  | selectByExample e combinator =>
    obtain ⟨_, _, _, _, _, _, rfl⟩ := selectByExampleBody_eq_ok.1 h
    exact heads_plainSelect _
  | insert e => exact heads_insertBody h
  | update e => exact heads_updateBody h
  | updateProperties e names => exact heads_updateBody h
  | delete e => exact heads_deleteBody h
  | aggregate e a source =>
    obtain ⟨_, _, _, _, _, _, _, _, _, _, _, _, _, rfl⟩ := aggregateBody_eq_ok.1 h
    exact ⟨"SELECT ", _, rfl, by decide⟩
  | batch steps => exact absurd rfl (hr steps)

theorem oneLine_body (hr : ∀ steps, r ≠ .batch steps) (hk : b.config.check = .ok ())
    (hc : ∀ e ∈ r.entities, e.check = .ok ())
    (hl : ∀ label ∈ r.functionAliases, Identifier.check label = .ok ()) (h : b.body r = .ok sql) :
    sql.OneLine b.style := by
  refine ⟨heads_body hr h, fun p hp => ?_⟩
  have hbare := bare_stock hc hl h hp
  obtain ⟨e, _, hs⟩ := (formed_body h).stock p hp
  refine hs.unbroken hk hbare fun ha => ?_
  cases ha with
  | label _ => exact fun n => (hbare rfl n).2
  | batch _ => exact absurd rfl (hr _)

/-! ## Batches, line by line -/

/-- A step of a batch is one line. -/
theorem oneLine_stepBody {steps : List BatchStep} {step : BatchStep} {index : Nat}
    (hk : b.config.check = .ok ()) (hm : step ∈ steps)
    (h : b.stepBody (b.keyVariables steps) step index = .ok sql) : sql.OneLine b.style := by
  obtain ⟨hc, links, _, hbody⟩ := stepBody_eq_ok.1 h
  constructor
  · rcases hbody with ⟨_, h⟩ | ⟨_, h⟩ | ⟨_, h⟩
    · exact heads_insertBody h
    · exact heads_updateBody h
    · exact heads_deleteBody h
  · intro p hp
    have hs := ((woven_stepBody hm h).formed fun _ ha => ha.formed).stock p hp
    have hbare := hs.bare hc fun _ ha => bare_batchAdds ha.batchAdds
    refine hs.unbroken hk hbare fun ha => ?_
    cases ha with
    | kept _ => exact fun n => (hbare rfl n).2
    | capture => exact Piece.unbroken_text (by decide)

theorem unbroken_templateVariable {steps : List BatchStep} {v : BatchVariable}
    (h : v ∈ b.templateVariables steps) :
    (Piece.variable v.name).Unbroken b.style ∧ '\n' ∉ (Dialect.bareName v.name).toList ∧
      ∀ output ∈ v.output, ∀ p ∈ output, p.Unbroken b.style := by
  obtain ⟨p, hp, rfl⟩ := List.mem_map.1 h
  obtain ⟨k, hk⟩ := keyVariablesFrom_names p hp
  refine ⟨fun _ => ?_, ?_, fun output ho p hp n => ?_⟩
  · have hname := (bare_batchVariable b.dialect k).2
    rw [← hk] at hname
    exact hname
  · have hname := (flat_bareName b.dialect k).1.newline_not_mem
    rw [← hk] at hname
    exact hname
  · unfold batchVariable at ho
    dsimp only at ho
    split at ho
    · obtain rfl := Option.some.inj ho
      obtain rfl := List.mem_singleton.1 hp
      exact (bare_placeholder b.dialect n).2
    · exact absurd ho (by simp)

/-- Every line of a batch is one. -/
theorem oneLine_batchLines {steps : List BatchStep} {fragments : List Sql}
    (hf : ∀ fragment ∈ fragments, Sql.OneLine b.style fragment) :
    ∀ line ∈ b.dialect.batchLines ⟨b.templateVariables steps, fragments⟩,
      Sql.OneLine b.style line := by
  have hvar := fun v (hv : v ∈ b.templateVariables steps) => unbroken_templateVariable hv
  have hsemicolon : ∀ p ∈ [Piece.text ";"], p.Unbroken b.style :=
    List.forall_mem_singleton.2 (Piece.unbroken_text (by decide))
  have hwording : ∀ s : String, Text.Heads s ∧ '\n' ∉ s.toList → Sql.OneLine b.style [.text s] :=
    fun s hs => .text s hs (List.forall_mem_nil _)
  have htransaction : ∀ s ∈ ["SET XACT_ABORT ON;", "BEGIN TRANSACTION;", "COMMIT TRANSACTION;"],
      Text.Heads s ∧ '\n' ∉ s.toList := by decide
  have hblock : ∀ s ∈ ["DECLARE", "BEGIN", "  COMMIT;", "END;"],
      Text.Heads s ∧ '\n' ∉ s.toList := by decide
  have hdeclared : ∀ (s t : String) v, v ∈ b.templateVariables steps →
      Text.Heads s ∧ '\n' ∉ s.toList → '\n' ∉ t.toList →
        Sql.OneLine b.style [.text s, .variable v.name, .text t] := fun s t v hv hs ht =>
    .text s hs (List.forall_mem_cons.2
      ⟨(hvar v hv).1, List.forall_mem_singleton.2 (Piece.unbroken_text ht)⟩)
  intro line hl
  have hline := batchLine_of_mem hl
  generalize b.dialect = d at hline
  cases hline with
  | transaction hs => exact hwording _ (htransaction _ hs)
  | block hs => exact hwording _ (hblock _ hs)
  | bigint hv => exact hdeclared _ _ _ hv (by decide) (by decide)
  | number hv => exact hdeclared _ _ _ hv (by decide) (by decide)
  | ended hm => exact (hf _ hm).append hsemicolon
  | indented hm =>
    exact (Sql.OneLine.text "  " (by decide) (hf _ hm).unbroken).append hsemicolon
  | selected =>
    refine (Sql.OneLine.text "SELECT " (by decide) ?_).append hsemicolon
    refine Sql.forall_mem_joined (Piece.unbroken_text (by decide)) fun part hp => ?_
    obtain ⟨v, hv, rfl⟩ := List.mem_map.1 hp
    have has : '\n' ∉ (s!" AS {Dialect.bareName v.name}").toList := by
      show '\n' ∉ (" AS " ++ Dialect.bareName v.name).toList
      rw [String.toList_append, List.mem_append, not_or]
      exact ⟨by decide, (hvar v hv).2.1⟩
    exact List.forall_mem_cons.2
      ⟨(hvar v hv).1, List.forall_mem_singleton.2 (Piece.unbroken_text has)⟩
  | handedOut hv ho =>
    refine (Sql.OneLine.text "  " (by decide) ((hvar _ hv).2.2 _ ho)).append ?_
    exact List.forall_mem_cons.2 ⟨Piece.unbroken_text (by decide),
      List.forall_mem_cons.2 ⟨(hvar _ hv).1, hsemicolon⟩⟩

/-- **No line of a body opens or closes a key.** -/
theorem unmanaged_body (hk : b.config.check = .ok ()) (hc : ∀ e ∈ r.entities, e.check = .ok ())
    (hl : ∀ label ∈ r.functionAliases, Identifier.check label = .ok ()) (h : b.body r = .ok sql) :
    Unmanaged (Sql.charsFrom b.style 0 sql) := by
  by_cases hr : ∃ steps, r = .batch steps
  · obtain ⟨steps, rfl⟩ := hr
    obtain ⟨_, _, fragments, hfragments, rfl⟩ := batchBody_eq_ok.1 h
    refine Sql.unmanaged_joined (oneLine_batchLines fun fragment hm => ?_) 0
    obtain ⟨⟨step, index⟩, hmem, hstep⟩ := exists_of_mem_mapM hfragments hm
    exact oneLine_stepBody hk (List.fst_mem_of_mem_zipIdx hmem) hstep
  · have hone := oneLine_body (fun steps hs => hr ⟨steps, hs⟩) hk hc hl h
    exact unmanaged_of_not_mem (hone.newline_not_mem 0) (hone.not_managesKey 0)

end Builder

/-! ## Wrapped statements -/

namespace EncryptionKeys

/-- The line that opens the key, by its certificate. -/
def openLine (keys : EncryptionKeys) : String :=
  "OPEN SYMMETRIC KEY " ++ Dialect.sqlServer.quote keys.keyName ++
    " DECRYPTION BY CERTIFICATE " ++ Dialect.sqlServer.quote keys.certificateName ++ ";"

/-- The line that closes the key. -/
def closeLine (keys : EncryptionKeys) : String :=
  "CLOSE SYMMETRIC KEY " ++ Dialect.sqlServer.quote keys.keyName ++ ";"

end EncryptionKeys

/-- What is written for a request stands between the lines that open and close a key. -/
structure Builder.WrappedBy (b : Builder) (r : Request) (a : Answer) (keys : EncryptionKeys) :
    Prop where
  /-- The key is that of the settings. -/
  configured : b.config.encryption = some keys
  /-- All that is written is in between, the semicolons at its end apart. -/
  whole : ∃ text σ inner count, (b.writeBody r).run (.new b.dialect) = .ok (text, σ) ∧
    text = inner ++ String.ofList (List.replicate count ';') ∧
    a.text = keys.openLine ++ "\n" ++ inner ++ ";\n" ++ keys.closeLine
  /-- The two lines are the first and the last one, and no other line opens or closes a key. -/
  lines : ∃ between,
    pieces '\n' a.text.toList = keys.openLine.toList :: between ++ [keys.closeLine.toList] ∧
      ∀ line ∈ between, ¬ ManagesKey line

/-- What is written for a request stands by itself, and neither opens a key nor needs one. -/
structure Builder.Unwrapped (b : Builder) (r : Request) (a : Answer) : Prop where
  /-- There is nothing but what is written. -/
  whole : ∃ σ, (b.writeBody r).run (.new b.dialect) = .ok (a.text, σ)
  /-- No line opens or closes a key. -/
  lines : Unmanaged a.text.toList
  /-- No function is called that needs an open key. -/
  keyless : Text.Keyless a.text

namespace Dialect

variable (keys : EncryptionKeys)

theorem keyOpening_eq : keyOpening keys = keys.openLine ++ "\n" := by
  have hend : ∀ s : String, s ++ ";\n" = s ++ ";" ++ "\n" := by
    intro s
    rw [String.append_assoc]
    exact congrArg (s ++ ·) (by decide)
  exact hend _

theorem keyClosing_eq : keyClosing keys = ";\n" ++ keys.closeLine := by
  have hstart : ";\n" ++ "CLOSE SYMMETRIC KEY " = ";\nCLOSE SYMMETRIC KEY " := by decide
  unfold EncryptionKeys.closeLine
  rw [← String.append_assoc, ← String.append_assoc, hstart]
  rfl

end Dialect

namespace EncryptionKeys

variable {keys : EncryptionKeys}

theorem managesKey_openLine : ManagesKey keys.openLine.toList := by
  refine ⟨"OPEN SYMMETRIC KEY ", List.mem_cons_self, ?_⟩
  unfold openLine
  rw [String.toList_append, String.toList_append, String.toList_append,
    String.toList_append, List.append_assoc, List.append_assoc, List.append_assoc]
  exact List.prefix_append _ _

/-- A quoted identifier stays in its line. -/
theorem bare_quote {name : String} (h : Identifier.check name = .ok ()) :
    Bare (Dialect.sqlServer.quote name) := by
  show Bare (Style.identifier ⟨.sqlServer, true⟩ name)
  exact Style.bare_identifier (flat_of_check h).bare

theorem newline_not_mem_openLine (hk : Identifier.check keys.keyName = .ok ())
    (hc : Identifier.check keys.certificateName = .ok ()) : '\n' ∉ keys.openLine.toList :=
  ((((Bare.append (by decide) (bare_quote hk)).append (by decide)).append
    (bare_quote hc)).append (by decide)).2

theorem newline_not_mem_closeLine (hk : Identifier.check keys.keyName = .ok ()) :
    '\n' ∉ keys.closeLine.toList :=
  ((Bare.append (by decide) (bare_quote hk)).append (by decide)).2

end EncryptionKeys

namespace Builder

/-- **What is marked stands in the text**: a body needs the key just when an expression of its text
does. -/
theorem needsKey_iff (hc : ∀ e ∈ r.entities, e.check = .ok ())
    (hl : ∀ label ∈ r.functionAliases, Identifier.check label = .ok ()) (h : b.body r = .ok sql) :
    sql.needsKey = true ↔
      ∃ expression, b.KeyExpression expression ∧
        expression.toList <:+: (sql.write b.style).toList := by
  rw [Sql.write, String.toList_ofList]
  constructor
  · intro hn
    obtain ⟨expression, hexpression, hinfix⟩ := exists_keyExpression h hn
    obtain ⟨count, hcount⟩ := sql.exists_charsFrom_withoutSemicolons b.style 0
    refine ⟨expression, hexpression, ?_⟩
    rw [hcount]
    exact hinfix.trans (List.prefix_append _ _).isInfix
  · rintro ⟨expression, hexpression, hinfix⟩
    by_contra hn
    rw [Bool.not_eq_true] at hn
    refine keyless_body hc hl h hn 0 (hexpression.calls.trans hinfix)

/-- The text of a wrapped statement. -/
theorem text_wrapped (b : Builder) (sql : Sql) (keys : EncryptionKeys) :
    Statement.text ⟨.text (Dialect.keyOpening keys) :: sql.withoutSemicolons ++
        [.text (Dialect.keyClosing keys)], b.style⟩ =
      keys.openLine ++ "\n" ++ String.ofList (Sql.charsFrom b.style 0 sql.withoutSemicolons) ++
        ";\n" ++ keys.closeLine := by
  rw [Statement.text, Sql.write, Sql.charsFrom_wrapped, Dialect.keyOpening_eq,
    Dialect.keyClosing_eq, String.ofList_append, String.ofList_append, String.ofList_toList,
    String.ofList_toList]
  simp only [String.append_assoc]

/-- A statement that needs a key is wrapped by that of the settings. -/
theorem wrappedBy_of_needsKey {keys : EncryptionKeys} {σ : Sink} (hk : b.config.check = .ok ())
    (hkeys : b.config.encryption = some keys)
    (hwritten : (b.writeBody r).run (.new b.dialect) = .ok (sql.write b.style, σ))
    (hmanaged : Unmanaged (Sql.charsFrom b.style 0 sql)) :
    b.WrappedBy r (Statement.answer ⟨.text (Dialect.keyOpening keys) :: sql.withoutSemicolons ++
      [.text (Dialect.keyClosing keys)], b.style⟩) keys := by
  obtain ⟨_, hkey, hcertificate⟩ := Config.check_eq_ok.1 hk keys hkeys
  obtain ⟨count, hcount⟩ := sql.exists_charsFrom_withoutSemicolons b.style 0
  have htext := text_wrapped b sql keys
  generalize Sql.charsFrom b.style 0 sql.withoutSemicolons = inner at hcount htext
  refine ⟨hkeys, ⟨_, σ, String.ofList inner, count, hwritten, ?_, htext⟩,
    pieces '\n' (inner ++ [';']), ?_, ?_⟩
  · rw [Sql.write, hcount, String.ofList_append]
  · have hchars : (keys.openLine ++ "\n" ++ String.ofList inner ++ ";\n" ++ keys.closeLine).toList =
        keys.openLine.toList ++ '\n' :: ((inner ++ [';']) ++ '\n' :: keys.closeLine.toList) := by
      have hbreaks : "\n".toList = ['\n'] ∧ ";\n".toList = [';', '\n'] := by decide
      simp only [String.toList_append, String.toList_ofList, hbreaks, List.append_assoc,
        List.cons_append, List.nil_append]
    rw [Statement.answer, htext, hchars,
      pieces_append (EncryptionKeys.newline_not_mem_openLine hkey hcertificate),
      pieces_append_cons, pieces_of_not_mem (EncryptionKeys.newline_not_mem_closeLine hkey)]
    rfl
  · have hprefix : inner <+: Sql.charsFrom b.style 0 sql := hcount ▸ List.prefix_append _ _
    exact (hmanaged.of_start hprefix).append_semicolon

/-- **An answer is wrapped just when its text has an expression that needs the key.** It then has
all that is written between the two lines of the configured key. Every other answer is what is
written, and calls nothing that needs a key; no Oracle answer is wrapped. The sink that goes along
is marked at the end just when such an expression stands in what is written. -/
theorem wrapped_answer {a : Answer} (hk : b.config.check = .ok ())
    (hl : ∀ label ∈ r.functionAliases, Identifier.check label = .ok ()) (h : b.answer r = .ok a) :
    ((∃ keys, b.WrappedBy r a keys) ↔
        ∃ expression, b.KeyExpression expression ∧ expression.toList <:+: a.text.toList) ∧
      ((∃ keys, b.WrappedBy r a keys) ∨ b.Unwrapped r a) ∧
      (b.dialect = .oracle → ¬ ∃ keys, b.WrappedBy r a keys) ∧
      ∃ text σ, (b.writeBody r).run (.new b.dialect) = .ok (text, σ) ∧
        (σ.usesEncryption = true ↔
          ∃ expression, b.KeyExpression expression ∧ expression.toList <:+: text.toList) := by
  obtain ⟨sql, s, hc, hbody, hwritten, hfinish, rfl⟩ := written_of_answer h
  have hmanaged := unmanaged_body hk hc hl hbody
  have hmarked := needsKey_iff hc hl hbody
  rcases finish_cases hfinish with ⟨hn, rfl⟩ | ⟨hn, hd, keys, hkeys, rfl⟩
  · -- nothing needs a key, and nothing is wrapped
    have hkeyless : Text.Keyless (sql.write b.style) := by
      rw [keyless_iff, Sql.write, String.toList_ofList]
      exact keyless_body hc hl hbody hn 0
    have hunmanaged : Unmanaged (sql.write b.style).toList := by
      rw [Sql.write, String.toList_ofList]
      exact hmanaged
    have hunwrapped : ¬ ∃ keys, b.WrappedBy r (Statement.answer ⟨sql, b.style⟩) keys := by
      rintro ⟨keys, hwrapped⟩
      obtain ⟨between, hlines, _⟩ := hwrapped.lines
      refine hunmanaged keys.openLine.toList ?_ keys.managesKey_openLine
      rw [show sql.write b.style = (Statement.answer ⟨sql, b.style⟩).text from rfl, hlines]
      exact List.mem_cons_self
    refine ⟨iff_of_false hunwrapped fun hexpression => ?_,
      .inr ⟨⟨_, hwritten⟩, hunmanaged, hkeyless⟩, fun _ => hunwrapped, _, _, hwritten, hmarked⟩
    exact absurd (hn.symm.trans (hmarked.2 hexpression)) (by simp)
  · have hwrapped := wrappedBy_of_needsKey hk hkeys hwritten hmanaged
    obtain ⟨expression, hexpression, hinfix⟩ := exists_keyExpression hbody hn
    refine ⟨iff_of_true ⟨keys, hwrapped⟩ ⟨expression, hexpression, hinfix.trans ?_⟩,
      .inl ⟨keys, hwrapped⟩, fun ho => absurd (hd.symm.trans ho) (by simp), _, _, hwritten,
      hmarked⟩
    rw [Statement.answer, text_wrapped, String.toList_append, String.toList_append,
      String.toList_append, String.toList_ofList, List.append_assoc]
    exact List.infix_append _ _ _

theorem wrapped_answer_note :
    (∃ a, noteBuilder.answer (.batch [order, ⟨.insert, note, []⟩]) = .ok a ∧
      ∃ keys, noteBuilder.WrappedBy (.batch [order, ⟨.insert, note, []⟩]) a keys) ∧
    ∃ a, (ofConfig (.new .oracle)).answer (.delete account) = .ok a ∧
      (ofConfig (.new .oracle)).Unwrapped (.delete account) a := by
  constructor
  · obtain ⟨sql, hbody, hneeds, s, hfinish⟩ : ∃ sql,
        noteBuilder.body (.batch [order, ⟨.insert, note, []⟩]) = .ok sql ∧ sql.needsKey = true ∧
          ∃ s, noteBuilder.finish sql = .ok s := ⟨_, rfl, rfl, _, rfl⟩
    have ha : noteBuilder.answer (.batch [order, ⟨.insert, note, []⟩]) = .ok s.answer :=
      answer_eq_ok.2 ⟨s, batch_eq_ok.2 ⟨sql, hbody, hfinish⟩, rfl⟩
    obtain ⟨_, hone, _, text, σ, hwritten, hmarked⟩ :=
      wrapped_answer (by decide) (by simp [Request.functionAliases]) ha
    refine ⟨_, ha, hone.resolve_right fun hunwrapped => ?_⟩
    -- the sink is marked, so what is written calls for a key
    obtain ⟨_, hwhole⟩ := hunwrapped.whole
    have hrun := run_writeBody (b := noteBuilder) (.batch [order, ⟨.insert, note, []⟩])
    rw [hwritten] at hwhole
    have hchecked : noteBuilder.checkedBody (.batch [order, ⟨.insert, note, []⟩]) = .ok sql := hbody
    rw [hwritten, hchecked] at hrun
    have hσ : σ.usesEncryption = true :=
      (congrArg (fun out => Sink.usesEncryption out.2) (Except.ok.inj hrun)).trans hneeds
    obtain ⟨expression, hexpression, hinfix⟩ := hmarked.1 hσ
    have htext : text = s.answer.text := congrArg Prod.fst (Except.ok.inj hwhole)
    exact keyless_iff.1 hunwrapped.keyless (hexpression.calls.trans (htext ▸ hinfix))
  · obtain ⟨s, hs⟩ : ∃ s, (ofConfig (.new .oracle)).run (.delete account) = .ok s := ⟨_, rfl⟩
    have ha := answer_eq_ok.2 ⟨s, hs, rfl⟩
    obtain ⟨_, hone, horacle, _⟩ :=
      wrapped_answer (by decide) (by simp [Request.functionAliases]) ha
    exact ⟨_, ha, hone.resolve_left (horacle rfl)⟩

end Builder

end RecordSql
