import RecordSql.Proofs.BatchText
import RecordSql.Proofs.Carrying
import RecordSql.Proofs.SafeNames

/-!
# What a statement needs its key for

A statement opens its key when one of its pieces is marked. In the text that means:

* with a mark, the text has a whole expression that decrypts a column or encrypts a parameter, since
  marks only stand in such parts;
* without one, the text calls no function that needs an open key. No fixed wording does, names and
  placeholders have no parenthesis, and no two neighbours spell such a call across their seam.

So the marks may be forgotten: the text says by itself whether it needs the key.
-/

namespace RecordSql

open Text Checked

variable {b : Builder} {e : Entity} {r : Request} {s : Statement} {a sql : Sql} {style : Style}
  {extra : Piece → Prop}

/-! ## Pieces without wording -/

namespace Text

/-- A text that calls nothing and stays in its line. -/
def Bare (s : String) : Prop := '(' ∉ s.toList ∧ '\n' ∉ s.toList

instance (s : String) : Decidable (Bare s) := inferInstanceAs (Decidable (_ ∧ _))

variable {s t : String}

theorem Flat.bare (h : Flat s) : Bare s :=
  ⟨h.2, fun hm => absurd (h.1 _ hm) (by decide)⟩

theorem Bare.append (hs : Bare s) (ht : Bare t) : Bare (s ++ t) := by
  unfold Bare
  rw [String.toList_append, List.mem_append, List.mem_append, not_or, not_or]
  exact ⟨⟨hs.1, ht.1⟩, hs.2, ht.2⟩

theorem bare_placeholder (d : Dialect) (n : Nat) : Bare (d.placeholder (parameterName n)) := by
  have hname : Flat (parameterName n) := Flat.append (by decide) (flat_nat n)
  cases d with
  | sqlServer => exact Bare.append (by decide) hname.bare
  | oracle => exact Bare.append (by decide) hname.bare

theorem bare_batchVariable (d : Dialect) (k : Nat) : Bare (d.batchVariable k) := by
  cases d with
  | sqlServer => exact Bare.append (s := "@id") (by decide) (flat_nat k).bare
  | oracle => exact Bare.append (s := "v_id") (by decide) (flat_nat k).bare

end Text

namespace Style

theorem bare_identifier {name : String} (h : Bare name) : Bare (style.identifier name) := by
  constructor
  · refine not_mem_identifier h.1 fun d => ?_
    cases d with
    | sqlServer => decide
    | oracle => decide
  · refine not_mem_identifier h.2 fun d => ?_
    cases d with
    | sqlServer => decide
    | oracle => decide

theorem bare_qualified {table : TableAlias} {name : String} (h : Bare name) :
    Bare (style.qualified table name) :=
  (table.flat_text.bare.append (by decide)).append (bare_identifier h)

end Style

theorem Piece.isKeyed_iff {p : Piece} : p.isKeyed = true ↔ ∃ s, p = .keyed s := by
  cases p <;> simp [Piece.isKeyed]

/-- The wording of a piece, marked or not. -/
def Piece.wording? : Piece → Option String
  | .text s | .keyed s => some s
  | _ => none

/-- A piece that is bare, unless it is wording. -/
def Piece.Bare (style : Style) (p : Piece) : Prop :=
  p.wording? = none → ∀ n, Text.Bare (p.write style n)

/-- Names, columns, parameters and variables are bare. -/
theorem Supplied.bare (hc : e.check = .ok ()) (hx : ∀ p, extra p → p.Bare b.style) {p : Piece}
    (h : Supplied b e extra p) : p.Bare b.style := by
  have hname : ∀ {n}, e.Declares n → Text.Bare n := fun hn => (flat_of_check (hn.check hc)).bare
  intro hw n
  cases h with
  | wording _ => exact absurd hw (by simp [Piece.wording?])
  | binding => exact bare_placeholder b.dialect n
  | field hf => exact Style.bare_qualified (hname (.column hf))
  | pulled ht hcol => exact Style.bare_qualified (hname (.pulled ht hcol))
  | onColumn ht => exact Style.bare_qualified (hname (.onColumn ht))
  | target hf => exact Style.bare_qualified (hname (.column hf))
  | name hn => exact Style.bare_identifier (hname hn)
  | decrypt _ => exact absurd hw (by simp [Piece.wording?])
  | encrypt _ _ => exact absurd hw (by simp [Piece.wording?])
  | extra hp => exact hx _ hp hw n

namespace Builder

theorem bare_batchAdds {steps : List BatchStep} {p : Piece} (h : BatchAdds b steps p) :
    p.Bare b.style := by
  intro hw n
  cases h with
  | kept hv =>
    obtain ⟨k, hk⟩ := keyVariablesFrom_names _ hv
    rw [Piece.write, hk]
    exact bare_batchVariable b.dialect k
  | frame _ => exact absurd hw (by simp [Piece.wording?])
  | assign => exact absurd hw (by simp [Piece.wording?])

/-- In a body every piece but wording is bare, when the aliases given are identifiers. -/
theorem bare_stock (hc : ∀ e ∈ r.entities, e.check = .ok ())
    (hl : ∀ label ∈ r.functionAliases, Identifier.check label = .ok ()) (h : b.body r = .ok sql)
    {p : Piece} (hp : p ∈ sql) : p.Bare b.style := by
  obtain ⟨e, hm, hs⟩ := (formed_body h).stock p hp
  refine hs.bare (hc e hm) fun p ha => ?_
  cases p with
  | name n =>
    have hflat : Flat n := forall_adds (fun _ hf => hf) (fun _ _ hs ht => hs.append ht) hc
      (fun label hm => flat_of_check (hl label hm)) h ha
    exact fun _ _ => Style.bare_identifier hflat.bare
  | _ =>
    cases ha with
    | batch ha => exact bare_batchAdds ha

end Builder

/-! ## Calls -/

/-- No seam spells a call: behind one there is no parenthesis, letter or digit, or in front of one
no letter or digit. -/
theorem Text.not_keyCall_append {x y : List Char} (hx : ¬ keyCall <:+: x) (hy : ¬ keyCall <:+: y)
    (hseam : (∀ c ∈ x.getLast?, c.isAlphanum = false) ∨
      ∀ c ∈ y.head?, c.isAlphanum = false ∧ c ≠ '(') : ¬ keyCall <:+: x ++ y := by
  intro h
  rcases List.infix_append_iff.1 h with h | h | ⟨left, right, hsplit, hleft, hright⟩
  · exact hx h
  · exact hy h
  -- the call is cut in two, and both of its ends show at the seam
  cases right with
  | nil =>
    rw [List.append_nil] at hsplit
    exact hx (hsplit ▸ hleft.isInfix)
  | cons d right =>
    have hd : y.head? = some d := by
      obtain ⟨rest, rfl⟩ := hright
      rfl
    rcases List.eq_nil_or_concat left with rfl | ⟨init, c, rfl⟩
    · exact hy (hsplit ▸ hright.isInfix)
    have hlast : x.getLast? = some c := by
      obtain ⟨front, rfl⟩ := hleft
      rw [List.concat_eq_append, ← List.append_assoc, List.getLast?_concat]
    have hends : c.isAlphanum = true ∧ (d.isAlphanum = true ∨ d = '(') := by
      have hpair : [c, d] <:+: keyCall := ⟨init, right, by simp [hsplit]⟩
      simp [keyCall, List.infix_cons_iff] at hpair
      rcases hpair with ⟨rfl, rfl⟩ | ⟨rfl, rfl⟩ | ⟨rfl, rfl⟩ <;> decide
    rcases hseam with hc | hd'
    · exact absurd (hc c hlast) (by simp [hends.1])
    · obtain ⟨hnum, hne⟩ := hd' d hd
      rcases hends.2 with h | h
      · exact absurd hnum (by simp [h])
      · exact hne h

namespace Sql

/-- SQL whose text calls no function that needs an open key. -/
def Keyless (style : Style) (sql : Sql) : Prop := ∀ n, ¬ keyCall <:+: charsFrom style n sql

theorem keyless_text {s : String} (h : Text.Keyless s) : Keyless style [.text s] := by
  intro n
  rw [Dialect.charsFrom_wording]
  exact keyless_iff.1 h

/-- Without a parenthesis nothing is called. -/
theorem keyless_of_not_mem (h : ∀ p ∈ sql, ∀ n, '(' ∉ (p.write style n).toList) :
    Keyless style sql := by
  intro n
  refine not_keyCall_of_not_mem fun hm => ?_
  obtain ⟨p, hp, k, hk⟩ := exists_of_mem_charsFrom hm
  exact h p hp k hk

theorem Trails.head?_charsFrom {n : Nat} (h : Trails sql) :
    ∀ c ∈ (charsFrom style n sql).head?, c.isAlphanum = false ∧ c ≠ '(' := by
  intro c hc
  cases sql with
  | nil => exact absurd hc (by simp [charsFrom])
  | cons p rest =>
    have hp := h p rfl
    cases p with
    | text s =>
      obtain ⟨d, cs, hs, hd⟩ := starts_iff.1 hp
      rw [charsFrom_of_binding?_none rfl, Piece.write, hs] at hc
      exact Option.some.inj hc ▸ hd
    | _ => exact absurd hp (by simp [Piece.starts])

/-- **SQL calls nothing that needs an open key, when none of its parts does.** -/
theorem Woven.keyless {A : Sql → Prop} (h : Woven A sql) (hA : ∀ a, A a → Keyless style a) :
    Keyless style sql := by
  induction h with
  | nil => exact fun _ => not_keyCall_of_not_mem List.not_mem_nil
  | part ha => exact hA _ ha
  | @before s sql hs he _ ih =>
    intro n
    obtain ⟨init, c, hc, hnum⟩ := ends_iff.1 he
    have htext := hA _ hs n
    rw [Dialect.charsFrom_wording] at htext
    rw [charsFrom_of_binding?_none rfl]
    refine not_keyCall_append htext (ih n) (.inl fun d hd => ?_)
    rw [Piece.write, hc, List.getLast?_concat] at hd
    exact Option.some.inj hd ▸ hnum
  | append _ _ ht iha ihc =>
    intro n
    rw [charsFrom_append]
    exact not_keyCall_append (iha n) (ihc _) (.inr ht.head?_charsFrom)

end Sql

namespace Builder

/-- **Without a mark, a body calls nothing that needs an open key.** -/
theorem keyless_body (hc : ∀ e ∈ r.entities, e.check = .ok ())
    (hl : ∀ label ∈ r.functionAliases, Identifier.check label = .ok ()) (h : b.body r = .ok sql)
    (hn : sql.needsKey = false) : sql.Keyless b.style := by
  have hmarked : ∀ p ∈ sql, p.isKeyed ≠ true := List.any_eq_false.1 hn
  have hkeyless : ∀ a : Sql, a <:+: sql → r.Parts b a → a.Keyless b.style := by
    rintro a hi ⟨e, _, ha⟩
    have hbare : ∀ p ∈ a, p.wording? = none → ∀ n, '(' ∉ (p.write b.style n).toList :=
      fun p hp hw n => (bare_stock hc hl h (hi.subset hp) hw n).1
    have hone : ∀ p, a = [p] → p.wording? = none → Sql.Keyless b.style a := by
      rintro p rfl hw
      exact Sql.keyless_of_not_mem (List.forall_mem_singleton.2 (hbare p List.mem_cons_self hw))
    cases ha with
    | wording hs => exact Sql.keyless_text hs.2
    | decrypted _ _ _ _ => exact absurd rfl (hmarked _ (hi.subset List.mem_cons_self))
    | encrypted _ _ _ _ => exact absurd rfl (hmarked _ (hi.subset List.mem_cons_self))
    | @on t target _ _ _ =>
      -- the wording in the condition of a join is flat
      have hon : Flat s!" {t.tableAlias.text} ON " :=
        (Flat.append (by decide) t.tableAlias.flat_text).append (by decide)
      have hequals : Flat " = " := by decide
      have htarget : ∀ p ∈ target.column, p.wording? = none := by
        cases target <;> exact List.forall_mem_singleton.2 rfl
      refine Sql.keyless_of_not_mem (List.forall_mem_cons.2 ⟨fun _ => hon.2,
        List.forall_mem_cons.2 ⟨hbare _ (by simp) rfl,
          List.forall_mem_cons.2 ⟨fun _ => hequals.2, fun p hp => ?_⟩⟩⟩)
      exact hbare p (by simp [hp]) (htarget p hp)
    | @extra p _ hk =>
      cases p with
      | text s => exact Sql.keyless_text hk
      | keyed s => exact absurd hk id
      | _ => exact hone _ rfl rfl
    | _ => exact hone _ rfl rfl
  exact ((woven_body h).mono hkeyless).keyless fun _ ha => ha

end Builder

/-! ## Expressions -/

/-- The expressions that need an open key: a column in its decryption, and a parameter in its
encryption with the key of the settings. -/
inductive Builder.KeyExpression (b : Builder) : String → Prop where
  | decryption (c : String) :
      KeyExpression b (Dialect.decryptOpening ++ b.style.qualified .root c ++
        Dialect.encryptionClosing)
  | encryption {keys : EncryptionKeys} (n : Nat) : b.config.encryption = some keys →
      KeyExpression b (Dialect.encryptOpening keys ++
        b.dialect.placeholder (parameterName n) ++ Dialect.encryptionClosing)

/-- Every expression calls a function that needs the key. -/
theorem Builder.KeyExpression.calls {expression : String} (h : b.KeyExpression expression) :
    keyCall <:+: expression.toList := by
  have hopening : ∀ opening rest : String, keyCall <:+: opening.toList →
      keyCall <:+: (opening ++ rest).toList := by
    intro opening rest h
    rw [String.toList_append]
    exact h.trans (List.prefix_append _ _).isInfix
  cases h with
  | decryption c =>
    exact hopening _ _ (hopening _ _ (by decide))
  | @encryption keys _ _ =>
    have hcall := hopening "ENCRYPTBYKEY(KEY_GUID(" (quoteLiteral keys.keyName) (by decide)
    exact hopening _ _ (hopening _ _ (hopening _ _ hcall))

namespace Sql

/-- A part of SQL is written in it, its parameters numbered from where it stands. -/
theorem exists_charsFrom_infix (style : Style) (h : a <:+: sql) (n : Nat) :
    ∃ m, charsFrom style m a <:+: charsFrom style n sql := by
  obtain ⟨before, after, rfl⟩ := h
  rw [charsFrom_append, charsFrom_append]
  exact ⟨_, List.infix_append _ _ _⟩

/-- What stands between two wordings is written between them. -/
theorem charsFrom_expression (opening closing : String) (p : Piece) (n : Nat) :
    charsFrom style n [.keyed opening, p, .text closing] =
      (opening ++ p.write style n ++ closing).toList := by
  obtain ⟨m, hm⟩ := exists_charsFrom_cons style p [.text closing] n
  rw [charsFrom_of_binding?_none rfl, hm, Dialect.charsFrom_wording, String.toList_append,
    String.toList_append, List.append_assoc]
  rfl

end Sql

namespace Builder

/-- **What stands in a body is written in its statement**, if it does not end in semicolons. -/
theorem exists_charsFrom_infix_text {p : Piece} (hp : Sql.withoutSemicolons [p] = [p])
    (h : a ++ [p] <:+: sql) (hf : b.finish sql = .ok s) :
    ∃ n, Sql.charsFrom b.style n (a ++ [p]) <:+: s.text.toList := by
  have htext : s.text.toList = Sql.charsFrom b.style 0 s.sql := by
    rw [Statement.text, Sql.write, String.toList_ofList, style_finish hf]
  rw [htext]
  exact Sql.exists_charsFrom_infix b.style (infix_finish hp h hf) 0

/-- An expression is written with its SQL, and stays when the semicolons at the end are shed. -/
theorem exists_expression_infix (style : Style) {opening : String} {p : Piece}
    (h : [.keyed opening, p, .text Dialect.encryptionClosing] <:+: sql) (n : Nat) :
    ∃ m, (opening ++ p.write style m ++ Dialect.encryptionClosing).toList <:+:
      Sql.charsFrom style n sql.withoutSemicolons := by
  have hclosing : Sql.withoutSemicolons [.text Dialect.encryptionClosing] =
      [.text Dialect.encryptionClosing] := by decide
  have hkept := Sql.infix_withoutSemicolons (a := [.keyed opening, p]) hclosing h
  obtain ⟨m, hm⟩ := Sql.exists_charsFrom_infix style hkept n
  refine ⟨m, ?_⟩
  rw [← Sql.charsFrom_expression]
  exact hm

/-- **What is marked in a body belongs to an encrypted field**: to its column in its decryption, or
to a parameter in its encryption. -/
theorem exists_keyed_infix (h : b.body r = .ok sql) (hn : sql.needsKey = true) :
    ∃ opening p, [.keyed opening, p, .text Dialect.encryptionClosing] <:+: sql ∧
      ∃ f : Field, f.dataType = .encrypted ∧
        ((r.uses.reads f ∧ opening = Dialect.decryptOpening ∧ p = .column .root f.columnName) ∨
          ∃ keys x, b.keysFor f = .ok keys ∧ opening = Dialect.encryptOpening keys ∧
            p = .bind x) := by
  obtain ⟨p, hp, hkeyed⟩ := List.any_eq_true.1 hn
  obtain ⟨opening, rfl⟩ := Piece.isKeyed_iff.1 hkeyed
  obtain ⟨before, after, rfl⟩ := List.append_of_mem hp
  obtain ⟨x, y, ⟨e, _, ha⟩, ⟨front, rfl⟩, ⟨rest, rfl⟩⟩ := (woven_body h).occurs rfl
  have hinfix : x ++ .keyed opening :: y <:+: (front ++ x) ++ .keyed opening :: (y ++ rest) :=
    ⟨front, rest, by simp⟩
  have hmem : .keyed opening ∈ x ++ .keyed opening :: y :=
    List.mem_append_right _ List.mem_cons_self
  generalize x ++ .keyed opening :: y = a at ha hinfix hmem
  -- only the parts that encrypt or decrypt have a mark
  cases ha with
  | @decrypted f _ hu hf _ => exact ⟨_, _, hinfix, f, hf, .inl ⟨hu, rfl, rfl⟩⟩
  | @encrypted f keys x _ hf hd hk =>
    exact ⟨_, _, hinfix, f, hf, .inr ⟨keys, x, keysFor_eq_ok.2 ⟨hd, hk⟩, rfl, rfl⟩⟩
  | @on t target _ _ _ => cases target <;> exact absurd hmem (by simp [Target.column])
  | extra _ hk =>
    obtain rfl := List.mem_singleton.1 hmem
    exact absurd hk id
  | _ => exact absurd hmem (by simp)

/-- **With a mark, a body has a whole expression that needs the key**, and does not shed it with the
semicolons at its end. -/
theorem exists_keyExpression (h : b.body r = .ok sql) (hn : sql.needsKey = true) :
    ∃ expression, b.KeyExpression expression ∧
      expression.toList <:+: Sql.charsFrom b.style 0 sql.withoutSemicolons := by
  obtain ⟨opening, p, hinfix, f, _, ⟨_, rfl, rfl⟩ | ⟨keys, x, hk, rfl, rfl⟩⟩ :=
    exists_keyed_infix h hn
  · obtain ⟨_, hwritten⟩ := exists_expression_infix b.style hinfix 0
    exact ⟨_, .decryption f.columnName, hwritten⟩
  · obtain ⟨m, hwritten⟩ := exists_expression_infix b.style hinfix 0
    exact ⟨_, .encryption m (keysFor_eq_ok.1 hk).2, hwritten⟩

end Builder

end RecordSql
