import RecordSql.Proofs.Pieces
import RecordSql.Proofs.TextSearch

/-!
# How statements are woven

A statement is woven from **parts**: fixed wording, and expressions whose pieces belong together,
such as a column inside its decryption. Two neighbours always meet in a seam that can be seen in the
text:

* what stands behind the seam starts with a character that neither goes on with a name nor calls it;
* or what stands in front of it ends with one that no name ends with.

`Sql.Woven A` says that SQL is woven from parts of the kind `A`. Every template of both dialects
weaves, whatever the parts are. So what is asked about places in a statement is answered part by
part: a piece of a statement stands in one of the parts, together with its surroundings there.

Fixed wording calls no function that needs an open key. It cannot spell such a call across a seam
either, so only a part can make one.
-/

namespace RecordSql

/-! ## Wording -/

namespace Text

/-- Whether a text starts, and with a character that neither goes on with a name nor calls it. -/
def starts (s : String) : Bool :=
  match s.toList with
  | [] => false
  | c :: _ => !c.isAlphanum && c != '('

/-- Whether a text ends, and with a character that no name ends with. -/
def ends (s : String) : Bool :=
  match s.toList.reverse with
  | [] => false
  | c :: _ => !c.isAlphanum

/-- How each call that needs an open key is spelled at its end. -/
def keyCall : List Char := ['K', 'E', 'Y', '(']

/-- A text that calls no function that needs an open key. -/
def Keyless (s : String) : Prop := cut? keyCall s.toList = none

instance (s : String) : Decidable (Keyless s) := inferInstanceAs (Decidable (_ = _))

/-- Fixed wording: plain characters and no call that needs an open key. -/
def Wording (s : String) : Prop := Plain s ∧ Keyless s

instance (s : String) : Decidable (Wording s) := inferInstanceAs (Decidable (_ ∧ _))

/-- Wording that may stand in front of anything. -/
def Lead (s : String) : Prop := Wording s ∧ ends s = true

instance (s : String) : Decidable (Lead s) := inferInstanceAs (Decidable (_ ∧ _))

/-- Wording that may stand behind anything. -/
def Tail (s : String) : Prop := Wording s ∧ starts s = true

instance (s : String) : Decidable (Tail s) := inferInstanceAs (Decidable (_ ∧ _))

/-- Wording that may stand between any two parts. -/
def Joint (s : String) : Prop := Wording s ∧ starts s = true ∧ ends s = true

instance (s : String) : Decidable (Joint s) := inferInstanceAs (Decidable (_ ∧ _))

/-- Wording that calls nothing, and so may be put together from smaller such wording. -/
def Flat (s : String) : Prop := Plain s ∧ '(' ∉ s.toList

instance (s : String) : Decidable (Flat s) := inferInstanceAs (Decidable (_ ∧ _))

variable {s t : String}

theorem starts_iff :
    starts s = true ↔ ∃ c rest, s.toList = c :: rest ∧ c.isAlphanum = false ∧ c ≠ '(' := by
  unfold starts
  cases s.toList with
  | nil => simp
  | cons c rest => simp

theorem ends_iff : ends s = true ↔ ∃ init c, s.toList = init ++ [c] ∧ c.isAlphanum = false := by
  unfold ends
  cases hs : s.toList.reverse with
  | nil =>
    rw [List.reverse_eq_nil_iff] at hs
    simp [hs]
  | cons c rest =>
    rw [List.reverse_eq_cons_iff] at hs
    simp [hs]

theorem opens_of_starts (h : starts s = true) : opens s = true := by
  obtain ⟨c, rest, hs, hc, _⟩ := starts_iff.1 h
  refine opens_iff.2 ⟨c, rest, hs, ?_⟩
  simp only [Char.isAlphanum, Bool.or_eq_false_iff] at hc
  exact hc.2

theorem starts_append (h : starts s = true) (t : String) : starts (s ++ t) = true := by
  obtain ⟨c, rest, hs, hc⟩ := starts_iff.1 h
  exact starts_iff.2 ⟨c, rest ++ t.toList, by rw [String.toList_append, hs, List.cons_append], hc⟩

theorem ends_append (s : String) (h : ends t = true) : ends (s ++ t) = true := by
  obtain ⟨init, c, ht, hc⟩ := ends_iff.1 h
  exact ends_iff.2 ⟨s.toList ++ init, c, by rw [String.toList_append, ht, List.append_assoc], hc⟩

theorem keyless_iff : Keyless s ↔ ¬ keyCall <:+: s.toList := cut?_eq_none

theorem Keyless.of_start (h : Keyless s) (ht : t.toList <+: s.toList) : Keyless t :=
  keyless_iff.2 fun hi => keyless_iff.1 h (hi.trans ht.isInfix)

theorem Wording.of_start (h : Wording s) (ht : t.toList <+: s.toList) : Wording t :=
  ⟨fun c hc => h.1 c (ht.subset hc), h.2.of_start ht⟩

theorem Flat.of_subset (h : Flat s) (ht : t.toList ⊆ s.toList) : Flat t :=
  ⟨fun c hc => h.1 c (ht hc), fun hc => h.2 (ht hc)⟩

theorem Flat.append (hs : Flat s) (ht : Flat t) : Flat (s ++ t) := by
  refine ⟨hs.1.append ht.1, ?_⟩
  rw [String.toList_append, List.mem_append, not_or]
  exact ⟨hs.2, ht.2⟩

/-- Every call has its parenthesis. -/
theorem not_keyCall_of_not_mem {cs : List Char} (h : '(' ∉ cs) : ¬ keyCall <:+: cs :=
  fun hi => h (hi.subset (by decide))

theorem Flat.wording (h : Flat s) : Wording s := ⟨h.1, keyless_iff.2 (not_keyCall_of_not_mem h.2)⟩

theorem flat_nat (n : Nat) : Flat (toString n) := by
  refine ⟨plain_nat n, ?_⟩
  intro hm
  rw [Nat.toString_eq_repr, Nat.toList_repr] at hm
  exact absurd (Nat.isDigit_of_mem_toDigits (by decide) (by decide) hm) (by decide)

/-- Names do not call anything. -/
theorem flat_of_check {name : String} (h : Identifier.check name = .ok ()) : Flat name := by
  refine ⟨plain_of_check h, fun hm => ?_⟩
  exact absurd ((Identifier.check_eq_ok.1 h).2.2.1 _ hm) (by decide)

theorem starts_dropSemicolons (hs : Sql.dropSemicolons s ≠ "") (h : starts s = true) :
    starts (Sql.dropSemicolons s) = true := by
  obtain ⟨c, rest, hc, hstart⟩ := starts_iff.1 h
  obtain ⟨tail, ht⟩ := Sql.dropSemicolons_prefix s
  cases hd : (Sql.dropSemicolons s).toList with
  | nil => exact absurd (String.toList_eq_nil_iff.1 hd) hs
  | cons d cs =>
    -- only the end was lost, so both texts start alike
    rw [hd, hc, List.cons_append] at ht
    obtain ⟨hfirst, _⟩ := List.cons.inj ht
    exact starts_iff.2 ⟨d, cs, hd, hfirst ▸ hstart⟩

end Text

theorem TableAlias.flat_text (t : TableAlias) : Text.Flat t.text := by
  cases t with
  | root => decide
  | join index => exact Text.Flat.append (s := "j") (by decide) (Text.flat_nat index)

/-- Whether a piece is wording that may stand behind anything. -/
def Piece.starts : Piece → Bool
  | .text s => Text.starts s
  | _ => false

theorem Piece.opens_of_starts {p : Piece} (h : p.starts = true) : p.opens = true := by
  cases p with
  | text s => exact Text.opens_of_starts h
  | _ => exact absurd h (by simp [starts])

namespace Sql

open Text

/-- SQL that starts with wording which may stand behind anything, or is empty. -/
def Trails (sql : Sql) : Prop := ∀ p ∈ sql.head?, p.starts = true

theorem trails_text {s : String} {sql : Sql} (h : starts s = true) : Trails (.text s :: sql) :=
  fun _ hp => Option.some.inj hp ▸ h

theorem Trails.append {a c : Sql} (ha : Trails a) (hc : Trails c) : Trails (a ++ c) := by
  cases a with
  | nil => exact hc
  | cons p rest => exact ha

theorem Trails.withoutSemicolons {sql : Sql} (h : Trails sql) : Trails sql.withoutSemicolons := by
  cases sql with
  | nil => exact h
  | cons p rest =>
    have hsplit : p :: rest = [p] ++ rest := rfl
    rw [hsplit, withoutSemicolons_append]
    split
    · -- the first piece is all that may be left, and it is wording
      cases p with
      | text s =>
        have htext := withoutSemicolons_text [] s
        rw [List.nil_append] at htext
        rw [htext]
        split
        · exact fun _ hp => absurd hp (by simp [Sql.withoutSemicolons, dropLeading])
        next hne => exact trails_text (starts_dropSemicolons hne (h _ rfl))
      | _ => exact absurd (h _ rfl) (by simp [Piece.starts])
    · exact h

/-! ## Weaving -/

/-- SQL that is woven from parts of a kind. -/
inductive Woven (A : Sql → Prop) : Sql → Prop where
  | nil : Woven A []
  | part {a : Sql} : A a → Woven A a
  | before {s : String} {sql : Sql} : A [.text s] → ends s = true → Woven A sql →
      Woven A (.text s :: sql)
  | append {a c : Sql} : Woven A a → Woven A c → Trails c → Woven A (a ++ c)

/-- A kind of parts that has all fixed wording and all bound values. -/
structure Stocked (A : Sql → Prop) : Prop where
  /-- Any wording is a part. -/
  wording : ∀ s, Wording s → A [.text s]
  /-- Any bound value is a part. -/
  binding : ∀ x, A [.bind x]

namespace Woven

variable {A A' : Sql → Prop} {a c sql : Sql}

/-- Parts may be taken for what else they are. -/
theorem mono (h : Woven A sql) (hA : ∀ a, a <:+: sql → A a → A' a) : Woven A' sql := by
  induction h with
  | nil => exact .nil
  | part ha => exact .part (hA _ List.infix_rfl ha)
  | before hs he _ ih =>
    refine .before (hA _ (List.prefix_append [_] _).isInfix hs) he (ih fun a hi => ?_)
    exact hA a (hi.trans (List.suffix_cons _ _).isInfix)
  | append _ _ ht iha ihc =>
    refine .append (iha fun a hi => ?_) (ihc fun a hi => ?_) ht
    · exact hA a (hi.trans (List.prefix_append _ _).isInfix)
    · exact hA a (hi.trans (List.suffix_append _ _).isInfix)

/-- **A piece of woven SQL stands in a part of it**, with what surrounds it there. -/
theorem occurs (h : Woven A sql) {p : Piece} {before after : Sql}
    (hs : sql = before ++ p :: after) :
    ∃ x y, A (x ++ p :: y) ∧ x <:+ before ∧ y <+: after := by
  induction h generalizing before after with
  | nil => exact absurd hs (by simp)
  | part ha => exact ⟨before, after, hs ▸ ha, List.suffix_rfl, List.prefix_rfl⟩
  | @before s sql hA _ _ ih =>
    cases before with
    | nil =>
      injection hs with hp _
      exact ⟨[], [], hp ▸ hA, List.suffix_rfl, List.nil_prefix⟩
    | cons q before =>
      injection hs with _ hs
      obtain ⟨x, y, hxy, hx, hy⟩ := ih hs
      exact ⟨x, y, hxy, hx.trans (List.suffix_cons _ _), hy⟩
  | @append a c _ _ _ iha ihc =>
    -- the piece stands on one side of the seam
    rcases List.append_eq_append_iff.1 hs with ⟨m, hm, hc⟩ | ⟨m, ha, hm⟩
    · obtain ⟨x, y, hxy, hx, hy⟩ := ihc hc
      exact ⟨x, y, hxy, hm ▸ hx.trans (List.suffix_append _ _), hy⟩
    · cases m with
      | nil =>
        have hc : c = [] ++ p :: after := hm.symm
        obtain ⟨x, y, hxy, hx, hy⟩ := ihc hc
        rw [List.append_nil] at ha
        exact ⟨x, y, hxy, hx.trans List.nil_suffix, hy⟩
      | cons q m =>
        injection hm with hq hm
        obtain ⟨x, y, hxy, hx, hy⟩ := iha (hq ▸ ha)
        exact ⟨x, y, hxy, hx, hm ▸ hy.trans (List.prefix_append _ _)⟩

/-- SQL is formed when its parts are. -/
theorem formed {S : Piece → Prop} (h : Woven A sql) (hA : ∀ a, A a → Formed S a) :
    Formed S sql := by
  induction h with
  | nil => exact .nil
  | part ha => exact hA _ ha
  | before hs _ _ ih => exact .cons ((hA _ hs).stock _ List.mem_cons_self) rfl ih
  | append _ _ ht iha ihc => exact iha.append ihc fun p hp => Piece.opens_of_starts (ht p hp)

/-- Without its semicolons SQL is still woven, if its parts are. -/
theorem withoutSemicolons (h : Woven A sql) (hA : ∀ a, A a → Woven A a.withoutSemicolons) :
    Woven A sql.withoutSemicolons := by
  induction h with
  | nil => exact .nil
  | part ha => exact hA _ ha
  | @before s sql hs he _ ih =>
    rw [show Piece.text s :: sql = [.text s] ++ sql from rfl, withoutSemicolons_append]
    split
    · exact hA _ hs
    · exact .before hs he ih
  | append ha _ ht iha ihc =>
    rw [withoutSemicolons_append]
    split
    · exact iha
    · exact .append ha ihc ht.withoutSemicolons

/-- A text that loses its semicolons is nothing, or what is left of it. -/
theorem text_withoutSemicolons {s : String} (h : A [.text (dropSemicolons s)]) :
    Woven A (Sql.withoutSemicolons [.text s]) := by
  have htext := withoutSemicolons_text [] s
  rw [List.nil_append] at htext
  rw [htext]
  split
  · exact .nil
  · exact .part h

/-! ## Wording between parts -/

theorem text (hA : Stocked A) (s : String) (hs : Wording s) : Woven A [.text s] :=
  .part (hA.wording s hs)

theorem bind (hA : Stocked A) (x : Binding) : Woven A [.bind x] := .part (hA.binding x)

theorem after (hA : Stocked A) (h : Woven A sql) (s : String) (hs : Lead s) :
    Woven A (.text s :: sql) :=
  .before (hA.wording s hs.1) hs.2 h

theorem closed (hA : Stocked A) (h : Woven A sql) (s : String) (hs : Tail s) :
    Woven A (sql ++ [.text s]) :=
  .append h (.text hA s hs.1) (trails_text hs.2)

theorem glue {s : String} (ha : Woven A a) (hA : A [.text s]) (hs : starts s = true)
    (he : ends s = true) (hc : Woven A c) : Woven A (a ++ .text s :: c) :=
  .append ha (.before hA he hc) (trails_text hs)

theorem join (hA : Stocked A) (ha : Woven A a) (s : String) (hs : Joint s) (hc : Woven A c) :
    Woven A (a ++ .text s :: c) :=
  ha.glue (hA.wording s hs.1) hs.2.1 hs.2.2 hc

/-! ## Lists -/

theorem joined {separator : String} {parts : List Sql} (hA : A [.text separator])
    (hs : starts separator = true) (he : ends separator = true)
    (h : ∀ part ∈ parts, Woven A part) : Woven A (Sql.joined separator parts) :=
  -- every part but the last is closed off by the separator
  joined_induction .nil (fun _ _ ha hc => ha.glue hA hs he hc) h

theorem flatten {parts : List Sql} (h : ∀ part ∈ parts, Woven A part ∧ Trails part) :
    Woven A parts.flatten ∧ Trails parts.flatten := by
  induction parts with
  | nil => exact ⟨.nil, fun _ hp => absurd hp (by simp)⟩
  | cons part rest ih =>
    obtain ⟨hpart, htrails⟩ := h part List.mem_cons_self
    obtain ⟨hrest, hrestTrails⟩ := ih fun q hq => h q (List.mem_cons_of_mem _ hq)
    rw [List.flatten_cons]
    exact ⟨hpart.append hrest hrestTrails, htrails.append hrestTrails⟩

end Woven

/-! ## Parts of statements -/

section Templates

variable {A : Sql → Prop} {a : Sql}

theorem woven_list (hA : Stocked A) {parts : List Sql} (h : ∀ part ∈ parts, Woven A part) :
    Woven A (Sql.list parts) :=
  .joined (hA.wording _ (by decide)) rfl rfl h

theorem woven_table (hA : Stocked A) {name : String}
    (h : ∀ part ∈ Identifier.tableParts name, A [.name part]) : Woven A (Sql.table name) := by
  refine .joined (hA.wording _ (by decide)) rfl rfl ?_
  intro part hp
  obtain ⟨n, hn, rfl⟩ := List.mem_map.1 hp
  exact .part (h n hn)

theorem woven_as (hA : Stocked A) {name : String} (ha : Woven A a) (hn : A [.name name]) :
    Woven A (a ++ Sql.as name) :=
  ha.join hA " AS " (by decide) (.part hn)

theorem woven_whereSuffix (hA : Stocked A) {condition : Option Sql}
    (h : ∀ c ∈ condition, Woven A c) : Woven A (Sql.whereSuffix condition) := by
  cases condition with
  | none => exact .nil
  | some c => exact .after hA (h c rfl) " WHERE " (by decide)

/-- A clause that is not there closes nothing off, and needs not to. -/
theorem trails_whereSuffix {condition : Option Sql} : Trails (Sql.whereSuffix condition) := by
  cases condition with
  | none => exact fun _ hp => absurd hp (by simp [Sql.whereSuffix])
  | some c => exact trails_text (by decide)

end Templates

end Sql

namespace Condition

variable {A : Sql → Prop} {operand : Sql} {type : DataType}

/-- A condition binds its values between wording, whatever they are. -/
theorem woven_sql (hA : Sql.Stocked A) (ho : Sql.Woven A operand) (c : Condition) :
    Sql.Woven A (c.sql operand type) := by
  have hb : ∀ value, Sql.Woven A (bound type value) := fun _ => .bind hA _
  induction c with
  | isNull => exact ho.closed hA " IS NULL" (by decide)
  | isNotNull => exact ho.closed hA " IS NOT NULL" (by decide)
  | not inner ih => exact (ih.after hA "NOT (" (by decide)).closed hA ")" (by decide)
  | range lower upper =>
    cases lower with
    | none =>
      cases upper with
      | none => exact .text hA "1 = 1" (by decide)
      | some u => exact ho.join hA " <= " (by decide) (hb u)
    | some l =>
      cases upper with
      | none => exact ho.join hA " >= " (by decide) (hb l)
      | some u =>
        have hlow := (ho.after hA "(" (by decide)).join hA " >= " (by decide) (hb l)
        have hup := (hlow.join hA " AND " (by decide) ho).join hA " <= " (by decide) (hb u)
        exact hup.closed hA ")" (by decide)
  | oneOf items =>
    refine (ho.join hA " IN (" (by decide) (Sql.woven_list hA ?_)).closed hA ")" (by decide)
    intro part hp
    obtain ⟨value, _, rfl⟩ := List.mem_map.1 hp
    exact hb value
  | like text => exact ho.join hA " LIKE " (by decide) (.bind hA _)
  | equals value => exact ho.join hA " = " (by decide) (hb value)

end Condition

/-! ## Statements -/

namespace Dialect

variable {A : Sql → Prop} {d : Dialect}

theorem woven_dateToString (hA : Sql.Stocked A) {column : Sql} (h : Sql.Woven A column) :
    Sql.Woven A (d.dateToString column) := by
  cases d with
  | sqlServer =>
    have hopen := h.after hA "CONVERT(VARCHAR(10), " (by decide)
    exact hopen.closed hA ", 120)" (by decide)
  | oracle =>
    have hopen := h.after hA "TO_CHAR(" (by decide)
    exact hopen.closed hA ", 'YYYY-MM-DD')" (by decide)

theorem woven_paginate (hA : Sql.Stocked A) {select : PagedSelect} {w : Window}
    (hp : Sql.Woven A select.projection) (hs : Sql.Woven A select.source)
    (hf : ∀ c ∈ select.filter, Sql.Woven A c) (ho : Sql.Woven A select.orderBy) :
    Sql.Woven A (d.paginate select w) := by
  have hwhere := Sql.woven_whereSuffix hA hf
  cases d with
  | sqlServer =>
    have hpage : Text.Flat s!") paged WHERE paged.RowNum BETWEEN {w.firstRow} AND {w.lastRow}" :=
      ((Text.Flat.append (by decide) (Text.flat_nat _)).append (by decide)).append
        (Text.flat_nat _)
    have hselect := hp.after hA "SELECT * FROM (SELECT " (by decide)
    have hnum := hselect.join hA ", ROW_NUMBER() OVER (ORDER BY " (by decide) ho
    have hsource := hnum.join hA ") AS RowNum " (by decide) hs
    have hrows := hsource.append hwhere Sql.trails_whereSuffix
    -- the wording ends in a number, which what comes next has to close off
    have hend := (Sql.Woven.text hA _ hpage.wording).closed hA " ORDER BY paged.RowNum" (by decide)
    have hopens := Text.starts_append (s := ") paged WHERE paged.RowNum BETWEEN ") (by decide)
      (toString w.firstRow)
    exact hrows.append hend
      (Sql.trails_text (Text.starts_append (Text.starts_append hopens " AND ") _))
  | oracle =>
    have hpage : Text.Flat s!" OFFSET {w.start} ROWS FETCH NEXT {w.length} ROWS ONLY" :=
      (((Text.Flat.append (by decide) (Text.flat_nat _)).append (by decide)).append
        (Text.flat_nat _)).append (by decide)
    have hselect := hp.after hA "SELECT " (by decide)
    have hsource := hselect.join hA " " (by decide) hs
    have hrows := hsource.append hwhere Sql.trails_whereSuffix
    have hsorted := hrows.join hA " ORDER BY " (by decide) ho
    have hopens := Text.starts_append (s := " OFFSET ") (by decide) (toString w.start)
    exact hsorted.closed hA _ ⟨hpage.wording,
      Text.starts_append (Text.starts_append (Text.starts_append hopens _) _) _⟩

theorem woven_insertHead (hA : Sql.Stocked A) {parts : InsertParts}
    (ht : Sql.Woven A parts.table) (hc : ∀ c ∈ parts.columns, Sql.Woven A c) :
    Sql.Woven A (insertHead parts) := by
  have htable := ht.after hA "INSERT INTO " (by decide)
  have hcolumns := htable.join hA " (" (by decide) (Sql.woven_list hA hc)
  exact hcolumns.closed hA ")" (by decide)

theorem woven_insertValues (hA : Sql.Stocked A) {parts : InsertParts}
    (hv : ∀ v ∈ parts.values, Sql.Woven A v) : Sql.Woven A (insertValues parts) := by
  have hvalues := (Sql.woven_list hA hv).after hA " VALUES (" (by decide)
  exact hvalues.closed hA ")" (by decide)

theorem trails_insertValues {parts : InsertParts} : Sql.Trails (insertValues parts) :=
  Sql.trails_text (by decide)

/-- What the return of a key is woven from. -/
def KeyStocked (A : Sql → Prop) : KeyReturn → Prop
  | .omit => True
  | .return column output => Sql.Woven A column ∧ ∀ o ∈ output, Sql.Woven A o
  | .capture column name => Sql.Woven A column ∧ A [.variable name] ∧ A [.text "; SET "]

theorem woven_insert (hA : Sql.Stocked A) {parts : InsertParts} {key : KeyReturn}
    (ht : Sql.Woven A parts.table) (hc : ∀ c ∈ parts.columns, Sql.Woven A c)
    (hv : ∀ v ∈ parts.values, Sql.Woven A v) (hk : KeyStocked A key) :
    Sql.Woven A (d.insert parts key) := by
  have hhead := woven_insertHead hA ht hc
  have hvalues := woven_insertValues hA hv
  have hbody := hhead.append hvalues trails_insertValues
  -- a key that is left out, returned, or kept in a variable
  rcases key with _ | ⟨column, output⟩ | ⟨column, name⟩
  · cases d with
    | sqlServer => exact hbody
    | oracle => exact hbody
  · cases d with
    | sqlServer =>
      have hreturn := hhead.join hA " OUTPUT INSERTED." (by decide) hk.1
      exact hreturn.append hvalues trails_insertValues
    | oracle =>
      cases output with
      | none => exact hbody
      | some o =>
        have hreturn := hbody.join hA " RETURNING " (by decide) hk.1
        exact hreturn.join hA " INTO " (by decide) (hk.2 o rfl)
  · cases d with
    | sqlServer =>
      have hidentity := (Sql.Woven.part hk.2.1).closed hA " = SCOPE_IDENTITY()" (by decide)
      exact hbody.glue hk.2.2 (by decide) (by decide) hidentity
    | oracle =>
      have hreturn := hbody.join hA " RETURNING " (by decide) hk.1
      exact hreturn.join hA " INTO " (by decide) (.part hk.2.1)

theorem woven_update (hA : Sql.Stocked A) {table tableAlias condition : Sql}
    {assignments : List Sql} (ht : Sql.Woven A table) (ha : Sql.Woven A tableAlias)
    (hs : ∀ a ∈ assignments, Sql.Woven A a) (hc : Sql.Woven A condition) :
    Sql.Woven A (d.update table tableAlias assignments condition) := by
  have hlist := Sql.woven_list hA hs
  cases d with
  | sqlServer =>
    have hupdate := ha.after hA "UPDATE " (by decide)
    have hset := hupdate.join hA " SET " (by decide) hlist
    have hfrom := hset.join hA " FROM " (by decide) ht
    exact (hfrom.join hA " " (by decide) ha).join hA " WHERE " (by decide) hc
  | oracle =>
    have htable := (ht.after hA "UPDATE " (by decide)).join hA " " (by decide) ha
    have hset := htable.join hA " SET " (by decide) hlist
    exact hset.join hA " WHERE " (by decide) hc

theorem woven_delete (hA : Sql.Stocked A) {table tableAlias condition : Sql}
    (ht : Sql.Woven A table) (ha : Sql.Woven A tableAlias) (hc : Sql.Woven A condition) :
    Sql.Woven A (d.delete table tableAlias condition) := by
  cases d with
  | sqlServer =>
    have hfrom := (ha.after hA "DELETE " (by decide)).join hA " FROM " (by decide) ht
    exact (hfrom.join hA " " (by decide) ha).join hA " WHERE " (by decide) hc
  | oracle =>
    have hfrom := ht.after hA "DELETE FROM " (by decide)
    exact (hfrom.join hA " " (by decide) ha).join hA " WHERE " (by decide) hc

end Dialect

namespace Builder

variable {A : Sql → Prop}

theorem woven_plainSelect (hA : Sql.Stocked A) {select : PagedSelect}
    (hp : Sql.Woven A select.projection) (hs : Sql.Woven A select.source)
    (hf : ∀ c ∈ select.filter, Sql.Woven A c) (ho : Sql.Woven A select.orderBy) :
    Sql.Woven A (plainSelect select) := by
  have hrows := ((hp.after hA "SELECT " (by decide)).join hA " " (by decide) hs).append
    (Sql.woven_whereSuffix hA hf) Sql.trails_whereSuffix
  unfold plainSelect
  cases he : select.orderBy.isEmpty with
  | true => simpa using hrows
  | false => exact hrows.join hA " ORDER BY " (by decide) ho

theorem woven_groupSuffix (hA : Sql.Stocked A) {sql : Sql} {rollup : Bool} {terms : List Sql}
    (h : Sql.Woven A sql) (ht : ∀ t ∈ terms, Sql.Woven A t) :
    Sql.Woven A (sql ++ groupSuffix rollup terms) := by
  have hlist := Sql.woven_list hA ht
  unfold groupSuffix
  cases he : terms.isEmpty with
  | true => simpa using h
  | false =>
    cases rollup with
    | true =>
      have hroll := (h.join hA " GROUP BY ROLLUP(" (by decide) hlist).closed hA ")" (by decide)
      simpa using hroll
    | false => exact h.join hA " GROUP BY " (by decide) hlist

theorem woven_havingSuffix (hA : Sql.Stocked A) {sql : Sql} {conditions : List Sql}
    (h : Sql.Woven A sql) (hc : ∀ c ∈ conditions, Sql.Woven A c) :
    Sql.Woven A (sql ++ havingSuffix conditions) := by
  unfold havingSuffix
  cases he : conditions.isEmpty with
  | true => simpa using h
  | false =>
    exact h.join hA " HAVING " (by decide) (.joined (hA.wording _ (by decide)) rfl rfl hc)

end Builder

end RecordSql
