import Mathlib.Data.List.Chain
import RecordSql.Proofs.Names

/-!
# What statements are pieced together from

Two things are kept by every way of putting SQL together, and both are about single places of the
list of pieces:

* every piece comes from a **stock**: fixed wording, bound values, and whatever else the builder at
  hand may use;
* a bound value is followed by wording that starts with no digit, so that its placeholder ends
  where it should.

`Sql.Formed` says both. It is kept by putting SQL one behind the other, as long as what comes second
opens with wording.
-/

namespace RecordSql

/-! ## Wording -/

namespace Text

/-- The characters of fixed wording. None of them starts a placeholder or ends a statement. -/
def isPlain (c : Char) : Bool :=
  c.isAlphanum || [' ', '_', '$', '#', '.', ',', '(', ')', '=', '<', '>', '*', '-', '\''].contains c

/-- A text of such characters. -/
def Plain (s : String) : Prop := ∀ c ∈ s.toList, isPlain c = true

instance (s : String) : Decidable (Plain s) := List.decidableBAll _ s.toList

/-- Whether a text starts, and with no digit. -/
def opens (s : String) : Bool :=
  match s.toList with
  | [] => false
  | c :: _ => !c.isDigit

theorem Plain.append {s t : String} (hs : Plain s) (ht : Plain t) : Plain (s ++ t) := by
  intro c hc
  rw [String.toList_append] at hc
  rcases List.mem_append.1 hc with h | h
  · exact hs c h
  · exact ht c h

theorem opens_iff {s : String} :
    opens s = true ↔ ∃ c rest, s.toList = c :: rest ∧ c.isDigit = false := by
  unfold opens
  cases s.toList with
  | nil => simp
  | cons c rest => simp

theorem isPlain_of_isDigit {c : Char} (h : c.isDigit = true) : isPlain c = true := by
  simp [isPlain, Char.isAlphanum, h]

theorem plain_nat (n : Nat) : Plain (toString n) := by
  intro c hc
  rw [Nat.toString_eq_repr, Nat.toList_repr] at hc
  exact isPlain_of_isDigit (Nat.isDigit_of_mem_toDigits (by decide) (by decide) hc)

/-- An identifier is plain: only letters, digits and the three marks may stand in it. -/
theorem plain_of_check {name : String} (h : Identifier.check name = .ok ()) : Plain name := by
  intro c hc
  have ha := (Identifier.check_eq_ok.1 h).2.2.1 c hc
  simp only [Identifier.isAllowed, Bool.or_eq_true, decide_eq_true_eq] at ha
  rcases ha with ((ha | rfl) | rfl) | rfl
  · simp [isPlain, ha]
  · decide
  · decide
  · decide

/-- Quoting adds nothing but the quotes. -/
theorem mem_doubled {mark c : Char} {cs : List Char} (h : c ∈ doubled mark cs) : c ∈ cs := by
  induction cs with
  | nil => exact h
  | cons d rest ih =>
    unfold doubled at h
    split at h
    -- the second quote is a copy of the first
    next hd =>
      rcases List.mem_cons.1 h with h | h
      · rw [h, hd]
        exact List.mem_cons_self
      · rcases List.mem_cons.1 h with h | h
        · rw [h, hd]
          exact List.mem_cons_self
        · exact List.mem_cons_of_mem _ (ih h)
    · rcases List.mem_cons.1 h with h | h
      · rw [h]
        exact List.mem_cons_self
      · exact List.mem_cons_of_mem _ (ih h)

theorem mem_between {opening closing c : Char} {cs : List Char}
    (h : c ∈ between opening closing cs) : c = opening ∨ c ∈ cs ∨ c = closing := by
  unfold between at h
  rcases List.mem_append.1 h with h | h
  · rcases List.mem_cons.1 h with h | h
    · exact .inl h
    · exact .inr (.inl (mem_doubled h))
  · exact .inr (.inr (List.mem_singleton.1 h))

end Text

open Text

theorem TableAlias.plain_text (t : TableAlias) : Plain t.text := by
  cases t with
  | root => decide
  | join index => exact Plain.append (s := "j") (by decide) (plain_nat index)

/-- Quoting a name adds no character but the quotes. -/
theorem Style.not_mem_identifier {style : Style} {name : String} {c : Char} (h : c ∉ name.toList)
    (hq : ∀ d : Dialect, c ≠ d.quotes.1 ∧ c ≠ d.quotes.2) :
    c ∉ (style.identifier name).toList := by
  intro hm
  unfold identifier at hm
  split at hm
  · unfold quoteIdentifier at hm
    rw [String.toList_ofList] at hm
    rcases mem_between hm with he | hname | he
    · exact (hq _).1 he
    · exact h hname
    · exact (hq _).2 he
  · exact h hm

/-! ## Writing pieces -/

/-- Only a bound value binds anything. -/
theorem Piece.eq_bind_of_binding? {p : Piece} {x : Binding} (h : p.binding? = some x) :
    p = .bind x := by
  cases p with
  | bind y => exact congrArg _ (Option.some.inj h)
  | _ => exact absurd h (by simp [Piece.binding?])

namespace Sql

variable {style : Style} {sql : Sql}

theorem charsFrom_of_binding?_none {p : Piece} (h : p.binding? = none) (n : Nat) :
    charsFrom style n (p :: sql) = (p.write style n).toList ++ charsFrom style n sql := by
  cases p with
  | bind x => exact absurd h (by simp [Piece.binding?])
  | _ => rfl

/-- The first piece comes first in the text, whatever number comes next. -/
theorem exists_charsFrom_cons (style : Style) (p : Piece) (rest : Sql) (n : Nat) :
    ∃ m, charsFrom style n (p :: rest) = (p.write style n).toList ++ charsFrom style m rest := by
  cases p with
  | bind x => exact ⟨n + 1, rfl⟩
  | _ => exact ⟨n, rfl⟩

end Sql

/-! ## Formed SQL -/

/-- Whether a piece is wording that may follow a placeholder. -/
def Piece.opens : Piece → Bool
  | .text s => Text.opens s
  | _ => false

/-- What may stand next to what: a bound value has to be closed off. -/
def Piece.Apart (p q : Piece) : Prop := p.binding?.isSome = true → q.opens = true

namespace Sql

/-- Every piece is in stock, and every bound value is closed off. -/
structure Formed (S : Piece → Prop) (sql : Sql) : Prop where
  /-- The pieces come from the stock. -/
  stock : ∀ p ∈ sql, S p
  /-- Bound values are closed off. -/
  apart : sql.IsChain Piece.Apart

namespace Formed

variable {S : Piece → Prop} {a c sql : Sql} {p : Piece} {s : String}

theorem nil : Formed S [] := ⟨by simp, .nil⟩

theorem cons (hp : S p) (hb : p.binding? = none) (h : Formed S sql) : Formed S (p :: sql) := by
  refine ⟨List.forall_mem_cons.2 ⟨hp, h.stock⟩, List.IsChain.cons h.apart ?_⟩
  intro q _ hbind
  rw [hb] at hbind
  exact absurd hbind (by simp)

theorem single (hp : S p) : Formed S [p] := by
  refine ⟨?_, List.IsChain.singleton p⟩
  intro q hq
  rw [List.mem_singleton.1 hq]
  exact hp

/-- What opens with wording may follow anything. -/
theorem append (ha : Formed S a) (hc : Formed S c) (ho : ∀ q ∈ c.head?, q.opens = true) :
    Formed S (a ++ c) := by
  -- inside both parts nothing changes, so there is only the seam to look at
  refine ⟨?_, List.isChain_append.2 ⟨ha.apart, hc.apart, fun _ _ q hq _ => ho q hq⟩⟩
  intro q hq
  rcases List.mem_append.1 hq with h | h
  · exact ha.stock q h
  · exact hc.stock q h

theorem mono {S' : Piece → Prop} (h : Formed S sql) (hs : ∀ p ∈ sql, S p → S' p) :
    Formed S' sql :=
  ⟨fun p hp => hs p hp (h.stock p hp), h.apart⟩

end Formed

/-! ## Lists of parts -/

/-- **What is kept by wording between two parts is kept by joining parts.** -/
theorem joined_induction {P : Sql → Prop} {separator : String} {parts : List Sql} (hnil : P [])
    (hbetween : ∀ a c, P a → P c → P (a ++ .text separator :: c)) (h : ∀ part ∈ parts, P part) :
    P (joined separator parts) := by
  induction parts with
  | nil => exact hnil
  | cons part rest ih =>
    obtain ⟨hpart, hrest⟩ := List.forall_mem_cons.1 h
    cases rest with
    | nil => exact hpart
    | cons next rest => exact hbetween _ _ hpart (ih hrest)

/-- Each of the parts is there as it is. -/
theorem infix_joined {separator : String} {parts : List Sql} {part : Sql} (hm : part ∈ parts) :
    part <:+: joined separator parts := by
  induction parts with
  | nil => exact absurd hm (by simp)
  | cons first rest ih =>
    cases rest with
    | nil => exact List.mem_singleton.1 hm ▸ List.infix_rfl
    | cons next rest =>
      rcases List.mem_cons.1 hm with rfl | hm
      · exact (List.prefix_append _ _).isInfix
      · exact (ih hm).trans ((List.suffix_cons _ _).trans (List.suffix_append _ _)).isInfix

/-! ## Semicolons -/

/-- Only the end of a text is lost with its semicolons. -/
theorem dropSemicolons_prefix (s : String) : (dropSemicolons s).toList <+: s.toList := by
  unfold dropSemicolons
  rw [String.toList_ofList]
  have hsuffix := List.dropWhile_suffix (fun c => decide (c = ';')) (l := s.toList.reverse)
  rw [← List.reverse_prefix, List.reverse_reverse] at hsuffix
  exact hsuffix

theorem withoutSemicolons_text (sql : Sql) (s : String) :
    withoutSemicolons (sql ++ [.text s]) =
      if dropSemicolons s = "" then withoutSemicolons sql
      else sql ++ [.text (dropSemicolons s)] := by
  unfold withoutSemicolons
  rw [List.reverse_append, List.reverse_singleton, List.singleton_append, dropLeading]
  split
  · rfl
  · rw [List.reverse_cons, List.reverse_reverse]

theorem withoutSemicolons_of_ne_text (sql : Sql) {p : Piece} (hp : ∀ s, p ≠ .text s) :
    withoutSemicolons (sql ++ [p]) = sql ++ [p] := by
  unfold withoutSemicolons
  rw [List.reverse_append, List.reverse_singleton, List.singleton_append, dropLeading]
  · rw [List.reverse_cons, List.reverse_reverse]
  · intro s _ h
    injection h with h _
    exact hp s h

variable {a c : Sql}

theorem dropLeading_append :
    dropLeading (a ++ c) = if dropLeading a = [] then dropLeading c else dropLeading a ++ c := by
  induction a with
  | nil => rfl
  | cons p rest ih =>
    cases p with
    | text s =>
      rw [List.cons_append, dropLeading, dropLeading]
      by_cases hs : dropSemicolons s = ""
      · rw [if_pos hs, if_pos hs, ih]
      · rw [if_neg hs, if_neg hs, if_neg (List.cons_ne_nil _ _), List.cons_append]
    | _ => rfl

/-- Semicolons are dropped from the second part, and from the first one only when nothing is left
of the second. -/
theorem withoutSemicolons_append :
    withoutSemicolons (a ++ c) =
      if withoutSemicolons c = [] then withoutSemicolons a else a ++ withoutSemicolons c := by
  unfold withoutSemicolons
  rw [List.reverse_append, dropLeading_append]
  by_cases hc : dropLeading c.reverse = []
  · rw [if_pos hc, if_pos (List.reverse_eq_nil_iff.2 hc)]
  · rw [if_neg hc, if_neg (mt List.reverse_eq_nil_iff.1 hc), List.reverse_append,
      List.reverse_reverse]

end Sql

end RecordSql
