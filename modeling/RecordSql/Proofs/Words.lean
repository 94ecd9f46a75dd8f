import RecordSql.Proofs.Clause
import RecordSql.Proofs.TextSearch

/-!
# The words of SQL

A reader of the text of a statement who looks for the names in it: a word is what stands between
blanks, parentheses, commas, semicolons and equals signs. The points and quotes of a qualified name
belong to its word, so a column is never mistaken for something else that is spelled like a part
of it. Nothing is read in a string literal.

Texts are read one after the other where a separator stands between them. Almost all wording of a
statement starts and ends with one; what a part of a statement says in words is then put together
from what its parts say.
-/

namespace RecordSql

namespace Text

variable {cs cs' : List Char} {c : Char} {s : String}

/-! ## Outside literals -/

/-- A text with blanks in place of its string literals. -/
def shown : (inside : Bool) → List Char → List Char
  | _, [] => []
  | inside, c :: rest =>
    if c = '\'' then ' ' :: shown (!inside) rest
    else (if inside then ' ' else c) :: shown inside rest

/-- Whether a text that is read from inside a literal, or from outside, ends inside one. -/
def endsInside (inside : Bool) (cs : List Char) : Bool :=
  cs.foldl (fun inside c => if c = '\'' then !inside else inside) inside

/-- Every literal that the text starts is closed in it. -/
def Closed (cs : List Char) : Prop := endsInside false cs = false

instance (cs : List Char) : Decidable (Closed cs) := inferInstanceAs (Decidable (_ = _))

theorem endsInside_append (inside : Bool) :
    endsInside inside (cs ++ cs') = endsInside (endsInside inside cs) cs' :=
  List.foldl_append

theorem Closed.append (h : Closed cs) (h' : Closed cs') : Closed (cs ++ cs') := by
  unfold Closed
  rw [endsInside_append, h, h']

theorem shown_append (inside : Bool) :
    shown inside (cs ++ cs') = shown inside cs ++ shown (endsInside inside cs) cs' := by
  induction cs generalizing inside with
  | nil => rfl
  | cons c cs ih =>
    have hends : endsInside inside (c :: cs) =
        endsInside (if c = '\'' then !inside else inside) cs := rfl
    rw [List.cons_append, shown, shown, hends]
    by_cases hc : c = '\''
    · rw [if_pos hc, if_pos hc, if_pos hc, ih, List.cons_append]
    · rw [if_neg hc, if_neg hc, if_neg hc, ih, List.cons_append]

/-- A text without quotes is shown as it is. -/
theorem shown_of_not_mem (h : '\'' ∉ cs) : Closed cs ∧ shown false cs = cs := by
  induction cs with
  | nil => exact ⟨rfl, rfl⟩
  | cons c cs ih =>
    obtain ⟨hc, hcs⟩ := not_or.1 (mt List.mem_cons.2 h)
    obtain ⟨hclosed, hshown⟩ := ih hcs
    rw [shown, if_neg (Ne.symm hc), hshown]
    refine ⟨?_, rfl⟩
    unfold Closed endsInside
    rw [List.foldl_cons, if_neg (Ne.symm hc)]
    exact hclosed

/-! ## Words -/

/-- Whether a character ends a word. -/
def isBreak (c : Char) : Bool := [' ', '\n', '(', ')', ',', ';', '='].contains c

/-- The words of a text. -/
def words (cs : List Char) : List String :=
  (((shown false cs).splitOnP isBreak).filter (· ≠ [])).map String.ofList

theorem words_nil : words [] = [] := rfl

theorem ne_quote_of_isBreak (h : isBreak c = true) : c ≠ '\'' := by
  rintro rfl
  exact absurd h (by decide)

/-- **Texts are read one after the other** where there is a break between them. -/
theorem words_append_break (h : Closed cs) (hc : isBreak c = true) :
    words (cs ++ c :: cs') = words cs ++ words cs' := by
  have hshown : shown false (cs ++ c :: cs') = shown false cs ++ c :: shown false cs' := by
    rw [shown_append, h, shown, if_neg (ne_quote_of_isBreak hc)]
    rfl
  rw [words, hshown, List.splitOnP_append_cons _ _ hc, List.filter_append, List.map_append]
  rfl

theorem words_cons_break (hc : isBreak c = true) : words (c :: cs) = words cs :=
  words_append_break (by decide : Closed []) hc

/-- Whether a text starts with a break. -/
def startsApart (cs : List Char) : Bool := cs.head?.any isBreak

/-- Whether a text ends in a break. -/
def endsApart (cs : List Char) : Bool := cs.getLast?.any isBreak

theorem startsApart_append (h : startsApart cs = true) : startsApart (cs ++ cs') = true := by
  cases cs with
  | nil => exact absurd h (by decide)
  | cons c rest => exact h

theorem endsApart_append (h : endsApart cs' = true) : endsApart (cs ++ cs') = true := by
  rw [endsApart, List.getLast?_append]
  cases hlast : cs'.getLast? with
  | none =>
    rw [endsApart, hlast] at h
    exact absurd h (by decide)
  | some c =>
    rw [endsApart, hlast] at h
    exact h

theorem words_append_startsApart (h : Closed cs) (hs : startsApart cs' = true) :
    words (cs ++ cs') = words cs ++ words cs' := by
  cases cs' with
  | nil => exact absurd hs (by decide)
  | cons c rest => rw [words_append_break h hs, words_cons_break hs]

theorem words_append_endsApart (h : Closed cs) (hs : endsApart cs = true) :
    words (cs ++ cs') = words cs ++ words cs' := by
  cases hlast : cs.getLast? with
  | none =>
    rw [endsApart, hlast] at hs
    exact absurd hs (by decide)
  | some c =>
    rw [endsApart, hlast] at hs
    obtain ⟨init, rfl⟩ := List.getLast?_eq_some_iff.1 hlast
    have hinit : Closed init := by
      unfold Closed at h
      rw [endsInside_append, endsInside, List.foldl_cons, if_neg (ne_quote_of_isBreak hs)] at h
      exact h
    rw [List.append_assoc, List.singleton_append, words_append_break hinit hs,
      words_append_break hinit hs, words_nil, List.append_nil]

/-- A text without breaks and literals is one word. -/
def Unbroken (cs : List Char) : Prop :=
  cs ≠ [] ∧ ∀ c ∈ cs, isBreak c = false ∧ c ≠ '\''

instance (cs : List Char) : Decidable (Unbroken cs) :=
  have : Decidable (∀ c ∈ cs, isBreak c = false ∧ c ≠ '\'') := List.decidableBAll _ cs
  inferInstanceAs (Decidable (_ ∧ _))

theorem Unbroken.append (h : Unbroken cs) (h' : ∀ c ∈ cs', isBreak c = false ∧ c ≠ '\'') :
    Unbroken (cs ++ cs') :=
  ⟨List.append_ne_nil_of_left_ne_nil h.1 _, List.forall_mem_append.2 ⟨h.2, h'⟩⟩

theorem Unbroken.closed (h : Unbroken cs) : Closed cs :=
  (shown_of_not_mem fun hm => (h.2 _ hm).2 rfl).1

theorem Unbroken.words (h : Unbroken cs) : words cs = [String.ofList cs] := by
  rw [Text.words, (shown_of_not_mem fun hm => (h.2 _ hm).2 rfl).2,
    List.splitOnP_eq_singleton fun c hc => (h.2 c hc).1]
  simp [h.1]

theorem exists_intercalate_cons (separator part : List Char) (rest : List (List Char)) :
    ∃ tail, List.intercalate separator (part :: rest) = part ++ tail := by
  cases rest with
  | nil => exact ⟨[], by rw [List.intercalate_singleton, List.append_nil]⟩
  | cons next rest => exact ⟨_, by rw [List.intercalate_cons_cons, List.append_assoc]⟩

/-- Words with something unbroken between them are one word. -/
theorem Unbroken.intercalate {parts : List (List Char)} (hc : isBreak c = false ∧ c ≠ '\'')
    (hne : parts ≠ []) (h : ∀ part ∈ parts, Unbroken part) :
    Unbroken (List.intercalate [c] parts) := by
  constructor
  · obtain ⟨part, rest, rfl⟩ := List.exists_cons_of_ne_nil hne
    obtain ⟨tail, htail⟩ := exists_intercalate_cons [c] part rest
    rw [htail]
    exact List.append_ne_nil_of_left_ne_nil (h part List.mem_cons_self).1 _
  · intro d hd
    by_cases hdc : d = c
    · rw [hdc]
      exact hc
    · have hinfix : [d] <:+: List.intercalate [c] parts := (List.singleton_infix_iff _ _).2 hd
      obtain ⟨part, hpart, hdpart⟩ := (infix_intercalate (by simp)
        (by simpa using Ne.symm hdc)).1 hinfix
      exact (h part hpart).2 d ((List.singleton_infix_iff _ _).1 hdpart)

/-- A text of breaks only has no words. -/
theorem words_eq_nil (h : ∀ c ∈ shown false cs, isBreak c = true) : words cs = [] := by
  rw [words]
  generalize shown false cs = text at h
  induction text with
  | nil => rfl
  | cons c text ih =>
    have hrest := ih fun d hd => h d (List.mem_cons_of_mem _ hd)
    rw [List.splitOnP_cons_eq_if_modifyHead, if_pos (h c List.mem_cons_self)]
    exact hrest

/-- Doubled quotes do not end a literal. -/
theorem shown_doubled (cs : List Char) :
    endsInside true (doubled '\'' cs) = true ∧
      ∀ c ∈ shown true (doubled '\'' cs), isBreak c = true := by
  induction cs with
  | nil => exact ⟨rfl, by simp [doubled, shown]⟩
  | cons c cs ih =>
    obtain ⟨hends, hbreaks⟩ := ih
    by_cases hc : c = '\''
    · subst hc
      exact ⟨hends, List.forall_mem_cons.2 ⟨by decide, List.forall_mem_cons.2 ⟨by decide, hbreaks⟩⟩⟩
    · rw [doubled, if_neg hc, shown, if_neg hc, if_pos rfl]
      refine ⟨?_, List.forall_mem_cons.2 ⟨by decide, hbreaks⟩⟩
      rw [endsInside, List.foldl_cons, if_neg hc]
      exact hends

/-- Nothing is read in a literal, whatever it holds. -/
theorem words_quoteLiteral (s : String) :
    Closed (quoteLiteral s).toList ∧ words (quoteLiteral s).toList = [] := by
  obtain ⟨hends, hbreaks⟩ := shown_doubled s.toList
  rw [quoteLiteral, String.toList_ofList, between]
  constructor
  · rw [Closed, endsInside_append]
    have hquote : endsInside false ('\'' :: doubled '\'' s.toList) = true := hends
    rw [hquote]
    rfl
  · refine words_eq_nil ?_
    have hshown : shown false ('\'' :: doubled '\'' s.toList ++ ['\'']) =
        ' ' :: (shown true (doubled '\'' s.toList) ++ [' ']) := by
      rw [List.cons_append, shown, if_pos rfl, Bool.not_false, shown_append, hends]
      rfl
    rw [hshown]
    refine List.forall_mem_cons.2 ⟨by decide, List.forall_mem_append.2 ⟨hbreaks, ?_⟩⟩
    exact List.forall_mem_singleton.2 (by decide)

end Text

/-! ## The words of a part of a statement -/

namespace Sql

open Text

variable {style : Style} {P Q R : List String → Prop} {a c sql : Sql} {s : String}

/-- Wherever the parameters of a part are numbered from, its literals are closed in it, and its
words are of a kind. -/
def Worded (style : Style) (P : List String → Prop) (sql : Sql) : Prop :=
  ∀ n, Closed (charsFrom style n sql) ∧ P (words (charsFrom style n sql))

/-- Wording that keeps apart what stands on either side. -/
def Separates (s : String) : Prop :=
  Closed s.toList ∧ startsApart s.toList = true ∧ endsApart s.toList = true

instance (s : String) : Decidable (Separates s) := inferInstanceAs (Decidable (_ ∧ _))

namespace Worded

theorem imp (h : Worded style P sql) (hw : ∀ ws, P ws → Q ws) : Worded style Q sql :=
  fun n => ⟨(h n).1, hw _ (h n).2⟩

theorem nil (h : P []) : Worded style P [] := fun _ => ⟨rfl, h⟩

/-- A piece that is one word. -/
theorem single {p : Piece} (hu : ∀ n, Unbroken (p.write style n).toList)
    (h : ∀ n, P [p.write style n]) : Worded style P [p] := by
  intro n
  have hchars : charsFrom style n [p] = (p.write style n).toList := by
    obtain ⟨m, hm⟩ := exists_charsFrom_cons style p [] n
    rw [hm, charsFrom, List.append_nil]
  rw [hchars, (hu n).words, String.ofList_toList]
  exact ⟨(hu n).closed, h n⟩

theorem text (hs : Closed s.toList) (h : P (words s.toList)) : Worded style P [.text s] := by
  intro n
  rw [charsFrom_of_binding?_none rfl, Piece.write, charsFrom, List.append_nil]
  exact ⟨hs, h⟩

/-- Wording of any kind in front of a part. -/
theorem after {p : Piece} (hp : p.binding? = none) (hw : ∀ n, p.write style n = s)
    (hs : Closed s.toList) (he : endsApart s.toList = true) (hc : Worded style Q c)
    (h : ∀ ws, Q ws → P (words s.toList ++ ws)) : Worded style P (p :: c) := by
  intro n
  obtain ⟨hclosed, hq⟩ := hc n
  rw [charsFrom_of_binding?_none hp, hw, words_append_endsApart hs he]
  exact ⟨hs.append hclosed, h _ hq⟩

/-- Wording behind a part. -/
theorem before (ha : Worded style Q a) (hs : Closed s.toList) (ho : startsApart s.toList = true)
    (h : ∀ ws, Q ws → P (ws ++ words s.toList)) : Worded style P (a ++ [.text s]) := by
  intro n
  obtain ⟨hclosed, hq⟩ := ha n
  have hchars : charsFrom style n (a ++ [.text s]) = charsFrom style n a ++ s.toList := by
    rw [charsFrom_append, charsFrom_of_binding?_none rfl, Piece.write, charsFrom, List.append_nil]
  rw [hchars, words_append_startsApart hclosed ho]
  exact ⟨hclosed.append hs, h _ hq⟩

/-- Wording between two parts. -/
theorem between (ha : Worded style P a) (hs : Separates s) (hc : Worded style Q c)
    (h : ∀ us ws, P us → Q ws → R (us ++ (words s.toList ++ ws))) :
    Worded style R (a ++ .text s :: c) := by
  intro n
  obtain ⟨hclosed, hp⟩ := ha n
  obtain ⟨hclosed', hq⟩ := hc (n + a.bindings.length)
  rw [charsFrom_between, words_append_startsApart hclosed (startsApart_append hs.2.1),
    words_append_endsApart hs.1 hs.2.2]
  exact ⟨hclosed.append (hs.1.append hclosed'), h _ _ hp hq⟩

/-- Parts of one kind, kept apart by wording without words. -/
theorem joined {separator : String} {parts : List Sql} (hs : Separates separator)
    (hw : words separator.toList = []) (hnil : P [])
    (happend : ∀ us ws, P us → P ws → P (us ++ ws)) (h : ∀ part ∈ parts, Worded style P part) :
    Worded style P (Sql.joined separator parts) := by
  refine joined_induction (nil hnil) (fun a c ha hc => ?_) h
  refine ha.between hs hc fun us ws hu hws => ?_
  rw [hw, List.nil_append]
  exact happend us ws hu hws

end Worded

end Sql

end RecordSql
