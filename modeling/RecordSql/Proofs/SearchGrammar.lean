import Mathlib.Data.List.ReduceOption
import RecordSql.Proofs.Clause
import RecordSql.Proofs.WireReading

/-!
# The grammar of search texts

A search text is a number of negations, and a rest that they negate. The reader takes the negations
off one by one and then tries its rules in order, while the marks it looks for may stand anywhere:
`_RANGE_` in a list or behind `LIKE_`, and both again behind a negation.

Here the texts are described without the reader. A rest spells a value, a search for a part, a list
or a range, each on conditions that exclude the others, or it lacks something and is refused; a
number of negations and a rest ask for one predicate. The reader accepts just these texts and gives
just these predicates. The argument is an induction on the number of negations: one more of them
negates what is read behind it, except that the test for null takes the last one into itself.
-/

namespace RecordSql

open Text Checked

namespace Predicate

variable {cs r before rest : List Char} {k : Nat} {p : Predicate} {fault : Fault}

/-! ## Parts of a text -/

/-- What stands between the blanks of a text; nothing when there are only blanks. -/
inductive Stands : List Char → Option String → Prop where
  | nothing {cs : List Char} : Blank cs → Stands cs none
  | value {left right : List Char} {text : String} : text ≠ "" → Unpadded text.toList →
      Blank left → Blank right → Stands (left ++ text.toList ++ right) (some text)

/-- A text that is cut around the first place where a pattern stands. -/
structure CutAt (mark : String) (cs before rest : List Char) : Prop where
  split : cs = before ++ mark.toList ++ rest
  first : ∀ b r, cs = b ++ mark.toList ++ r → before.length ≤ b.length

/-- A text in pieces between commas. -/
structure Pieces (cs : List Char) (parts : List (List Char)) : Prop where
  joined : List.intercalate [','] parts = cs
  nonempty : parts ≠ []
  whole : ∀ part ∈ parts, ',' ∉ part

theorem bound?_eq_none : bound? cs = none ↔ Blank cs := by
  rw [← trim_eq_nil]
  unfold bound?
  by_cases h : trim cs = []
  · simp [h]
  · simp [h]

theorem stands_iff {side : Option String} : Stands cs side ↔ bound? cs = side := by
  constructor
  · intro h
    cases h with
    | nothing hb => exact bound?_eq_none.2 hb
    | value hne ht hl hr => exact bound?_eq_some.2 ⟨trim_padded hl ht hr, hne⟩
  · rintro rfl
    cases hb : bound? cs with
    | none => exact .nothing (bound?_eq_none.1 hb)
    | some text =>
      obtain ⟨htrim, hne⟩ := bound?_eq_some.1 hb
      obtain ⟨left, right, hl, hr, hcs⟩ := exists_padded cs
      have hunpadded := unpadded_trim cs
      rw [htrim] at hcs hunpadded
      rw [hcs]
      exact .value hne hunpadded hl hr

theorem cutAt_iff {mark : String} :
    CutAt mark cs before rest ↔ cut? mark.toList cs = some (before, rest) :=
  ⟨fun h => cut?_eq_some.2 ⟨h.split, h.first⟩,
    fun h => ⟨(cut?_eq_some.1 h).1, (cut?_eq_some.1 h).2⟩⟩

theorem pieces_iff {parts : List (List Char)} : Pieces cs parts ↔ pieces ',' cs = parts := by
  constructor
  · intro h
    rw [← h.joined]
    exact pieces_intercalate h.nonempty h.whole
  · rintro rfl
    obtain ⟨hjoin, hne, hwhole⟩ := intercalate_pieces ',' cs
    exact ⟨hjoin, hne, hwhole⟩

/-- The items of a list are what stands in its pieces, blank ones left out. -/
theorem items_eq (cs : List Char) : items cs = ((pieces ',' cs).map bound?).reduceOption := by
  unfold items
  generalize pieces ',' cs = parts
  induction parts with
  | nil => rfl
  | cons part parts ih =>
    by_cases hpart : trim part = []
    · have hbound : bound? part = none := if_pos hpart
      rw [List.map_cons, List.filter_cons_of_neg (by simpa using hpart), ih, List.map_cons, hbound,
        List.reduceOption_cons_of_none]
    · have hbound : bound? part = some (String.ofList (trim part)) := if_neg hpart
      rw [List.map_cons, List.filter_cons_of_pos (by simpa using hpart), List.map_cons, ih,
        List.map_cons, hbound, List.reduceOption_cons_of_some]

theorem stands_pieces {parts : List (List Char)} {sides : List (Option String)} :
    List.Forall₂ Stands parts sides ↔ parts.map bound? = sides := by
  have hstands : Stands = fun part side => bound? part = side :=
    funext₂ fun _ _ => propext stands_iff
  rw [hstands, ← List.forall₂_eq_eq_eq, List.forall₂_map_left_iff]

/-! ## The grammar -/

/-- A text as negations, as many as there are, and the rest that they negate. -/
structure Negates (cs : List Char) (k : Nat) (r : List Char) : Prop where
  split : cs = (List.replicate k notMark.toList).flatten ++ r
  rest : ¬ notMark.toList <+: r

/-- A rest that spells a predicate with values. -/
inductive Spells : List Char → Predicate → Prop where
  | range {cs before rest : List Char} {lower upper : Option String} :
      CutAt rangeMark cs before rest → Stands before lower → Stands rest upper →
      lower.isSome ∨ upper.isSome → Spells cs (.range lower upper)
  | list {rest : List Char} {parts : List (List Char)} {sides : List (Option String)} :
      ¬ rangeMark.toList <:+: listMark.toList ++ rest → Pieces rest parts →
      List.Forall₂ Stands parts sides → sides.reduceOption ≠ [] →
      Spells (listMark.toList ++ rest) (.list sides.reduceOption)
  | like {text : String} : ¬ rangeMark.toList <:+: likeMark.toList ++ text.toList →
      Spells (likeMark.toList ++ text.toList) (.like text)
  | equals {text : String} : text ≠ "" → text ≠ nullMark → ¬ rangeMark.toList <:+: text.toList →
      ¬ listMark.toList <+: text.toList → ¬ likeMark.toList <+: text.toList →
      Spells text.toList (.equals text)

/-- What negations and their rest ask for. The test for null takes the last negation into itself. -/
inductive Asks : Nat → List Char → Predicate → Prop where
  | isNull : Asks 0 nullMark.toList .isNull
  | isNotNull {k : Nat} : Asks (k + 1) nullMark.toList (Predicate.not^[k] .isNotNull)
  | value {k : Nat} {r : List Char} {p : Predicate} : Spells r p → Asks k r (Predicate.not^[k] p)

/-- Why a rest is refused, however many negations it has. -/
inductive Refused : List Char → Fault → Prop where
  | nothing : Refused [] .negatesNothing
  | openRange {r before rest : List Char} : CutAt rangeMark r before rest → Blank before →
      Blank rest → Refused r (.openRange (String.ofList r))
  | emptyList {rest : List Char} {parts : List (List Char)} :
      ¬ rangeMark.toList <:+: listMark.toList ++ rest → Pieces rest parts →
      (∀ part ∈ parts, Blank part) →
      Refused (listMark.toList ++ rest) (.emptyList (String.ofList (listMark.toList ++ rest)))

theorem refused_nil : Refused [] fault ↔ fault = .negatesNothing := by
  constructor
  · generalize hr : ([] : List Char) = r
    intro h
    cases h with
    | nothing => rfl
    | openRange hcut =>
      rw [hcut.split] at hr
      simp [rangeMark] at hr
    | emptyList => simp [listMark] at hr
  · rintro rfl
    exact .nothing

/-! ## A rest -/

theorem spells_iff (hne : r ≠ []) :
    readPlain r = .ok p ↔ (r = nullMark.toList ∧ p = .isNull) ∨ Spells r p := by
  rw [readPlain_eq_ok]
  refine or_congr_right ?_
  constructor
  · rintro (⟨before, rest, hcut, hsome, rfl⟩ | ⟨hrange, ⟨rest, rfl, hitems, rfl⟩ |
      ⟨text, rfl, rfl⟩ | ⟨hnull, hlist, hlike, rfl⟩⟩)
    · exact .range (cutAt_iff.2 hcut) (stands_iff.2 rfl) (stands_iff.2 rfl) hsome
    · rw [items_eq] at hitems ⊢
      exact .list hrange (pieces_iff.2 rfl) (stands_pieces.2 rfl) hitems
    · exact .like hrange
    · have htext : r = (String.ofList r).toList := String.toList_ofList.symm
      rw [htext] at hne hrange hnull hlist hlike
      rw [htext, String.ofList_toList]
      exact .equals (mt String.toList_eq_nil_iff.2 hne) (mt (congrArg String.toList) hnull) hrange
        hlist hlike
  · intro h
    cases h with
    | range hcut hlower hupper hsome =>
      rw [stands_iff] at hlower hupper
      rw [← hlower, ← hupper] at hsome ⊢
      exact .inl ⟨_, _, cutAt_iff.1 hcut, hsome, rfl⟩
    | list hrange hparts hsides hitems =>
      rw [← stands_pieces.1 hsides, ← pieces_iff.1 hparts, ← items_eq] at hitems ⊢
      exact .inr ⟨hrange, .inl ⟨_, rfl, hitems, rfl⟩⟩
    | like hrange => exact .inr ⟨hrange, .inr (.inl ⟨_, rfl, rfl⟩)⟩
    | equals hempty hnull hrange hlist hlike =>
      refine .inr ⟨hrange, .inr (.inr ⟨?_, hlist, hlike, ?_⟩)⟩
      · exact mt String.toList_inj.1 hnull
      · rw [String.ofList_toList]

theorem readRange_eq_error {whole : List Char} :
    readRange whole before rest = .error fault ↔
      Blank before ∧ Blank rest ∧ fault = .openRange (String.ofList whole) := by
  rw [← bound?_eq_none, ← bound?_eq_none, eq_comm (a := fault)]
  unfold readRange
  cases bound? before with
  | none =>
    cases bound? rest with
    | none => simp
    | some upper => simp
  | some lower => simp

theorem items_eq_nil : items cs = [] ↔ ∀ part ∈ pieces ',' cs, Blank part := by
  unfold items
  rw [List.map_eq_nil_iff, List.filter_eq_nil_iff, List.forall_mem_map]
  refine forall₂_congr fun part _ => ?_
  rw [← trim_eq_nil, decide_eq_true_iff, not_not]

theorem readList_eq_error {whole : List Char} :
    readList whole rest = .error fault ↔
      (∀ part ∈ pieces ',' rest, Blank part) ∧ fault = .emptyList (String.ofList whole) := by
  rw [← items_eq_nil, eq_comm (a := fault)]
  unfold readList
  cases items rest with
  | nil => simp
  | cons item others => simp

theorem readPlain_eq_error (hne : r ≠ []) : readPlain r = .error fault ↔ Refused r fault := by
  constructor
  · intro h
    rcases readPlain_cases r with rfl | ⟨before, rest, hcut⟩ |
      ⟨hrange, ⟨rest, rfl⟩ | ⟨rest, rfl⟩ | ⟨hnull, hlist, hlike⟩⟩
    · rw [readPlain_null] at h
      exact absurd h (by simp)
    · rw [readPlain_range hcut] at h
      obtain ⟨hbefore, hrest, rfl⟩ := readRange_eq_error.1 h
      exact .openRange (cutAt_iff.2 hcut) hbefore hrest
    · rw [readPlain_list hrange] at h
      obtain ⟨hblank, rfl⟩ := readList_eq_error.1 h
      exact .emptyList hrange (pieces_iff.2 rfl) hblank
    · rw [readPlain_like hrange] at h
      exact absurd h (by simp)
    · rw [readPlain_equals hrange hnull hlist hlike] at h
      exact absurd h (by simp)
  · intro h
    cases h with
    | nothing => exact absurd rfl hne
    | openRange hcut hbefore hrest =>
      rw [readPlain_range (cutAt_iff.1 hcut)]
      exact readRange_eq_error.2 ⟨hbefore, hrest, rfl⟩
    | emptyList hrange hparts hblank =>
      rw [readPlain_list hrange]
      rw [← pieces_iff.1 hparts] at hblank
      exact readList_eq_error.2 ⟨hblank, rfl⟩

/-! ## Negations -/

theorem negates_zero : Negates cs 0 r ↔ cs = r ∧ ¬ notMark.toList <+: r :=
  ⟨fun h => ⟨h.split, h.rest⟩, fun h => ⟨h.1, h.2⟩⟩

theorem negates_succ :
    Negates cs (k + 1) r ↔ ∃ tail, cs = notMark.toList ++ tail ∧ Negates tail k r := by
  constructor
  · intro h
    refine ⟨(List.replicate k notMark.toList).flatten ++ r, ?_, rfl, h.rest⟩
    rw [h.split, List.replicate_succ, List.flatten_cons, List.append_assoc]
  · rintro ⟨tail, rfl, h⟩
    refine ⟨?_, h.rest⟩
    rw [h.split, List.replicate_succ, List.flatten_cons, List.append_assoc]

/-- Negations are taken off as long as there are any. -/
theorem exists_negates (cs : List Char) : ∃ k r, Negates cs k r := by
  induction hn : cs.length using Nat.strongRecOn generalizing cs with
  | ind n ih =>
    by_cases hnot : notMark.toList <+: cs
    · obtain ⟨tail, rfl⟩ := hnot
      have hshorter : tail.length < n := by
        rw [← hn, List.length_append]
        exact Nat.lt_add_of_pos_left (by decide)
      obtain ⟨k, r, h⟩ := ih _ hshorter tail rfl
      exact ⟨k + 1, r, negates_succ.2 ⟨tail, rfl, h⟩⟩
    · exact ⟨0, cs, negates_zero.2 ⟨rfl, hnot⟩⟩

theorem Negates.unique {k' : Nat} {r' : List Char} (h : Negates cs k r) (h' : Negates cs k' r') :
    k' = k ∧ r' = r := by
  induction k generalizing cs k' with
  | zero =>
    obtain ⟨rfl, hnot⟩ := negates_zero.1 h
    cases k' with
    | zero => exact ⟨rfl, (negates_zero.1 h').1.symm⟩
    | succ k' =>
      obtain ⟨tail, hcs, -⟩ := negates_succ.1 h'
      exact absurd ⟨tail, hcs.symm⟩ hnot
  | succ k ih =>
    obtain ⟨tail, rfl, htail⟩ := negates_succ.1 h
    cases k' with
    | zero =>
      obtain ⟨rfl, hnot⟩ := negates_zero.1 h'
      exact absurd (List.prefix_append _ _) hnot
    | succ k' =>
      obtain ⟨tail', hcs, htail'⟩ := negates_succ.1 h'
      rw [← List.append_cancel_left hcs] at htail'
      obtain ⟨rfl, rfl⟩ := ih htail htail'
      exact ⟨rfl, rfl⟩

theorem negates_null : Negates nullMark.toList k r ↔ k = 0 ∧ r = nullMark.toList := by
  have hself : Negates nullMark.toList 0 nullMark.toList := negates_zero.2 ⟨rfl, by decide⟩
  constructor
  · exact hself.unique
  · rintro ⟨rfl, rfl⟩
    exact hself

theorem negates_nil : Negates [] k r ↔ k = 0 ∧ r = [] := by
  have hself : Negates [] 0 [] := negates_zero.2 ⟨rfl, by decide⟩
  constructor
  · exact hself.unique
  · rintro ⟨rfl, rfl⟩
    exact hself

/-! ## Negations and their rest -/

theorem Spells.ne_nil (h : Spells r p) : r ≠ [] := by
  cases h with
  | range hcut =>
    rw [hcut.split]
    simp [rangeMark]
  | list => simp [listMark]
  | like => simp [likeMark]
  | equals hne => exact mt String.toList_eq_nil_iff.1 hne

theorem Spells.ne_null (h : Spells r p) : r ≠ nullMark.toList := by
  intro hr
  have hread : readPlain r = .ok p := (spells_iff h.ne_nil).2 (.inr h)
  have hnull : readPlain nullMark.toList = .ok .isNull := rfl
  rw [hr, hnull] at hread
  obtain rfl := Except.ok.inj hread
  cases h

theorem asks_zero : Asks 0 r p ↔ (r = nullMark.toList ∧ p = .isNull) ∨ Spells r p := by
  constructor
  · intro h
    cases h with
    | isNull => exact .inl ⟨rfl, rfl⟩
    | value h => exact .inr h
  · rintro (⟨rfl, rfl⟩ | h)
    · exact .isNull
    · exact .value h

theorem asks_succ :
    Asks (k + 1) r p ↔ (k = 0 ∧ r = nullMark.toList ∧ p = .isNotNull) ∨
      (¬ (k = 0 ∧ r = nullMark.toList) ∧ ∃ q, Asks k r q ∧ p = .not q) := by
  constructor
  · intro h
    cases h with
    | isNotNull =>
      cases k with
      | zero => exact .inl ⟨rfl, rfl, rfl⟩
      | succ k =>
        rw [Function.iterate_succ_apply']
        exact .inr ⟨by simp, _, .isNotNull, rfl⟩
    | value h =>
      rw [Function.iterate_succ_apply']
      exact .inr ⟨fun hnull => h.ne_null hnull.2, _, .value h, rfl⟩
  · rintro (⟨rfl, rfl, rfl⟩ | ⟨hnull, q, hq, rfl⟩)
    · exact .isNotNull (k := 0)
    · cases hq with
      | isNull => exact absurd ⟨rfl, rfl⟩ hnull
      | @isNotNull k =>
        rw [← Function.iterate_succ_apply' Predicate.not]
        exact .isNotNull
      | value h =>
        rw [← Function.iterate_succ_apply' Predicate.not]
        exact .value h

theorem readChars_not (tail : List Char) :
    readChars (notMark.toList ++ tail) =
      if tail = nullMark.toList then .ok .isNotNull
      else if tail = [] then .error .negatesNothing
      else (readChars tail).map .not := rfl

theorem readChars_plain (h : ¬ notMark.toList <+: cs) : readChars cs = readPlain cs := by
  rw [readChars]
  intro tail hcs
  exact h ⟨tail, hcs.symm⟩

/-- **A text that is not empty reads as what its negations and its rest ask for.** -/
theorem Negates.readChars_eq_ok (h : Negates cs k r) (hne : cs ≠ []) :
    readChars cs = .ok p ↔ Asks k r p := by
  induction k generalizing cs p with
  | zero =>
    obtain ⟨rfl, hnot⟩ := negates_zero.1 h
    rw [readChars_plain hnot, spells_iff hne, asks_zero]
  | succ k ih =>
    obtain ⟨tail, rfl, htail⟩ := negates_succ.1 h
    rw [readChars_not, asks_succ]
    by_cases hnull : tail = nullMark.toList
    · subst hnull
      obtain ⟨rfl, rfl⟩ := negates_null.1 htail
      simp [eq_comm]
    have hnull' : ¬ (k = 0 ∧ r = nullMark.toList) := by
      rintro ⟨rfl, rfl⟩
      exact hnull (negates_zero.1 htail).1
    rw [if_neg hnull]
    by_cases hnil : tail = []
    · subst hnil
      obtain ⟨rfl, rfl⟩ := negates_nil.1 htail
      have hnothing : ∀ q, ¬ Asks 0 [] q := by
        intro q hq
        rcases asks_zero.1 hq with ⟨hr, -⟩ | hq
        · exact absurd hr (by decide)
        · exact hq.ne_nil rfl
      simp [hnothing, nullMark]
    · rw [if_neg hnil, map_eq_ok]
      simp only [ih htail hnil, hnull', false_or, not_false_eq_true, true_and, ← and_assoc,
        false_and, eq_comm (a := p)]

/-- **A text that is not empty is refused for what its rest lacks.** -/
theorem Negates.readChars_eq_error (h : Negates cs k r) (hne : cs ≠ []) :
    readChars cs = .error fault ↔ Refused r fault := by
  induction k generalizing cs with
  | zero =>
    obtain ⟨rfl, hnot⟩ := negates_zero.1 h
    rw [readChars_plain hnot, readPlain_eq_error hne]
  | succ k ih =>
    obtain ⟨tail, rfl, htail⟩ := negates_succ.1 h
    rw [readChars_not]
    by_cases hnull : tail = nullMark.toList
    · subst hnull
      obtain ⟨rfl, rfl⟩ := negates_null.1 htail
      have hread : readPlain nullMark.toList = .ok .isNull := rfl
      rw [if_pos rfl, ← readPlain_eq_error (by decide), hread]
      simp
    rw [if_neg hnull]
    by_cases hnil : tail = []
    · subst hnil
      obtain ⟨rfl, rfl⟩ := negates_nil.1 htail
      rw [if_pos rfl, refused_nil, Except.error.injEq, eq_comm]
    · rw [if_neg hnil, map_eq_error, ih htail hnil]

/-! ## Texts -/

/-- A predicate in which every range has a bound. -/
def Bounded : Predicate → Prop
  | .not inner => inner.Bounded
  | .range lower upper => lower.isSome ∨ upper.isSome
  | _ => True

theorem bounded_not (k : Nat) (h : p.Bounded) : (Predicate.not^[k] p).Bounded := by
  induction k with
  | zero => exact h
  | succ k ih =>
    rw [Function.iterate_succ_apply']
    exact ih

theorem Asks.bounded (h : Asks k r p) : p.Bounded := by
  cases h with
  | isNull => trivial
  | isNotNull => exact bounded_not _ trivial
  | value h =>
    refine bounded_not _ ?_
    cases h with
    | range _ _ _ hsome => exact hsome
    | list => trivial
    | like => trivial
    | equals => trivial

theorem parse_eq_ok {text : String} {o : Option Predicate} (h : text ≠ "") :
    parse text = .ok o ↔ ∃ p, o = some p ∧ readChars text.toList = .ok p := by
  have hne : text.toList ≠ [] := mt String.toList_eq_nil_iff.1 h
  unfold parse
  split
  next hnil => exact absurd hnil hne
  next =>
    rw [map_eq_ok]
    exact exists_congr fun p => by rw [and_comm, eq_comm]

theorem parse_eq_error {text : String} (h : text ≠ "") :
    parse text = .error fault ↔ readChars text.toList = .error fault := by
  have hne : text.toList ≠ [] := mt String.toList_eq_nil_iff.1 h
  unfold parse
  split
  next hnil => exact absurd hnil hne
  next => rw [map_eq_error]

/-- **Reading accepts just the grammar of wire forms.** A text that is not empty is in one way a
number of negations and a rest that does not start with one. It is refused, as an invalid filter,
just when the rest is: when there is none, or a range has no bound, or a list no item. Otherwise it
reads as what the negations and the rest ask for, so that every range has a bound and every list an
item. -/
theorem parse_grammar {text : String} (h : text ≠ "") :
    ∃ k r, Negates text.toList k r ∧ (∀ k' r', Negates text.toList k' r' → k' = k ∧ r' = r) ∧
      (∀ error, ofFilter ((parse text).mapError .predicate) = .error error ↔
        ∃ fault, Refused r fault ∧ error = .invalidFilter (.predicate fault)) ∧
      (∀ o, parse text = .ok o ↔ ∃ p, o = some p ∧ Asks k r p) ∧
      ∀ p, parse text = .ok (some p) → p.Bounded ∧ p.Sound := by
  have hne : text.toList ≠ [] := mt String.toList_eq_nil_iff.1 h
  obtain ⟨k, r, hn⟩ := exists_negates text.toList
  have hok : ∀ o, parse text = .ok o ↔ ∃ p, o = some p ∧ Asks k r p := by
    intro o
    rw [parse_eq_ok h]
    simp only [hn.readChars_eq_ok hne]
  refine ⟨k, r, hn, fun k' r' h' => hn.unique h', ?_, hok, ?_⟩
  · intro error
    simp only [ofFilter_eq_error, mapError_eq_error, parse_eq_error h, hn.readChars_eq_error hne]
    constructor
    · rintro ⟨_, ⟨fault, hfault, rfl⟩, rfl⟩
      exact ⟨fault, hfault, rfl⟩
    · rintro ⟨fault, hfault, rfl⟩
      exact ⟨_, ⟨fault, hfault, rfl⟩, rfl⟩
  · intro p hp
    obtain ⟨q, hq, hasks⟩ := (hok _).1 hp
    obtain rfl := Option.some.inj hq
    exact ⟨hasks.bounded, sound_parse hp⟩

/-- Two negations of a range that stands around its first mark, whatever stands on its sides. -/
theorem parse_grammar_not_not_range :
    let text := "NOT_NOT_LIST_ 3 _RANGE_ _RANGE_"
    text ≠ "" ∧ Negates text.toList 2 "LIST_ 3 _RANGE_ _RANGE_".toList ∧
      Asks 2 "LIST_ 3 _RANGE_ _RANGE_".toList
        (.not (.not (.range (some "LIST_ 3") (some "_RANGE_")))) := by
  have hne : "NOT_NOT_LIST_ 3 _RANGE_ _RANGE_" ≠ "" := by decide
  have hn : Negates "NOT_NOT_LIST_ 3 _RANGE_ _RANGE_".toList 2 "LIST_ 3 _RANGE_ _RANGE_".toList :=
    ⟨by decide, by decide⟩
  have hread : parse "NOT_NOT_LIST_ 3 _RANGE_ _RANGE_" =
      .ok (some (.not (.not (.range (some "LIST_ 3") (some "_RANGE_"))))) := rfl
  obtain ⟨k, r, -, hunique, -, hok, -⟩ := parse_grammar hne
  obtain ⟨rfl, rfl⟩ := hunique _ _ hn
  obtain ⟨p, hp, hasks⟩ := (hok _).1 hread
  obtain rfl := Option.some.inj hp
  exact ⟨hne, hn, hasks⟩

end Predicate

end RecordSql
