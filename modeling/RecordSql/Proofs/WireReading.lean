import RecordSql.Predicate.Basic
import RecordSql.Proofs.Success
import RecordSql.Proofs.TextSearch

/-!
# What a wire form reads as

Reading a wire form tries its rules in order. Here each rule is given the exact texts that it is
left with, so that nothing depends on the order any more: a text that starts with `NOT_` is a
negation, of the others one that has a `_RANGE_` is a range, and so on down to the plain value.
-/

namespace RecordSql.Predicate

open Text Checked

variable {cs before rest : List Char} {p : Predicate}

/-! ## Bounds and items -/

theorem bound?_eq_some {t : String} : bound? cs = some t ↔ trim cs = t.toList ∧ t ≠ "" := by
  unfold bound?
  by_cases h : trim cs = []
  · simp only [h, if_true, reduceCtorEq, false_iff, not_and, ne_eq, not_not]
    intro ht
    exact String.toList_eq_nil_iff.1 ht.symm
  · simp only [h, if_false, Option.some.injEq, ← String.toList_inj, String.toList_ofList]
    constructor
    · intro ht
      refine ⟨ht, ?_⟩
      rintro rfl
      exact h ht
    · exact fun ht => ht.1

/-- A bound that is read is trimmed. -/
theorem trimmed_of_bound? {t : String} (h : bound? cs = some t) : Trimmed t := by
  obtain ⟨ht, hne⟩ := bound?_eq_some.1 h
  rw [trimmed_iff, ← ht, trim_trim]
  exact ⟨fun h => hne (String.toList_eq_nil_iff.1 (ht.symm.trans h)), rfl⟩

/-- A bound that is trimmed reads as itself, and one that is not there as none. -/
theorem bound?_toList {bound : Option String} (h : ∀ t ∈ bound, Trimmed t) :
    bound? (bound.getD "").toList = bound := by
  cases bound with
  | none => rfl
  | some t =>
    obtain ⟨hne, ht⟩ := trimmed_iff.1 (h t rfl)
    exact bound?_eq_some.2 ⟨ht, fun he => hne (String.toList_eq_nil_iff.2 he)⟩

/-- Items that are read are trimmed, and have no comma. -/
theorem trimmed_of_mem_items {item : String} (h : item ∈ items cs) :
    Trimmed item ∧ ',' ∉ item.toList := by
  obtain ⟨piece, hp, rfl⟩ := List.mem_map.1 h
  obtain ⟨hp, hne⟩ := List.mem_filter.1 hp
  obtain ⟨whole, hw, rfl⟩ := List.mem_map.1 hp
  rw [trimmed_iff, String.toList_ofList, trim_trim]
  refine ⟨⟨of_decide_eq_true hne, rfl⟩, ?_⟩
  intro hc
  exact (intercalate_pieces ',' cs).2.2 whole hw ((infix_trim whole).subset hc)

/-- An item that is read stands in the text. -/
theorem infix_of_mem_items {item : String} (h : item ∈ items cs) : item.toList <:+: cs := by
  obtain ⟨piece, hp, rfl⟩ := List.mem_map.1 h
  obtain ⟨whole, hw, rfl⟩ := List.mem_map.1 (List.mem_of_mem_filter hp)
  rw [String.toList_ofList]
  exact (infix_trim whole).trans (infix_of_mem_pieces hw)

/-- Trimmed items without commas read as themselves. -/
theorem items_intercalate {texts : List String} (hne : texts ≠ [])
    (h : ∀ t ∈ texts, Trimmed t ∧ ',' ∉ t.toList) :
    items (",".intercalate texts).toList = texts := by
  have hpieces : pieces ',' (",".intercalate texts).toList = texts.map String.toList := by
    rw [String.toList_intercalate]
    refine pieces_intercalate (by simpa using hne) ?_
    intro part hp
    obtain ⟨t, ht, rfl⟩ := List.mem_map.1 hp
    exact (h t ht).2
  have htrim : (texts.map String.toList).map trim = texts.map String.toList := by
    rw [List.map_map]
    exact List.map_congr_left fun t ht => (trimmed_iff.1 (h t ht).1).2
  have hall : ∀ cs ∈ texts.map String.toList, decide (cs ≠ []) = true := by
    intro cs hcs
    obtain ⟨t, ht, rfl⟩ := List.mem_map.1 hcs
    exact decide_eq_true (trimmed_iff.1 (h t ht).1).1
  unfold items
  rw [hpieces, htrim, List.filter_eq_self.2 hall, List.map_map]
  exact (List.map_congr_left fun t _ => String.ofList_toList).trans (List.map_id _)

/-! ## Rules -/

theorem readRange_eq_ok {whole : List Char} :
    readRange whole before rest = .ok p ↔
      ((bound? before).isSome ∨ (bound? rest).isSome) ∧
        p = .range (bound? before) (bound? rest) := by
  unfold readRange
  rw [eq_comm (a := p)]
  cases bound? before with
  | none =>
    cases bound? rest with
    | none => simp
    | some upper => simp
  | some lower => simp

theorem readList_eq_ok {whole : List Char} :
    readList whole rest = .ok p ↔ items rest ≠ [] ∧ p = .list (items rest) := by
  unfold readList
  rw [eq_comm (a := p)]
  cases items rest with
  | nil => simp
  | cons item others => simp

/-- Every text is left to one of the rules. -/
theorem readPlain_cases (cs : List Char) :
    cs = nullMark.toList ∨
      (∃ before rest, cut? rangeMark.toList cs = some (before, rest)) ∨
      (¬ rangeMark.toList <:+: cs ∧
        ((∃ rest, cs = listMark.toList ++ rest) ∨ (∃ rest, cs = likeMark.toList ++ rest) ∨
          (cs ≠ nullMark.toList ∧ ¬ listMark.toList <+: cs ∧ ¬ likeMark.toList <+: cs))) := by
  by_cases hnull : cs = nullMark.toList
  · exact .inl hnull
  cases hcut : cut? rangeMark.toList cs with
  | some halves => exact .inr (.inl ⟨halves.1, halves.2, rfl⟩)
  | none =>
    refine .inr (.inr ⟨cut?_eq_none.1 hcut, ?_⟩)
    by_cases hlist : listMark.toList <+: cs
    · obtain ⟨rest, rfl⟩ := hlist
      exact .inl ⟨rest, rfl⟩
    by_cases hlike : likeMark.toList <+: cs
    · obtain ⟨rest, rfl⟩ := hlike
      exact .inr (.inl ⟨rest, rfl⟩)
    · exact .inr (.inr ⟨hnull, hlist, hlike⟩)

theorem readPlain_null : readPlain nullMark.toList = .ok .isNull := if_pos rfl

theorem readPlain_range (h : cut? rangeMark.toList cs = some (before, rest)) :
    readPlain cs = readRange cs before rest := by
  have hnull : cs ≠ nullMark.toList := by
    rintro rfl
    have hnone : cut? rangeMark.toList nullMark.toList = none := rfl
    rw [hnone] at h
    exact absurd h (by simp)
  unfold readPlain
  rw [if_neg hnull, h]

theorem readPlain_list (h : ¬ rangeMark.toList <:+: listMark.toList ++ rest) :
    readPlain (listMark.toList ++ rest) = readList (listMark.toList ++ rest) rest := by
  have hnull : listMark.toList ++ rest ≠ nullMark.toList := by simp [nullMark, listMark]
  unfold readPlain
  rw [if_neg hnull, cut?_eq_none.2 h, after?_append]

theorem readPlain_like (h : ¬ rangeMark.toList <:+: likeMark.toList ++ rest) :
    readPlain (likeMark.toList ++ rest) = .ok (.like (String.ofList rest)) := by
  have hnull : likeMark.toList ++ rest ≠ nullMark.toList := by simp [nullMark, likeMark]
  have hlist : ¬ listMark.toList <+: likeMark.toList ++ rest := by simp [listMark, likeMark]
  unfold readPlain
  rw [if_neg hnull, cut?_eq_none.2 h, after?_eq_none.2 hlist, after?_append]

theorem readPlain_equals (hrange : ¬ rangeMark.toList <:+: cs) (hnull : cs ≠ nullMark.toList)
    (hlist : ¬ listMark.toList <+: cs) (hlike : ¬ likeMark.toList <+: cs) :
    readPlain cs = .ok (.equals (String.ofList cs)) := by
  unfold readPlain
  rw [if_neg hnull, cut?_eq_none.2 hrange, after?_eq_none.2 hlist, after?_eq_none.2 hlike]

/-- A text that negates nothing is the test for null, or a range around its first `_RANGE_`, or
has none; then it is a list or a search for a part by its beginning, and a value otherwise. -/
theorem readPlain_eq_ok :
    readPlain cs = .ok p ↔
      (cs = nullMark.toList ∧ p = .isNull) ∨
      (∃ before rest, cut? rangeMark.toList cs = some (before, rest) ∧
        ((bound? before).isSome ∨ (bound? rest).isSome) ∧
        p = .range (bound? before) (bound? rest)) ∨
      (¬ rangeMark.toList <:+: cs ∧
        ((∃ rest, cs = listMark.toList ++ rest ∧ items rest ≠ [] ∧ p = .list (items rest)) ∨
          (∃ text, cs = likeMark.toList ++ text.toList ∧ p = .like text) ∨
          (cs ≠ nullMark.toList ∧ ¬ listMark.toList <+: cs ∧ ¬ likeMark.toList <+: cs ∧
            p = .equals (String.ofList cs)))) := by
  constructor
  · intro h
    rcases readPlain_cases cs with rfl | ⟨before, rest, hcut⟩ |
      ⟨hrange, ⟨rest, rfl⟩ | ⟨rest, rfl⟩ | ⟨hnull, hlist, hlike⟩⟩
    · exact .inl ⟨rfl, (Except.ok.inj h).symm⟩
    · rw [readPlain_range hcut] at h
      exact .inr (.inl ⟨before, rest, hcut, readRange_eq_ok.1 h⟩)
    · rw [readPlain_list hrange] at h
      exact .inr (.inr ⟨hrange, .inl ⟨rest, rfl, readList_eq_ok.1 h⟩⟩)
    · rw [readPlain_like hrange] at h
      obtain rfl := Except.ok.inj h
      refine .inr (.inr ⟨hrange, .inr (.inl ⟨String.ofList rest, ?_, rfl⟩)⟩)
      rw [String.toList_ofList]
    · rw [readPlain_equals hrange hnull hlist hlike] at h
      obtain rfl := Except.ok.inj h
      exact .inr (.inr ⟨hrange, .inr (.inr ⟨hnull, hlist, hlike, rfl⟩)⟩)
  · rintro (⟨rfl, rfl⟩ | ⟨before, rest, hcut, hrange⟩ |
      ⟨hrange, ⟨rest, rfl, hlist⟩ | ⟨text, rfl, rfl⟩ | ⟨hnull, hlist, hlike, rfl⟩⟩)
    · exact readPlain_null
    · rw [readPlain_range hcut]
      exact readRange_eq_ok.2 hrange
    · rw [readPlain_list hrange]
      exact readList_eq_ok.2 hlist
    · rw [readPlain_like hrange, String.ofList_toList]
    · exact readPlain_equals hrange hnull hlist hlike

/-- A text that starts with `NOT_` is a negation, and no other is. -/
theorem readChars_eq_ok :
    readChars cs = .ok p ↔
      (∃ rest, cs = notMark.toList ++ rest ∧
        ((rest = nullMark.toList ∧ p = .isNotNull) ∨
          (rest ≠ nullMark.toList ∧ rest ≠ [] ∧ ∃ q, readChars rest = .ok q ∧ p = .not q))) ∨
      (¬ notMark.toList <+: cs ∧ readPlain cs = .ok p) := by
  by_cases h : notMark.toList <+: cs
  · obtain ⟨rest, rfl⟩ := h
    have hread : readChars (notMark.toList ++ rest) =
        if rest = nullMark.toList then .ok .isNotNull
        else if rest = [] then .error .negatesNothing
        else (readChars rest).map .not := rfl
    have hone : ∀ P : List Char → Prop,
        (∃ r, notMark.toList ++ rest = notMark.toList ++ r ∧ P r) ↔ P rest := by
      intro P
      constructor
      · rintro ⟨r, hr, hP⟩
        exact List.append_cancel_left hr ▸ hP
      · exact fun hP => ⟨rest, rfl, hP⟩
    simp only [hone, List.prefix_append, not_true_eq_false, false_and, or_false, hread]
    by_cases hnull : rest = nullMark.toList
    · simp only [hnull, if_true, true_and, ne_eq, not_true_eq_false, false_and, or_false,
        Except.ok.injEq]
      exact eq_comm
    by_cases hnil : rest = []
    · simp [hnil, nullMark]
    · simp only [hnull, hnil, if_false, map_eq_ok, false_and, false_or, ne_eq, not_false_eq_true,
        true_and, eq_comm (a := p)]
  · have hplain : readChars cs = readPlain cs := by
      rw [readChars]
      intro rest hcs
      exact h ⟨rest, hcs.symm⟩
    have hne : ∀ rest, cs ≠ notMark.toList ++ rest := fun rest hcs => h ⟨rest, hcs.symm⟩
    simp only [hne, false_and, exists_false, false_or, h, not_false_eq_true, true_and, hplain]

/-! ## Texts -/

theorem parse_eq_some {text : String} :
    parse text = .ok (some p) ↔ text.toList ≠ [] ∧ readChars text.toList = .ok p := by
  unfold parse
  cases text.toList with
  | nil => simp
  | cons c cs => simp [map_eq_ok]

theorem ofWire_eq_ok {text : String} : ofWire text = .ok p ↔ parse text = .ok (some p) := by
  unfold ofWire
  cases parse text with
  | error fault => simp
  | ok o =>
    cases o with
    | none => simp
    | some q => simp

end RecordSql.Predicate
