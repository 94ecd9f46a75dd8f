import RecordSql.Listing
import RecordSql.Proofs.WireReading

/-!
# Which predicates survive their wire form

The wire form writes values as they are. `WireSafe` says of which predicates the form reads back to
the same predicate: those whose values are trimmed and spell no mark that an earlier rule takes.

A predicate that was read is nearly always one of these, as reading trims and leaves out. It is that
very trimming, though, that can move values up against a mark. `Spoiled` lists the cases: a first
item `RANGE_…` that comes to stand right behind `LIST_`, a lower bound that comes to stand first
with a `NOT_`, and one that lends its end `_RANGE` to the mark behind it.
-/

namespace RecordSql

open Text Checked

namespace Predicate

variable {cs : List Char}

/-! ## What reads as what -/

theorem readChars_eq_isNull : readChars cs = .ok .isNull ↔ cs = nullMark.toList := by
  rw [readChars_eq_ok, readPlain_eq_ok]
  simp only [reduceCtorEq, and_false, exists_false, or_false, false_or, and_true,
    and_iff_right_iff_imp]
  rintro rfl
  decide

theorem readChars_eq_not {inner : Predicate} :
    readChars cs = .ok (.not inner) ↔
      ∃ rest, cs = notMark.toList ++ rest ∧ rest ≠ nullMark.toList ∧ rest ≠ [] ∧
        readChars rest = .ok inner := by
  rw [readChars_eq_ok, readPlain_eq_ok]
  simp only [reduceCtorEq, and_false, exists_false, or_false, false_or, not.injEq,
    exists_eq_right']

theorem readChars_eq_range {lower upper : Option String} :
    readChars cs = .ok (.range lower upper) ↔
      ¬ notMark.toList <+: cs ∧ ∃ before rest, cut? rangeMark.toList cs = some (before, rest) ∧
        (lower.isSome ∨ upper.isSome) ∧ bound? before = lower ∧ bound? rest = upper := by
  rw [readChars_eq_ok, readPlain_eq_ok]
  simp only [reduceCtorEq, and_false, exists_false, or_false, false_or, range.injEq]
  refine and_congr_right fun _ => exists_congr fun before => exists_congr fun rest =>
    and_congr_right fun _ => ?_
  constructor
  · rintro ⟨hb, rfl, rfl⟩
    exact ⟨hb, rfl, rfl⟩
  · rintro ⟨hb, rfl, rfl⟩
    exact ⟨hb, rfl, rfl⟩

theorem readChars_eq_list {texts : List String} :
    readChars cs = .ok (.list texts) ↔
      ¬ rangeMark.toList <:+: cs ∧
        ∃ rest, cs = listMark.toList ++ rest ∧ texts ≠ [] ∧ items rest = texts := by
  rw [readChars_eq_ok, readPlain_eq_ok]
  simp only [reduceCtorEq, and_false, exists_false, or_false, false_or, list.injEq]
  constructor
  · rintro ⟨_, hrange, rest, hcs, hne, rfl⟩
    exact ⟨hrange, rest, hcs, hne, rfl⟩
  · rintro ⟨hrange, rest, rfl, hne, rfl⟩
    exact ⟨by simp [listMark, notMark], hrange, rest, rfl, hne, rfl⟩

theorem readChars_eq_like {text : String} :
    readChars cs = .ok (.like text) ↔
      cs = likeMark.toList ++ text.toList ∧ ¬ rangeMark.toList <:+: cs := by
  rw [readChars_eq_ok, readPlain_eq_ok]
  simp only [reduceCtorEq, and_false, exists_false, or_false, false_or, like.injEq,
    exists_eq_right']
  constructor
  · rintro ⟨_, hrange, hcs⟩
    exact ⟨hcs, hrange⟩
  · rintro ⟨rfl, hrange⟩
    exact ⟨by simp [likeMark, notMark], hrange, rfl⟩

theorem readChars_eq_equals {text : String} :
    readChars cs = .ok (.equals text) ↔
      cs = text.toList ∧ ¬ notMark.toList <+: cs ∧ ¬ rangeMark.toList <:+: cs ∧
        cs ≠ nullMark.toList ∧ ¬ listMark.toList <+: cs ∧ ¬ likeMark.toList <+: cs := by
  rw [readChars_eq_ok, readPlain_eq_ok]
  simp only [reduceCtorEq, and_false, exists_false, or_false, false_or, equals.injEq]
  constructor
  · rintro ⟨hnot, hrange, hnull, hlist, hlike, rfl⟩
    exact ⟨String.toList_ofList.symm, hnot, hrange, hnull, hlist, hlike⟩
  · rintro ⟨rfl, hnot, hrange, hnull, hlist, hlike⟩
    exact ⟨hnot, hrange, hnull, hlist, hlike, String.ofList_toList.symm⟩

/-! ## Safe predicates -/

/-- A predicate whose wire form reads back to it. -/
def WireSafe : Predicate → Prop
  | .isNull => True
  | .isNotNull => True
  | .not inner => inner.WireSafe ∧ inner ≠ .isNull
  | .range lower upper =>
    (lower.isSome ∨ upper.isSome) ∧ (∀ bound ∈ lower, Trimmed bound) ∧
      (∀ bound ∈ upper, Trimmed bound) ∧
      ¬ notMark.toList <+: (range lower upper).wire.toList ∧
      -- the first range mark is the one right after the lower bound
      ∀ before rest, (range lower upper).wire.toList = before ++ rangeMark.toList ++ rest →
        (lower.getD "").toList.length ≤ before.length
  | .list items =>
    items ≠ [] ∧ (∀ item ∈ items, Trimmed item ∧ ',' ∉ item.toList) ∧
      ¬ rangeMark.toList <:+: (list items).wire.toList
  | .like text => ¬ rangeMark.toList <:+: (like text).wire.toList
  | .equals text =>
    text ≠ "" ∧ text ≠ nullMark ∧ text ≠ notNullMark ∧ ¬ rangeMark.toList <:+: text.toList ∧
      ¬ notMark.toList <+: text.toList ∧ ¬ listMark.toList <+: text.toList ∧
      ¬ likeMark.toList <+: text.toList

theorem toList_wire_range (lower upper : Option String) :
    (range lower upper).wire.toList =
      (lower.getD "").toList ++ rangeMark.toList ++ (upper.getD "").toList := by
  rw [wire, String.toList_append, String.toList_append]

theorem parse_wire_range {lower upper : Option String} :
    parse (range lower upper).wire = .ok (some (range lower upper)) ↔
      (range lower upper).WireSafe := by
  rw [parse_eq_some, readChars_eq_range, WireSafe]
  constructor
  · rintro ⟨_, hnot, before, rest, hcut, hsome, rfl, rfl⟩
    obtain ⟨hcs, hfirst⟩ := cut?_eq_some.1 hcut
    refine ⟨hsome, fun _ => trimmed_of_bound?, fun _ => trimmed_of_bound?, hnot, ?_⟩
    intro b r h
    -- what was cut off in front of the mark can only be longer than its trimmed form
    refine Nat.le_trans ?_ (hfirst b r h)
    cases hb : bound? before with
    | none => exact Nat.zero_le _
    | some t =>
      show t.toList.length ≤ before.length
      rw [← (bound?_eq_some.1 hb).1]
      exact (infix_trim before).length_le
  · rintro ⟨hsome, hlower, hupper, hnot, hfirst⟩
    refine ⟨?_, hnot, (lower.getD "").toList, (upper.getD "").toList, ?_, hsome,
      bound?_toList hlower, bound?_toList hupper⟩
    · rw [toList_wire_range]
      simp [rangeMark]
    · exact cut?_eq_some.2 ⟨toList_wire_range lower upper, hfirst⟩

theorem parse_wire_list {texts : List String} :
    parse (list texts).wire = .ok (some (list texts)) ↔ (list texts).WireSafe := by
  have hwire : (list texts).wire.toList = listMark.toList ++ (",".intercalate texts).toList := by
    rw [wire, String.toList_append]
  rw [parse_eq_some, WireSafe, hwire, readChars_eq_list, and_iff_right (by simp [listMark])]
  constructor
  · rintro ⟨hrange, rest, hcs, hne, rfl⟩
    exact ⟨hne, fun _ => trimmed_of_mem_items, hrange⟩
  · rintro ⟨hne, hitems, hrange⟩
    exact ⟨hrange, _, rfl, hne, items_intercalate hne hitems⟩

theorem parse_wire_equals {text : String} :
    parse (equals text).wire = .ok (some (equals text)) ↔ (equals text).WireSafe := by
  have hnull : text.toList ≠ nullMark.toList ↔ text ≠ nullMark := not_congr String.toList_inj
  rw [parse_eq_some, WireSafe, wire, readChars_eq_equals, ne_eq, String.toList_eq_nil_iff, hnull]
  constructor
  · rintro ⟨hne, _, hnot, hrange, hnull, hlist, hlike⟩
    refine ⟨hne, hnull, ?_, hrange, hnot, hlist, hlike⟩
    rintro rfl
    exact hnot (by decide)
  · rintro ⟨hne, hnull, _, hrange, hnot, hlist, hlike⟩
    exact ⟨hne, rfl, hnot, hrange, hnull, hlist, hlike⟩

theorem parse_wire (p : Predicate) : parse p.wire = .ok (some p) ↔ p.WireSafe := by
  induction p with
  | isNull => exact iff_of_true rfl trivial
  | isNotNull => exact iff_of_true rfl trivial
  | not inner ih =>
    have hwire : (not inner).wire.toList = notMark.toList ++ inner.wire.toList := by
      rw [wire, String.toList_append]
    rw [WireSafe, ← ih, parse_eq_some, parse_eq_some, hwire, readChars_eq_not,
      and_iff_right (by simp [notMark])]
    constructor
    · rintro ⟨rest, hrest, hnull, hread⟩
      rw [← List.append_cancel_left hrest] at hnull hread
      refine ⟨hread, ?_⟩
      rintro rfl
      exact hnull rfl
    · rintro ⟨⟨hne, hread⟩, hinner⟩
      refine ⟨_, rfl, ?_, hne, hread⟩
      -- only the test for null is written that way
      intro hnull
      rw [hnull, readChars_eq_isNull.2 rfl] at hread
      exact hinner (Except.ok.inj hread).symm
  | range lower upper => exact parse_wire_range
  | list texts => exact parse_wire_list
  | like text =>
    rw [WireSafe, parse_eq_some, wire, String.toList_append, readChars_eq_like,
      and_iff_right (by simp [likeMark]), and_iff_right rfl]
  | equals text => exact parse_wire_equals

/-- **A predicate reads back from its wire form just when it is safe.** -/
theorem ofWire_wire (p : Predicate) : ofWire p.wire = .ok p ↔ p.WireSafe := by
  rw [ofWire_eq_ok]
  exact parse_wire p

/-! ## Predicates that were read -/

/-- A predicate whose values, trimmed as reading leaves them, come to spell a mark that the text
they were read from does not have. -/
def Spoiled : Predicate → Prop
  | .not inner => inner.Spoiled
  | .range (some lower) _ =>
    lower = "NOT" ∨ "NOT_".toList <+: lower.toList ∨ "_RANGE".toList <:+ lower.toList
  | .list (item :: _) => "RANGE_".toList <+: item.toList
  | _ => False

/-- Only a lower bound can make a range start with `NOT_`; the mark lends it its first character. -/
theorem notMark_prefix_range {l u : List Char} :
    notMark.toList <+: l ++ rangeMark.toList ++ u ↔
      "NOT".toList = l ∨ "NOT_".toList <+: l := by
  rcases l with _ | ⟨a, _ | ⟨b, _ | ⟨c, _ | ⟨d, l⟩⟩⟩⟩ <;> simp [notMark, rangeMark]

/-- Two range marks overlap in one character at most. So in front of the mark after a bound that
has none, another one starts only if the bound ends in all of the mark but that character. -/
theorem rangeMark_first {l u : List Char} (hl : ¬ rangeMark.toList <:+: l) :
    (∀ before rest, l ++ rangeMark.toList ++ u = before ++ rangeMark.toList ++ rest →
      l.length ≤ before.length) ↔ ¬ "_RANGE".toList <:+ l := by
  constructor
  · rintro hfirst ⟨x, rfl⟩
    have hle := hfirst x ("RANGE_".toList ++ u) (by simp [rangeMark])
    rw [List.length_append] at hle
    exact absurd hle (by simp)
  · intro hend before rest h
    by_contra hlt
    rw [List.append_assoc, List.append_assoc, List.append_eq_append_iff] at h
    obtain ⟨as, rfl, _⟩ | ⟨m, rfl, hm⟩ := h
    · exact hlt (by simp)
    -- the earlier mark begins inside the bound, with the characters `m` of it
    rcases m with _ | ⟨a, _ | ⟨b, _ | ⟨c, _ | ⟨d, _ | ⟨e, _ | ⟨f, _ | ⟨g, m⟩⟩⟩⟩⟩⟩⟩
    · exact hlt (by simp)
    · simp [rangeMark] at hm
    · simp [rangeMark] at hm
    · simp [rangeMark] at hm
    · simp [rangeMark] at hm
    · simp [rangeMark] at hm
    · simp only [rangeMark, String.reduceToList, List.cons_append, List.nil_append,
        List.cons.injEq] at hm
      obtain ⟨rfl, rfl, rfl, rfl, rfl, rfl, _⟩ := hm
      exact hend ⟨before, rfl⟩
    · simp only [rangeMark, String.reduceToList, List.cons_append, List.nil_append,
        List.cons.injEq] at hm
      obtain ⟨rfl, rfl, rfl, rfl, rfl, rfl, rfl, _⟩ := hm
      exact hl ⟨before, m, by simp [rangeMark]⟩

theorem wireSafe_of_readRange {before rest : List Char}
    (hcut : cut? rangeMark.toList cs = some (before, rest))
    (hsome : (bound? before).isSome ∨ (bound? rest).isSome) :
    (range (bound? before) (bound? rest)).WireSafe ↔
      ¬ (range (bound? before) (bound? rest)).Spoiled := by
  obtain ⟨hcs, hfirst⟩ := cut?_eq_some.1 hcut
  have hbefore : ¬ rangeMark.toList <:+: before := by
    rintro ⟨x, y, hxy⟩
    have hle := hfirst x (y ++ rangeMark.toList ++ rest) (by rw [hcs, ← hxy]; simp)
    have hlen := congrArg List.length hxy
    rw [List.length_append, List.length_append] at hlen
    have hmark : rangeMark.toList.length = 7 := rfl
    omega
  have htrimmed : ∀ cs, ∀ bound ∈ bound? cs, Trimmed bound := fun _ _ => trimmed_of_bound?
  rw [WireSafe, and_iff_right hsome, and_iff_right (htrimmed before),
    and_iff_right (htrimmed rest), toList_wire_range, notMark_prefix_range]
  cases hb : bound? before with
  | none =>
    -- without a lower bound the text starts with the mark
    simp [Spoiled]
  | some lower =>
    have hinfix : lower.toList <:+: before := by
      rw [← (bound?_eq_some.1 hb).1]
      exact infix_trim before
    have hlower : ¬ rangeMark.toList <:+: lower.toList := fun h => hbefore (h.trans hinfix)
    rw [Option.getD_some, rangeMark_first hlower, Spoiled, not_or, not_or, not_or,
      String.toList_inj, eq_comm (a := "NOT"), and_assoc]

theorem rangeMark_infix_list {item : List Char} :
    rangeMark.toList <:+: listMark.toList ++ item ↔
      "RANGE_".toList <+: item ∨ rangeMark.toList <:+: item := by
  simp [rangeMark, listMark, List.infix_cons_iff]

theorem wireSafe_of_readList {rest : List Char}
    (hrange : ¬ rangeMark.toList <:+: listMark.toList ++ rest) (hne : items rest ≠ []) :
    (list (items rest)).WireSafe ↔ ¬ (list (items rest)).Spoiled := by
  have hitem : ∀ item ∈ items rest, ¬ rangeMark.toList <:+: item.toList := fun item hm h =>
    hrange ((h.trans (infix_of_mem_items hm)).trans (List.suffix_append _ _).isInfix)
  rw [WireSafe, and_iff_right hne, and_iff_right fun _ => trimmed_of_mem_items, wire,
    String.toList_append, String.toList_intercalate]
  generalize items rest = texts at hne hitem
  obtain ⟨item, others, rfl⟩ := List.exists_cons_of_ne_nil hne
  have hjoin : listMark.toList ++ List.intercalate ",".toList ((item :: others).map String.toList) =
      List.intercalate [','] ((listMark.toList ++ item.toList) :: others.map String.toList) := by
    cases others with
    | nil => simp
    | cons next others => simp
  rw [hjoin, infix_intercalate (by simp [rangeMark]) (by simp [rangeMark]), Spoiled]
  refine not_congr ?_
  constructor
  · rintro ⟨part, hp, h⟩
    rcases List.mem_cons.1 hp with rfl | hp
    · exact (rangeMark_infix_list.1 h).resolve_right (hitem item List.mem_cons_self)
    · obtain ⟨other, hm, rfl⟩ := List.mem_map.1 hp
      exact absurd h (hitem other (List.mem_cons_of_mem _ hm))
  · exact fun h => ⟨_, List.mem_cons_self, rangeMark_infix_list.2 (.inl h)⟩

/-- What is written as it was read is safe. -/
theorem wireSafe_of_wire {p : Predicate} (hne : cs ≠ []) (h : readChars cs = .ok p)
    (hcs : cs = p.wire.toList) : p.WireSafe := by
  rw [hcs] at h hne
  exact (parse_wire p).1 (parse_eq_some.2 ⟨hne, h⟩)

/-- Of the predicates that were read, just those that are spoiled are not safe. -/
theorem wireSafe_of_readChars {p : Predicate} (hne : cs ≠ []) (h : readChars cs = .ok p) :
    p.WireSafe ↔ ¬ p.Spoiled := by
  induction p generalizing cs with
  | isNull => exact iff_of_true trivial not_false
  | isNotNull => exact iff_of_true trivial not_false
  | not inner ih =>
    obtain ⟨rest, _, hnull, hrest, hread⟩ := readChars_eq_not.1 h
    rw [WireSafe, Spoiled, ih hrest hread]
    refine and_iff_left ?_
    rintro rfl
    exact hnull (readChars_eq_isNull.1 hread)
  | range lower upper =>
    obtain ⟨_, before, rest, hcut, hsome, rfl, rfl⟩ := readChars_eq_range.1 h
    exact wireSafe_of_readRange hcut hsome
  | list texts =>
    obtain ⟨hrange, rest, rfl, hitems, rfl⟩ := readChars_eq_list.1 h
    exact wireSafe_of_readList hrange hitems
  | like text =>
    refine iff_of_true (wireSafe_of_wire hne h ?_) not_false
    rw [(readChars_eq_like.1 h).1, wire, String.toList_append]
  | equals text =>
    exact iff_of_true (wireSafe_of_wire hne h (readChars_eq_equals.1 h).1) not_false

/-- **A predicate that was read reads back just when it is not spoiled.** -/
theorem parse_wire_of_parse {text : String} {p : Predicate} (h : parse text = .ok (some p)) :
    parse p.wire = .ok (some p) ↔ ¬ p.Spoiled := by
  obtain ⟨hne, hread⟩ := parse_eq_some.1 h
  rw [parse_wire, wireSafe_of_readChars hne hread]

end Predicate

end RecordSql
