import RecordSql.Proofs.TextBytes
import RecordSql.Proofs.WellFormedEntities

/-!
# How joins declare what they pull in

A declaration is the name of a column, or a name and an alias with the word `AS` between them.
`JoinColumn.Declares` says this as a grammar. The reader goes another way: it looks for the word in
an upper-case copy, and cuts the declaration at the first place where the word stands.

* The first place is the one that the grammar means. The word has a space on either side of it. No
  identifier has one, and a space among the blanks in front of the word is followed by another
  blank. So a name may itself be spelled `AS`, and a declaration is read in one way only.
* What is cut off is the source and the alias, each with the blanks between it and the word, which
  trimming takes away.
* A place in the copy is one in the declaration, as letter case changes no sizes. The word is ASCII,
  so both of its ends lie between two characters, whatever stands around it.
-/

namespace RecordSql.JoinColumn

open Text
open Text.Hex (utf8)

/-! ## The grammar -/

/-- The word between a column and its alias, in any letter case. -/
def words : List (List Char) := [['A', 'S'], ['A', 's'], ['a', 'S'], ['a', 's']]

/-- A source and an alias with what stands between them. -/
structure Labelled where
  source : String
  /-- What stands between the source and the space in front of the word. -/
  before : List Char
  word : List Char
  /-- What stands between the space behind the word and the alias. -/
  after : List Char
  label : String

namespace Labelled

/-- The whole as it is declared. -/
def text (l : Labelled) : List Char :=
  l.source.toList ++ (l.before ++ [' ']) ++ l.word ++ (' ' :: l.after) ++ l.label.toList

/-- The names are identifiers, the word is the word, and all between them is blank. -/
structure WellFormed (l : Labelled) : Prop where
  source : Identifier.WellFormed l.source
  before : Blank l.before
  word : l.word ∈ words
  after : Blank l.after
  label : Identifier.WellFormed l.label

end Labelled

/-- What a declaration without blanks at its ends stands for: a column under its own name, or a
column under an alias. -/
inductive Declares : List Char → JoinColumn → Prop where
  | bare {source : String} : Identifier.WellFormed source → Declares source.toList ⟨source, none⟩
  | labelled {l : Labelled} : l.WellFormed → Declares l.text ⟨l.source, some l.label⟩

variable {c : Char} {cs left right w b r : List Char} {l l' : Labelled} {d name : String} {n : Nat}

/-! ## Letters and blanks -/

theorem eq_space_of_toUpper (h : c.toUpper = ' ') : c = ' ' :=
  (eq_of_toUpper h).elim id id

/-- What is the word in upper case, with its spaces. -/
theorem upper_eq_aliasWord : upper w = aliasWord ↔ ∃ word ∈ words, w = ' ' :: word ++ [' '] := by
  constructor
  · intro h
    obtain ⟨c₁, w, rfl, h₁, h⟩ := List.map_eq_cons_iff.1 h
    obtain ⟨c₂, w, rfl, h₂, h⟩ := List.map_eq_cons_iff.1 h
    obtain ⟨c₃, w, rfl, h₃, h⟩ := List.map_eq_cons_iff.1 h
    obtain ⟨c₄, w, rfl, h₄, h⟩ := List.map_eq_cons_iff.1 h
    obtain rfl := List.map_eq_nil_iff.1 h
    obtain rfl := eq_space_of_toUpper h₁
    obtain rfl := eq_space_of_toUpper h₄
    refine ⟨[c₂, c₃], ?_, rfl⟩
    rcases eq_of_toUpper h₂ with rfl | rfl <;> rcases eq_of_toUpper h₃ with rfl | rfl <;> decide
  · rintro ⟨word, hword, rfl⟩
    revert word
    decide

theorem length_upper (s : List Char) : (upper s).length = s.length := List.length_map _

/-- Where a text stands in the upper-case copy, its letters stand in the text itself. -/
theorem exists_getElem?_of_upper (h : upper cs = b ++ w ++ r) {i : Nat} {a : Char}
    (ha : w[i]? = some a) : ∃ c, cs[b.length + i]? = some c ∧ c.toUpper = a := by
  have hi : i < w.length := (List.getElem?_eq_some_iff.1 ha).1
  have hupper : (upper cs)[b.length + i]? = some a := by
    rw [h, List.append_assoc, List.getElem?_append_right (Nat.le_add_right _ _),
      Nat.add_sub_cancel_left, List.getElem?_append_left hi, ha]
  rw [upper, List.getElem?_map] at hupper
  exact Option.map_eq_some_iff.1 hupper

theorem upper_around (hw : upper w = aliasWord) :
    upper (left ++ w ++ right) = upper left ++ aliasWord ++ upper right := by
  rw [← hw]
  simp only [upper, List.map_append]

theorem space_not_mem (h : Identifier.WellFormed name) : ' ' ∉ name.toList := fun hc =>
  absurd (h.not_blank ' ' hc) (by decide)

/-- What a text without blanks at its ends starts with has blanks only behind it. -/
theorem exists_blank_behind (h : Unpadded (left ++ r)) :
    ∃ blank, Blank blank ∧ left = trim left ++ blank := by
  obtain ⟨front, blank, hfront, hblank, hleft⟩ := exists_padded left
  cases front with
  | nil => exact ⟨blank, hblank, hleft⟩
  | cons c front =>
    have hfirst := h.first c (by rw [hleft]; rfl)
    rw [hfront c List.mem_cons_self] at hfirst
    exact absurd hfirst (by simp)

/-- And what it ends with has blanks only in front of it. -/
theorem exists_blank_before (h : Unpadded (b ++ right)) :
    ∃ blank, Blank blank ∧ right = blank ++ trim right := by
  obtain ⟨blank, back, hblank, hback, hright⟩ := exists_padded right
  rcases List.eq_nil_or_concat back with rfl | ⟨back, c, rfl⟩
  · exact ⟨blank, hblank, by rwa [List.append_nil] at hright⟩
  · have hlast := h.last c (by rw [hright]; simp)
    rw [hback c (by simp)] at hlast
    exact absurd hlast (by simp)

/-! ## Cutting -/

/-- What is cut off are parts of the declaration itself. -/
theorem exists_of_cut? (h : cut? aliasWord (upper cs) = some (b, r)) :
    ∃ left w right, cs = left ++ w ++ right ∧ upper w = aliasWord ∧ b = upper left ∧
      r = upper right := by
  obtain ⟨front, right, rfl, hfront, hr⟩ := List.map_eq_append_iff.1 (cut?_eq_some.1 h).1
  obtain ⟨left, w, rfl, hb, hw⟩ := List.map_eq_append_iff.1 hfront
  exact ⟨left, w, right, rfl, hw, hb.symm, hr.symm⟩

theorem splitAlias?_of_cut? (hcs : cs = left ++ w ++ right) (hw : upper w = aliasWord)
    (hcut : cut? aliasWord (upper cs) = some (upper left, upper right)) :
    splitAlias? cs =
      if trim left = [] ∨ trim right = [] then none else some (trim left, trim right) := by
  have hlength : aliasWord.length = w.length := by rw [← hw, length_upper]
  have htake : cs.take (upper left).length = left := by
    rw [hcs, length_upper, List.append_assoc, List.take_left]
  have hdrop : cs.drop ((upper left).length + aliasWord.length) = right := by
    rw [hcs, length_upper, hlength, ← List.length_append, List.drop_left]
  rw [splitAlias?, hcut]
  dsimp only
  rw [htake, hdrop]

theorem splitAlias?_of_cut?_none (h : cut? aliasWord (upper cs) = none) :
    splitAlias? cs = none := by
  rw [splitAlias?, h]

namespace Labelled

/-- What is cut off in front of the word. -/
def front (l : Labelled) : List Char := l.source.toList ++ l.before

/-- What is cut off behind it. -/
def rest (l : Labelled) : List Char := l.after ++ l.label.toList

theorem text_eq (l : Labelled) : l.text = l.front ++ (' ' :: l.word ++ [' ']) ++ l.rest := by
  simp only [text, front, rest, List.append_assoc, List.cons_append, List.nil_append]

theorem WellFormed.trim_front (h : l.WellFormed) : trim l.front = l.source.toList :=
  trim_padded blank_nil (.of_not_blank h.source.not_blank) h.before

theorem WellFormed.trim_rest (h : l.WellFormed) : trim l.rest = l.label.toList := by
  have htrim := trim_padded h.after (.of_not_blank h.label.not_blank) blank_nil
  rwa [List.append_nil] at htrim

/-- **The word stands nowhere before its place.** -/
theorem WellFormed.first (h : l.WellFormed) (hb : upper l.text = b ++ aliasWord ++ r) :
    l.front.length ≤ b.length := by
  by_contra hlt
  obtain ⟨c, hspace, hc⟩ := exists_getElem?_of_upper hb (i := 0) rfl
  obtain rfl := eq_space_of_toUpper hc
  obtain ⟨c, hletter, hc⟩ := exists_getElem?_of_upper hb (i := 1) rfl
  have htext : l.text =
      l.source.toList ++
        ((l.before ++ [' ']) ++ (l.word ++ (' ' :: l.after) ++ l.label.toList)) := by
    simp only [text, List.append_assoc]
  rw [front, List.length_append] at hlt
  rcases Nat.lt_or_ge b.length l.source.toList.length with hin | hout
  · -- it would start with a space of the source
    rw [htext, Nat.add_zero, List.getElem?_append_left hin] at hspace
    exact space_not_mem h.source (List.mem_of_getElem? hspace)
  · -- its first letter would be among the blanks in front of the word
    rw [htext, List.getElem?_append_right (by omega), List.getElem?_append_left (by
      rw [List.length_append, List.length_singleton]
      omega)] at hletter
    have hblank : isBlank c = true := by
      rcases List.mem_append.1 (List.mem_of_getElem? hletter) with hmem | hmem
      · exact h.before c hmem
      · rw [List.mem_singleton.1 hmem]
        decide
    rcases eq_of_toUpper hc with rfl | rfl
    · exact absurd hblank (by decide)
    · exact absurd hblank (by decide)

theorem WellFormed.upper_word (h : l.WellFormed) : upper (' ' :: l.word ++ [' ']) = aliasWord :=
  upper_eq_aliasWord.2 ⟨l.word, h.word, rfl⟩

theorem WellFormed.cut?_text (h : l.WellFormed) :
    cut? aliasWord (upper l.text) = some (upper l.front, upper l.rest) := by
  refine cut?_eq_some.2 ⟨?_, fun b r hb => ?_⟩
  · rw [text_eq, upper_around h.upper_word]
  · rw [length_upper]
    exact h.first hb

/-- **A declaration has one reading only.** -/
theorem WellFormed.unique (h : l.WellFormed) (h' : l'.WellFormed) (htext : l.text = l'.text) :
    l = l' := by
  have hlength : l.front.length = l'.front.length := by
    have hcut := h.cut?_text
    rw [htext, h'.cut?_text] at hcut
    have hupper := congrArg List.length (Prod.ext_iff.1 (Option.some.inj hcut)).1
    rw [length_upper, length_upper] at hupper
    exact hupper.symm
  have hwidth : (' ' :: l.word ++ [' ']).length = (' ' :: l'.word ++ [' ']).length := by
    rw [← length_upper, h.upper_word, ← h'.upper_word, length_upper]
  rw [text_eq, text_eq] at htext
  obtain ⟨hbefore, hrest⟩ := List.append_inj htext (by
    rw [List.length_append, hlength, hwidth, ← List.length_append])
  obtain ⟨hfront, hword⟩ := List.append_inj hbefore hlength
  have hsource : l.source = l'.source := by
    rw [← String.toList_inj, ← h.trim_front, ← h'.trim_front, hfront]
  have hlabel : l.label = l'.label := by
    rw [← String.toList_inj, ← h.trim_rest, ← h'.trim_rest, hrest]
  rw [front, front, hsource] at hfront
  rw [rest, rest, hlabel] at hrest
  obtain ⟨source, before, word, after, label⟩ := l
  obtain ⟨source', before', word', after', label'⟩ := l'
  simp only [Labelled.mk.injEq]
  exact ⟨hsource, List.append_cancel_left hfront,
    List.append_cancel_right (List.cons.inj hword).2, List.append_cancel_right hrest, hlabel⟩

end Labelled

/-! ## Reading -/

theorem parse_of_splitAlias?_none (h : splitAlias? (trim d.toList) = none) :
    parse d = ⟨strip d, none⟩ := by
  rw [parse, h]
  rfl

theorem parse_of_splitAlias? {source label : List Char}
    (h : splitAlias? (trim d.toList) = some (source, label)) :
    parse d = ⟨String.ofList source, some (String.ofList label)⟩ := by
  rw [parse, h]

/-- What the grammar says a declaration stands for is what it is read as. -/
theorem Declares.parse_eq {column : JoinColumn} (h : Declares (trim d.toList) column) :
    parse d = column := by
  generalize hcs : trim d.toList = cs at h
  cases h with
  | @bare source hs =>
    have hcut : cut? aliasWord (upper (trim d.toList)) = none := by
      rw [cut?_eq_none, hcs]
      intro hin
      obtain ⟨c, hc, hspace⟩ := List.mem_map.1 (hin.subset (List.mem_cons_self (a := ' ')))
      obtain rfl := eq_space_of_toUpper hspace
      exact space_not_mem hs hc
    rw [parse_of_splitAlias?_none (splitAlias?_of_cut?_none hcut), strip, hcs, String.ofList_toList]
  | @labelled l hl =>
    have hsplit := splitAlias?_of_cut? l.text_eq hl.upper_word hl.cut?_text
    have hne : ¬ (l.source.toList = [] ∨ l.label.toList = []) :=
      not_or.2 ⟨hl.source.ne_nil, hl.label.ne_nil⟩
    rw [hl.trim_front, hl.trim_rest, if_neg hne, ← hcs] at hsplit
    rw [parse_of_splitAlias? hsplit, String.ofList_toList, String.ofList_toList]

/-- All names of the grammar pass the check. -/
theorem Declares.checkColumn {column : JoinColumn} (h : Declares cs column) :
    Entity.checkColumn column = .ok () := by
  rw [Entity.checkColumn_eq_ok]
  cases h with
  | bare hs => exact ⟨Identifier.check_iff.2 hs, fun label hlabel => by cases hlabel⟩
  | labelled hl =>
    refine ⟨Identifier.check_iff.2 hl.source, fun label hlabel => ?_⟩
    obtain rfl := Option.some.inj hlabel
    exact Identifier.check_iff.2 hl.label

/-- What is cut off from a trimmed declaration has its blanks on the side of the word. -/
theorem exists_labelled {source label : List Char} (hcs : Unpadded cs)
    (h : splitAlias? cs = some (source, label)) :
    ∃ l : Labelled, l.text = cs ∧ l.source = String.ofList source ∧
      l.label = String.ofList label ∧ Blank l.before ∧ l.word ∈ words ∧ Blank l.after := by
  cases hcut : cut? aliasWord (upper cs) with
  | none =>
    rw [splitAlias?_of_cut?_none hcut] at h
    exact absurd h (by simp)
  | some halves =>
    obtain ⟨b, r⟩ := halves
    obtain ⟨left, w, right, rfl, hw, rfl, rfl⟩ := exists_of_cut? hcut
    rw [splitAlias?_of_cut? rfl hw hcut] at h
    split at h
    next => exact absurd h (by simp)
    next hne =>
      obtain ⟨rfl, rfl⟩ := Prod.ext_iff.1 (Option.some.inj h)
      obtain ⟨word, hword, rfl⟩ := upper_eq_aliasWord.1 hw
      obtain ⟨after, hafter, hright⟩ := exists_blank_before hcs
      rw [List.append_assoc] at hcs
      obtain ⟨before, hbefore, hleft⟩ := exists_blank_behind hcs
      refine ⟨⟨String.ofList (trim left), before, word, after, String.ofList (trim right)⟩, ?_, rfl,
        rfl, hbefore, hword, hafter⟩
      rw [Labelled.text_eq, Labelled.front, Labelled.rest]
      simp only [String.toList_ofList]
      rw [← hleft, ← hright]

theorem declares_of_checkColumn (h : Entity.checkColumn (parse d) = .ok ()) :
    Declares (trim d.toList) (parse d) := by
  obtain ⟨hsource, hlabel⟩ := Entity.checkColumn_eq_ok.1 h
  rw [Identifier.check_iff] at hsource
  cases hsplit : splitAlias? (trim d.toList) with
  | none =>
    have hparse := parse_of_splitAlias?_none hsplit
    rw [hparse] at hsource ⊢
    have htext : trim d.toList = (strip d).toList := (String.toList_ofList).symm
    rw [htext]
    exact .bare hsource
  | some halves =>
    obtain ⟨source, label⟩ := halves
    have hparse := parse_of_splitAlias? hsplit
    obtain ⟨l, htext, hls, hll, hbefore, hword, hafter⟩ :=
      exists_labelled (unpadded_trim d.toList) hsplit
    rw [← hls, ← hll] at hparse
    rw [hparse] at hsource hlabel ⊢
    rw [← htext]
    exact .labelled ⟨hsource, hbefore, hword, hafter, Identifier.check_iff.1 (hlabel _ rfl)⟩

/-! ## Bytes -/

/-- The word stands at an offset in bytes of the upper-case copy of a text. -/
def AliasWordAt (cs : List Char) (n : Nat) : Prop :=
  utf8 aliasWord <+: (utf8 (upper cs)).drop n

/-- Splitting a text by offsets in bytes: the word is looked for in the upper-case copy, and the
bytes of the text itself are cut where it starts and where it ends. Either side has to be the bytes
of some text. -/
inductive SplitsByBytes (cs : List Char) : Option (List Char × List Char) → Prop where
  | uncut : (∀ n, ¬ AliasWordAt cs n) → SplitsByBytes cs none
  | cut {n : Nat} {left right : List Char} : AliasWordAt cs n →
      (∀ m, AliasWordAt cs m → n ≤ m) → utf8 left = (utf8 cs).take n →
      utf8 right = (utf8 cs).drop (n + 4) →
      SplitsByBytes cs
        (if trim left = [] ∨ trim right = [] then none else some (trim left, trim right))

theorem isAscii_aliasWord : ∀ c ∈ aliasWord, IsAscii c := by
  simp only [aliasWord, List.forall_mem_cons, IsAscii]
  exact ⟨by decide, by decide, by decide, by decide, List.forall_mem_nil _⟩

theorem length_utf8_word (hw : upper w = aliasWord) : (utf8 w).length = 4 := by
  rw [← length_utf8_upper, hw, utf8_of_isAscii isAscii_aliasWord]
  rfl

/-- Where the word stands among the characters of the copy, it stands among its bytes. -/
theorem aliasWordAt_of_upper (h : upper cs = b ++ aliasWord ++ r) :
    AliasWordAt cs (utf8 b).length :=
  (utf8_prefix_drop_iff isAscii_aliasWord (by decide)).2 ⟨b, r, h, rfl⟩

/-- **The word stands between characters of the text itself.** -/
theorem aliasWordAt_iff : AliasWordAt cs n ↔
    ∃ left w right, cs = left ++ w ++ right ∧ upper w = aliasWord ∧ (utf8 left).length = n := by
  constructor
  · intro h
    obtain ⟨b, r, hupper, rfl⟩ := (utf8_prefix_drop_iff isAscii_aliasWord (by decide)).1 h
    obtain ⟨front, right, rfl, hfront, -⟩ := List.map_eq_append_iff.1 hupper
    obtain ⟨left, w, rfl, rfl, hw⟩ := List.map_eq_append_iff.1 hfront
    exact ⟨left, w, right, rfl, hw, (length_utf8_upper left).symm⟩
  · rintro ⟨left, w, right, rfl, hw, rfl⟩
    rw [← length_utf8_upper]
    exact aliasWordAt_of_upper (upper_around hw)

theorem AliasWordAt.isValid (h : AliasWordAt d.toList n) :
    (⟨n⟩ : String.Pos.Raw).IsValid d ∧ (⟨n + 4⟩ : String.Pos.Raw).IsValid d := by
  obtain ⟨left, w, right, hcs, hw, rfl⟩ := aliasWordAt_iff.1 h
  constructor
  · rw [List.append_assoc] at hcs
    exact isValid_of_append hcs
  · have hend := isValid_of_append hcs
    rwa [utf8_append, List.length_append, length_utf8_word hw] at hend

/-- The bytes on either side of the word are those of the characters there. -/
theorem utf8_sides (hcs : cs = left ++ w ++ right) (hw : upper w = aliasWord) :
    utf8 left = (utf8 cs).take (utf8 left).length ∧
      utf8 right = (utf8 cs).drop ((utf8 left).length + 4) := by
  constructor
  · rw [hcs, List.append_assoc, utf8_append, List.take_left]
  · rw [hcs, utf8_append, ← length_utf8_word hw, ← List.length_append, ← utf8_append,
      List.drop_left]

/-- **The first offset in bytes is where the characters are cut.** -/
theorem cut?_iff_first (hcs : cs = left ++ w ++ right) (hw : upper w = aliasWord) :
    cut? aliasWord (upper cs) = some (upper left, upper right) ↔
      ∀ m, AliasWordAt cs m → (utf8 left).length ≤ m := by
  have hupper : upper cs = upper left ++ aliasWord ++ upper right := by
    rw [hcs, upper_around hw]
  have hbeginning : ∀ {b r : List Char}, upper cs = b ++ aliasWord ++ r → b <+: upper cs :=
    fun {b r} h => ⟨aliasWord ++ r, by rw [h, List.append_assoc]⟩
  rw [cut?_eq_some, and_iff_right hupper, ← length_utf8_upper]
  constructor
  · intro hfirst m hm
    obtain ⟨b, r, hb, rfl⟩ := (utf8_prefix_drop_iff isAscii_aliasWord (by decide)).1 hm
    exact (length_utf8_le_iff (hbeginning hupper) (hbeginning hb)).2 (hfirst b r hb)
  · intro hfirst b r hb
    exact (length_utf8_le_iff (hbeginning hupper) (hbeginning hb)).1
      (hfirst _ (aliasWordAt_of_upper hb))

theorem SplitsByBytes.splitAlias?_eq {halves : Option (List Char × List Char)}
    (h : SplitsByBytes cs halves) : splitAlias? cs = halves := by
  cases h with
  | uncut hno =>
    refine splitAlias?_of_cut?_none (cut?_eq_none.2 ?_)
    rintro ⟨b, r, hb⟩
    exact hno _ (aliasWordAt_of_upper hb.symm)
  | @cut n left right hat hfirst hleft hright =>
    obtain ⟨left', w, right', hcs, hw, rfl⟩ := aliasWordAt_iff.1 hat
    obtain ⟨hleft', hright'⟩ := utf8_sides hcs hw
    obtain rfl := utf8_injective (hleft.trans hleft'.symm)
    obtain rfl := utf8_injective (hright.trans hright'.symm)
    exact splitAlias?_of_cut? hcs hw ((cut?_iff_first hcs hw).2 hfirst)

theorem splitsByBytes_splitAlias? (cs : List Char) : SplitsByBytes cs (splitAlias? cs) := by
  cases hcut : cut? aliasWord (upper cs) with
  | none =>
    rw [splitAlias?_of_cut?_none hcut]
    refine .uncut fun n hat => cut?_eq_none.1 hcut ?_
    obtain ⟨left, w, right, rfl, hw, -⟩ := aliasWordAt_iff.1 hat
    exact ⟨upper left, upper right, (upper_around hw).symm⟩
  | some halves =>
    obtain ⟨b, r⟩ := halves
    obtain ⟨left, w, right, hcs, hw, rfl, rfl⟩ := exists_of_cut? hcut
    rw [splitAlias?_of_cut? hcs hw hcut]
    obtain ⟨hleft, hright⟩ := utf8_sides hcs hw
    exact .cut (aliasWordAt_iff.2 ⟨left, w, right, hcs, hw, rfl⟩) ((cut?_iff_first hcs hw).1 hcut)
      hleft hright

/-! ## The reader and the grammar -/

/-- **Declarations are read by one grammar.** A declaration is read as a column whose names pass the
check just when the grammar says that it stands for this column, and with an alias it has one
decomposition only.

Wherever the word stands in the upper-case copy, both of its ends lie between characters of the
declaration. So splitting by offsets in bytes always gives two texts, and it splits as the reader
does. -/
theorem declarations_grammar (d : String) :
    (∀ column, (parse d = column ∧ Entity.checkColumn column = .ok ()) ↔
      Declares (trim d.toList) column) ∧
    (∀ l l' : Labelled, l.WellFormed → l'.WellFormed → trim d.toList = l.text →
      trim d.toList = l'.text → l = l') ∧
    (∀ n, AliasWordAt (trim d.toList) n →
      (⟨n⟩ : String.Pos.Raw).IsValid (strip d) ∧ (⟨n + 4⟩ : String.Pos.Raw).IsValid (strip d)) ∧
    (∀ halves, SplitsByBytes (trim d.toList) halves ↔ splitAlias? (trim d.toList) = halves) := by
  refine ⟨fun column => ⟨?_, ?_⟩, ?_, fun n hn => ?_, fun halves => ⟨?_, ?_⟩⟩
  · rintro ⟨rfl, hcheck⟩
    exact declares_of_checkColumn hcheck
  · intro h
    exact ⟨h.parse_eq, h.checkColumn⟩
  · intro l l' hl hl' htext htext'
    exact hl.unique hl' (htext.symm.trans htext')
  · have htext : (strip d).toList = trim d.toList := String.toList_ofList
    rw [← htext] at hn
    exact hn.isValid
  · exact SplitsByBytes.splitAlias?_eq
  · rintro rfl
    exact splitsByBytes_splitAlias? _

/-- A column that is itself called `As`, under the alias `AS`, with a tab in front of the word and
an em space behind it. -/
theorem declarations_grammar_as :
    parse " As\t as \u2003AS" = ⟨"As", some "AS"⟩ ∧
      Entity.checkColumn ⟨"As", some "AS"⟩ = .ok () := by
  have hl : Labelled.WellFormed ⟨"As", ['\t'], ['a', 's'], ['\u2003'], "AS"⟩ :=
    ⟨Identifier.check_iff.1 rfl, List.forall_mem_singleton.2 rfl, by decide,
      List.forall_mem_singleton.2 rfl, Identifier.check_iff.1 rfl⟩
  exact ((declarations_grammar " As\t as \u2003AS").1 _).2 (.labelled hl)

end RecordSql.JoinColumn
