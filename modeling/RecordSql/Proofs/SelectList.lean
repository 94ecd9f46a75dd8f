import RecordSql.Proofs.Meaning
import RecordSql.Proofs.Variables

/-!
# Reading a select list

The columns of a result, as a reader of the text finds them. Commas outside of parentheses separate
the items of a list. What an item shows stands before its last ` AS `, and behind it stands the name
of the result column. An item without an ` AS ` is a column, and the result column has the name that
stands behind the point. A name in quotes is read the way a database reads it.

* Reading goes character by character with the depth of the parentheses. A text is **whole** when
  its parentheses match and all of its commas are inside of them; the wording of an expression is
  counted, and names have neither.
* A list of whole items is read item by item.
* Names have no blanks, so the last ` AS ` of an item is the one in front of its name, and quoting a
  name and reading it give the name back.
-/

namespace RecordSql

namespace Text

variable {cs cs' rest : List Char} {c : Char} {depth depth' : Nat}

/-! ## Parts -/

/-- How deep in parentheses a reader is behind a character. -/
def nested (depth : Nat) (c : Char) : Nat :=
  if c = '(' then depth + 1 else if c = ')' then depth - 1 else depth

/-- The parts of a list, which the commas outside of parentheses separate. -/
def listParts (depth : Nat) : List Char → List (List Char)
  | [] => [[]]
  | c :: cs =>
    if c = ',' ∧ depth = 0 then [] :: listParts 0 cs
    else (listParts (nested depth c) cs).modifyHead (c :: ·)

/-- The items of a list: its parts without the blanks in front of them. -/
def listItems (cs : List Char) : List (List Char) :=
  (listParts 0 cs).map fun part => part.dropWhile (· = ' ')

/-- How deep a text ends that is read from some depth on. A comma outside of parentheses, or a
parenthesis that closes nothing, gives none. -/
def depthAfter? (depth : Nat) : List Char → Option Nat
  | [] => some depth
  | c :: cs =>
    if depth = 0 ∧ (c = ',' ∨ c = ')') then none else depthAfter? (nested depth c) cs

/-- A text that is one part of a list. -/
def Whole (cs : List Char) : Prop := depthAfter? 0 cs = some 0

instance (cs : List Char) : Decidable (Whole cs) :=
  inferInstanceAs (Decidable (depthAfter? 0 cs = some 0))

theorem depthAfter?_append :
    depthAfter? depth (cs ++ cs') = (depthAfter? depth cs).bind (depthAfter? · cs') := by
  induction cs generalizing depth with
  | nil => rfl
  | cons c cs ih =>
    rw [List.cons_append, depthAfter?, depthAfter?]
    split
    · rfl
    · exact ih

/-- A text may be read from any greater depth. -/
theorem depthAfter?_add (h : depthAfter? depth cs = some depth') (k : Nat) :
    depthAfter? (depth + k) cs = some (depth' + k) := by
  induction cs generalizing depth with
  | nil =>
    rw [depthAfter?, Option.some.injEq] at h
    rw [depthAfter?, h]
  | cons c cs ih =>
    rw [depthAfter?] at h
    split at h
    · exact absurd h (by simp)
    · next hc =>
      have hstep : nested (depth + k) c = nested depth c + k := by
        unfold nested
        split
        · omega
        · split
          · have hdepth : depth ≠ 0 := fun hz => hc ⟨hz, .inr ‹_›⟩
            omega
          · rfl
      rw [depthAfter?, if_neg (fun hk => hc ⟨by omega, hk.2⟩), hstep]
      exact ih h

/-- A text without breaks stays where it is. -/
theorem depthAfter?_of_not_break (h : ∀ c ∈ cs, isBreak c = false) :
    depthAfter? depth cs = some depth := by
  induction cs with
  | nil => rfl
  | cons c cs ih =>
    obtain ⟨hc, hcs⟩ := List.forall_mem_cons.1 h
    have hne : ∀ d, isBreak d = true → c ≠ d := by
      rintro d hd rfl
      exact absurd (hc.symm.trans hd) (by simp)
    have hcomma := hne ',' (by decide)
    have hopen := hne '(' (by decide)
    have hclose := hne ')' (by decide)
    rw [depthAfter?, if_neg (by simp [hcomma, hclose]), nested, if_neg hopen, if_neg hclose]
    exact ih hcs

theorem listParts_append (h : depthAfter? depth cs = some depth') :
    listParts depth (cs ++ rest) = (listParts depth' rest).modifyHead (cs ++ ·) := by
  induction cs generalizing depth with
  | nil =>
    obtain rfl : depth = depth' := Option.some.inj h
    cases hparts : listParts depth rest with
    | nil => exact hparts
    | cons part parts => exact hparts
  | cons c cs ih =>
    rw [depthAfter?] at h
    split at h
    · exact absurd h (by simp)
    · next hc =>
      rw [List.cons_append, listParts, if_neg (fun hk => hc ⟨hk.2, .inl hk.1⟩), ih h]
      cases listParts depth' rest <;> rfl

/-- What is whole is one item, up to the comma behind it. -/
theorem Whole.listParts (h : Whole cs) : listParts 0 cs = [cs] := by
  have hparts : Text.listParts 0 (cs ++ []) = (Text.listParts 0 []).modifyHead (cs ++ ·) :=
    listParts_append h
  rw [List.append_nil] at hparts
  rw [hparts, Text.listParts, List.modifyHead_cons, List.append_nil]

theorem Whole.listParts_comma (h : Whole cs) :
    Text.listParts 0 (cs ++ ',' :: rest) = cs :: Text.listParts 0 rest := by
  rw [listParts_append h, Text.listParts, if_pos ⟨rfl, rfl⟩, List.modifyHead_cons, List.append_nil]

/-- What stands in a list as an item of it: a whole text that starts, and with no blank. -/
structure IsItem (cs : List Char) : Prop where
  whole : Whole cs
  start : ∃ c rest, cs = c :: rest ∧ c ≠ ' '

/-- An item may go on, as long as it stays one. -/
theorem IsItem.append (h : IsItem cs) (h' : Whole cs') : IsItem (cs ++ cs') := by
  obtain ⟨c, rest, rfl, hc⟩ := h.start
  refine ⟨?_, c, rest ++ cs', rfl, hc⟩
  rw [Whole, depthAfter?_append, h.whole, Option.bind_some, h']

/-- A word is an item, between parentheses or not. -/
theorem IsItem.of_unbroken (h : Unbroken cs) : IsItem cs := by
  obtain ⟨c, rest, rfl⟩ := List.exists_cons_of_ne_nil h.1
  refine ⟨depthAfter?_of_not_break fun d hd => (h.2 d hd).1, c, rest, rfl, ?_⟩
  rintro rfl
  exact absurd (h.2 ' ' List.mem_cons_self).1 (by decide)

/-- A whole text may stand at any depth. -/
theorem Whole.inside (h : Whole cs) (depth : Nat) : depthAfter? depth cs = some depth := by
  have hadd := depthAfter?_add h depth
  rw [Nat.zero_add] at hadd
  exact hadd

/-- An expression is an item, when its wording closes what it opens. -/
theorem isItem_wrapped {opening closing : List Char}
    (hs : opening ≠ [] ∧ opening.head? ≠ some ' ') (ho : depthAfter? 0 opening = some depth)
    (h : depthAfter? depth cs = some depth) (hc : depthAfter? depth closing = some 0) :
    IsItem (opening ++ cs ++ closing) := by
  obtain ⟨c, tail, rfl⟩ := List.exists_cons_of_ne_nil hs.1
  refine ⟨?_, c, tail ++ cs ++ closing, rfl, fun he => hs.2 (congrArg some he)⟩
  rw [Whole, depthAfter?_append, depthAfter?_append, ho, Option.bind_some, h, Option.bind_some, hc]

theorem dropWhile_blank (hc : c ≠ ' ') : (c :: cs).dropWhile (· = ' ') = c :: cs :=
  List.dropWhile_cons_of_neg (by simpa using hc)

theorem listItems_blank (cs : List Char) : listItems (' ' :: cs) = listItems cs := by
  have hparts : listParts 0 (' ' :: cs) = (listParts 0 cs).modifyHead (' ' :: ·) := by
    rw [listParts, if_neg (by simp)]
    rfl
  rw [listItems, hparts, listItems]
  cases listParts 0 cs with
  | nil => rfl
  | cons part parts => rfl

theorem IsItem.listItems (h : IsItem cs) : listItems cs = [cs] := by
  obtain ⟨c, rest, rfl, hc⟩ := h.start
  rw [Text.listItems, h.whole.listParts, List.map_singleton, dropWhile_blank hc]

theorem IsItem.listItems_append (h : IsItem cs) (rest : List Char) :
    Text.listItems (cs ++ ([',', ' '] ++ rest)) = cs :: Text.listItems rest := by
  obtain ⟨c, tail, rfl, hc⟩ := h.start
  show (listParts 0 (c :: tail ++ ',' :: ' ' :: rest)).map _ = _
  rw [h.whole.listParts_comma, List.map_cons, dropWhile_blank hc, ← listItems_blank rest]
  rfl

/-- **A list is read item by item**, and then what stands behind it is read. -/
theorem listItems_intercalate_append {items : List (List Char)} (hne : items ≠ [])
    (h : ∀ item ∈ items, IsItem item) (rest : List Char) :
    listItems (List.intercalate [',', ' '] items ++ ([',', ' '] ++ rest)) =
      items ++ listItems rest := by
  induction items with
  | nil => exact absurd rfl hne
  | cons item items ih =>
    obtain ⟨hitem, hitems⟩ := List.forall_mem_cons.1 h
    cases items with
    | nil =>
      rw [List.intercalate_singleton]
      exact hitem.listItems_append rest
    | cons next items =>
      rw [List.intercalate_cons_cons, List.append_assoc, List.append_assoc,
        hitem.listItems_append, ih (by simp) hitems]
      rfl

theorem listItems_intercalate {items : List (List Char)} (hne : items ≠ [])
    (h : ∀ item ∈ items, IsItem item) :
    listItems (List.intercalate [',', ' '] items) = items := by
  induction items with
  | nil => exact absurd rfl hne
  | cons item items ih =>
    obtain ⟨hitem, hitems⟩ := List.forall_mem_cons.1 h
    cases items with
    | nil => rw [List.intercalate_singleton, hitem.listItems]
    | cons next items =>
      rw [List.intercalate_cons_cons, List.append_assoc, hitem.listItems_append,
        ih (by simp) hitems]

/-- In parentheses, a list of whole parts may stand. -/
theorem depthAfter?_intercalate {parts : List (List Char)} (h : ∀ part ∈ parts, Whole part) :
    depthAfter? 1 (List.intercalate [',', ' '] parts) = some 1 := by
  induction parts with
  | nil => rfl
  | cons part parts ih =>
    obtain ⟨hpart, hparts⟩ := List.forall_mem_cons.1 h
    cases parts with
    | nil => rw [List.intercalate_singleton, hpart.inside]
    | cons next parts =>
      rw [List.intercalate_cons_cons, depthAfter?_append, depthAfter?_append, hpart.inside]
      exact ih hparts

/-! ## Names behind an ` AS ` -/

/-- A pattern is found where its first character first stands. -/
theorem cut?_of_not_mem {p : List Char} (h : c ∉ cs) :
    cut? (c :: p) (cs ++ (c :: p ++ rest)) = some (cs, rest) := by
  induction cs with
  | nil =>
    have hfound : after? (c :: p) (c :: (p ++ rest)) = some rest := after?_append (c :: p) rest
    show cut? (c :: p) (c :: (p ++ rest)) = _
    rw [cut?, hfound]
  | cons d cs ih =>
    obtain ⟨hd, hcs⟩ := not_or.1 (mt List.mem_cons.2 h)
    rw [List.cons_append, cut?, after?, if_neg hd, ih hcs]
    rfl

end Text

/-- A column of a result: what it shows, and the name it has if there is one. -/
structure ShownColumn where
  expression : String
  name : Option String
  deriving DecidableEq

namespace ShownColumn

/-- No two of the columns have the same name, letter case apart. -/
def Distinct (columns : List ShownColumn) : Prop :=
  (columns.map fun column => column.name.map Text.lowerCase).Nodup

instance (columns : List ShownColumn) : Decidable (Distinct columns) :=
  inferInstanceAs (Decidable (List.Nodup _))

theorem distinct_iff {columns : List ShownColumn} {names : List String}
    (h : columns.map name = names.map some) :
    Distinct columns ↔ (names.map Text.lowerCase).Nodup := by
  have hfolded : columns.map (fun column => column.name.map Text.lowerCase) =
      (names.map Text.lowerCase).map some := by
    have hmap := congrArg (List.map (Option.map Text.lowerCase)) h
    rw [List.map_map, List.map_map] at hmap
    rw [List.map_map]
    exact hmap
  rw [Distinct, hfolded, List.nodup_map_iff (fun _ _ => Option.some.inj)]

end ShownColumn

namespace Dialect

/-- The word that stands in front of the name of an item. -/
def labelWord : List Char := " AS ".toList

/-- A name as the database reads it, in quotes or not. -/
def readName? (d : Dialect) (cs : List Char) : Option String :=
  if cs.head? = some d.quotes.1 then
    match Text.readQuoted? d.quotes.1 d.quotes.2 cs with
    | some (name, []) => some (String.ofList name)
    | _ => none
  else some (String.ofList cs)

/-- The column of an item: the last label is its name, and without one that of the column is. -/
def readItem (d : Dialect) (item : List Char) : ShownColumn :=
  match Text.cut? labelWord.reverse item.reverse with
  | some (label, expression) => ⟨String.ofList expression.reverse, d.readName? label.reverse⟩
  | none => ⟨String.ofList item, d.readName? ((item.dropWhile (· ≠ '.')).drop 1)⟩

/-- The columns of a select list. -/
def readList (d : Dialect) (list : String) : List ShownColumn :=
  (Text.listItems list.toList).map d.readItem

end Dialect

namespace Style

open Text

variable {style : Style} {name : String}

/-- A name that is written is read back. -/
theorem readName?_identifier (h : Identifier.check name = .ok ()) :
    style.dialect.readName? (style.identifier name).toList = some name := by
  unfold identifier Dialect.readName?
  split
  · have hread : Text.readQuoted? style.dialect.quotes.1 style.dialect.quotes.2
        (Text.between style.dialect.quotes.1 style.dialect.quotes.2 name.toList) =
          some (name.toList, []) := by
      exact Text.readQuoted?_eq_some.2 ⟨(List.append_nil _).symm, by simp⟩
    rw [Text.quoteIdentifier, String.toList_ofList, hread]
    simp [Text.between]
  · have hstart : name.toList.head? ≠ some style.dialect.quotes.1 := by
      intro hhead
      have hallowed := (Identifier.check_eq_ok.1 h).2.2.1 _ (List.mem_of_head? hhead)
      cases hd : style.dialect with
      | sqlServer =>
        rw [hd] at hallowed
        exact absurd hallowed (by decide)
      | oracle =>
        rw [hd] at hallowed
        exact absurd hallowed (by decide)
    rw [if_neg hstart, String.ofList_toList]

theorem point_not_mem_alias (table : TableAlias) : '.' ∉ table.text.toList := by
  obtain ⟨c, n, htext, hc⟩ := table.toList_text
  rw [htext, List.mem_cons, not_or]
  constructor
  · rcases hc with rfl | rfl
    · decide
    · decide
  · intro hm
    have hdigit := Nat.isDigit_of_mem_toDigits (by decide) (by decide) hm
    exact absurd hdigit (by decide)

theorem isItem_qualified (table : TableAlias) (h : Identifier.check name = .ok ()) :
    IsItem (style.qualified table name).toList :=
  .of_unbroken (unbroken_qualified h)

theorem isItem_labelled {expression : String} (h : IsItem expression.toList)
    (hn : Identifier.check name = .ok ()) :
    IsItem (expression ++ " AS " ++ style.identifier name).toList := by
  have hword : Whole " AS ".toList := by decide
  have hname : IsItem (style.identifier name).toList := .of_unbroken (unbroken_identifier hn)
  rw [String.toList_append, String.toList_append]
  exact (h.append hword).append hname.whole

/-- An item with a name is read as its expression and its name. -/
theorem readItem_labelled (h : Identifier.check name = .ok ()) (expression : String) :
    style.dialect.readItem (expression ++ " AS " ++ style.identifier name).toList =
      ⟨expression, some name⟩ := by
  have hblank : ' ' ∉ (style.identifier name).toList.reverse := fun hm =>
    style.blank_not_mem_identifier h (List.mem_reverse.1 hm)
  have hcut : Text.cut? Dialect.labelWord.reverse
      (expression ++ " AS " ++ style.identifier name).toList.reverse =
        some ((style.identifier name).toList.reverse, expression.toList.reverse) := by
    rw [String.toList_append, String.toList_append, List.reverse_append, List.reverse_append]
    exact Text.cut?_of_not_mem hblank
  rw [Dialect.readItem, hcut]
  dsimp only
  rw [List.reverse_reverse, List.reverse_reverse, readName?_identifier h, String.ofList_toList]

/-- A column without a name is read as itself, under its own name. -/
theorem readItem_qualified (table : TableAlias) (h : Identifier.check name = .ok ()) :
    style.dialect.readItem (style.qualified table name).toList =
      ⟨style.qualified table name, some name⟩ := by
  have hword : Text.cut? Dialect.labelWord.reverse (style.qualified table name).toList.reverse =
      none := by
    rw [Text.cut?_eq_none]
    intro hinfix
    have hblank : ' ' ∈ (style.qualified table name).toList.reverse :=
      hinfix.subset (List.mem_cons_self (a := ' ') (l := ['S', 'A', ' ']))
    have hunbroken := (unbroken_qualified h).2 ' ' (List.mem_reverse.1 hblank)
    exact absurd hunbroken.1 (by decide)
  have hpoint : ((style.qualified table name).toList.dropWhile (· ≠ '.')).drop 1 =
      (style.identifier name).toList := by
    rw [qualified, String.toList_append, String.toList_append, List.append_assoc,
      List.dropWhile_append_of_pos]
    · rfl
    · intro c hc
      exact decide_eq_true fun he => point_not_mem_alias table (he ▸ hc)
  rw [Dialect.readItem, hword]
  dsimp only
  rw [hpoint, readName?_identifier h, String.ofList_toList]

end Style

end RecordSql
