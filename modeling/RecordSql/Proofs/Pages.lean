import RecordSql.Proofs.SameRows
import RecordSql.Proofs.Windows

/-!
# Both dialects cut the same page

A page of SQL Server keeps the rows whose numbers lie between two bounds, both of them counted in
and the first row having the number one. A page of Oracle passes over rows and takes the next ones.
The two clauses are written from different fields of a window, and the numbers in them are read back
here from the text of the page.

* A window is there just when it has a row and the number of its last row fits sixty-four bits. Its
  numbers are then exact, as nothing wraps.
* Keeping the rows numbered from `start + 1` to `start + length` is passing over `start` rows and
  taking `length`: by induction on the rows, with the number of the first of them left open.
* A window and the one that starts where it ends make up one window. Its page is their pages, one
  after the other, and no row is on both.

The rows that are numbered are the listing in its order: the number of a row is its place.
-/

namespace RecordSql

open Checked Text

/-! ## Cuts -/

/-- How a page is cut out of a listing. -/
inductive Cut where
  /-- The rows whose number is none before the first and none behind the last. -/
  | between (first last : Nat)
  /-- The rows behind so many, and no more than so many of them. -/
  | offset (skipped taken : Nat)
  deriving DecidableEq, Repr

namespace Cut

variable {α : Type}

/-- The rows that a cut leaves of a listing. Rows are numbered from one on. -/
def rows : Cut → List α → List α
  | .between first last, rows =>
    ((rows.zipIdx 1).filter fun p => first ≤ p.2 ∧ p.2 ≤ last).map Prod.fst
  | .offset skipped taken, rows => (rows.drop skipped).take taken

/-- Rows that are numbered from `n + 1` on, kept between two bounds. -/
theorem map_fst_filter_between (start length n : Nat) (rows : List α) :
    ((rows.zipIdx (n + 1)).filter fun p => start + 1 ≤ p.2 ∧ p.2 ≤ start + length).map Prod.fst =
      (rows.drop (start - n)).take (start + length - max start n) := by
  induction rows generalizing n with
  | nil => simp
  | cons row rest ih =>
    rw [List.zipIdx_cons, List.filter_cons]
    by_cases hfirst : n < start
    · -- the row stands before the page
      have hskip : start - n = start - (n + 1) + 1 := by omega
      rw [if_neg (by simp; omega), ih, hskip, List.drop_succ_cons, Nat.max_eq_left (by omega),
        Nat.max_eq_left (by omega)]
    · have hnone : start - n = 0 ∧ start - (n + 1) = 0 := by omega
      rw [hnone.1, List.drop_zero, Nat.max_eq_right (by omega)]
      by_cases hlast : n < start + length
      · have htake : start + length - n = start + length - (n + 1) + 1 := by omega
        rw [if_pos (by simp; omega), List.map_cons, ih, hnone.2, List.drop_zero,
          Nat.max_eq_right (by omega), htake, List.take_succ_cons]
      · -- the page is full
        have htake : start + length - n = 0 := by omega
        have hrest : start + length - max start (n + 1) = 0 := by omega
        rw [if_neg (by simp; omega), ih, htake, hrest, List.take_zero, List.take_zero]

/-- **Both cuts leave the same rows.** -/
theorem rows_between (start length : Nat) (rows : List α) :
    (between (start + 1) (start + length)).rows rows = (offset start length).rows rows := by
  have h := map_fst_filter_between start length 0 rows
  rwa [Nat.sub_zero, Nat.max_eq_left (Nat.zero_le _), Nat.add_sub_cancel_left] at h

end Cut

namespace Window

variable {α : Type}

/-- The rows on the page of a window. -/
def page (w : Window) (rows : List α) : List α := (rows.drop w.start).take w.length

/-- The cut that a dialect writes for a window. -/
def cut (w : Window) : Dialect → Cut
  | .sqlServer => .between w.firstRow w.lastRow
  | .oracle => .offset w.start w.length

theorem rows_cut {w : Window} (h : w.Exact) (d : Dialect) (rows : List α) :
    (w.cut d).rows rows = w.page rows := by
  cases d with
  | sqlServer =>
    rw [cut, h.firstRow, h.lastRow]
    exact Cut.rows_between _ _ rows
  | oracle => rfl

/-- The page of a window that is put together is its two pages. -/
theorem page_append {w w' whole : Window} (hs : whole.start.toNat = w.start.toNat)
    (hs' : w'.start.toNat = w.start.toNat + w.length.toNat)
    (hl : whole.length.toNat = w.length.toNat + w'.length.toNat) (rows : List α) :
    whole.page rows = w.page rows ++ w'.page rows := by
  rw [page, page, page, hs, hs', hl, List.take_add, List.drop_drop]

/-- A numbered row on the page of a window has one of its numbers. -/
theorem number_of_mem_page {w : Window} (hw : w.Exact) {rows : List α} {p : α × Nat}
    (h : p ∈ w.page (rows.zipIdx 1)) : w.firstRow.toNat ≤ p.2 ∧ p.2 ≤ w.lastRow.toNat := by
  obtain ⟨i, hi⟩ := List.mem_iff_getElem?.1 h
  rw [page, List.getElem?_take] at hi
  split at hi
  · next hlt =>
    rw [List.getElem?_drop, List.getElem?_zipIdx, Option.map_eq_some_iff] at hi
    obtain ⟨row, _, rfl⟩ := hi
    rw [hw.firstRow, hw.lastRow]
    dsimp only
    omega
  · exact absurd hi (by simp)

/-- No row is on two pages that follow one another. -/
theorem disjoint_page {w w' : Window} (hw : w.Exact) (hw' : w'.Exact)
    (hs' : w'.start.toNat = w.start.toNat + w.length.toNat) (rows : List α) :
    (w.page (rows.zipIdx 1)).Disjoint (w'.page (rows.zipIdx 1)) := by
  intro p hp hp'
  have hlast := (number_of_mem_page hw hp).2
  have hfirst := (number_of_mem_page hw' hp').1
  rw [hw.lastRow] at hlast
  rw [hw'.firstRow] at hfirst
  omega

end Window

/-! ## Reading a page -/

namespace Text

/-- What stands in front of a word at the end of a text, the text being read backwards. -/
def wordBack? (word : String) (cs : List Char) : Option (List Char) :=
  after? word.toList.reverse cs

/-- The number at the end of a text with what stands in front of it, the text being read
backwards. -/
def numberBack (cs : List Char) : Nat × List Char :=
  (Nat.ofDigitChars 10 (cs.takeWhile Char.isDigit).reverse 0, cs.dropWhile Char.isDigit)

variable {rest : List Char}

theorem wordBack?_append (word : String) :
    wordBack? word (word.toList.reverse ++ rest) = some rest := after?_append _ _

/-- A number is read as a whole behind a word that ends in a blank. -/
theorem numberBack_append (n : Nat) {word : String} (h : word.toList.getLast? = some ' ') :
    numberBack ((toString n).toList.reverse ++ (word.toList.reverse ++ rest)) =
      (n, word.toList.reverse ++ rest) := by
  have hdigits : ∀ c ∈ (Nat.toDigits 10 n).reverse, c.isDigit = true := fun c hc =>
    Nat.isDigit_of_mem_toDigits (by decide) (by decide) (List.mem_reverse.1 hc)
  obtain ⟨front, hfront⟩ := List.getLast?_eq_some_iff.1 h
  have hword : word.toList.reverse ++ rest = ' ' :: (front.reverse ++ rest) := by
    rw [hfront, List.reverse_append]
    rfl
  have hblank : ¬ Char.isDigit ' ' = true := by decide
  rw [Nat.toString_eq_repr, Nat.toList_repr, numberBack, List.takeWhile_append_of_pos hdigits,
    List.dropWhile_append_of_pos hdigits, hword, List.takeWhile_cons_of_neg hblank,
    List.dropWhile_cons_of_neg hblank, List.append_nil, List.reverse_reverse,
    Nat.ofDigitChars_ten_toDigits]

end Text

/-- The cut that a page is written with: the numbers in the last words of its text. -/
def Dialect.readCut? (d : Dialect) (text : String) : Option Cut :=
  match d with
  | .sqlServer => do
    let cs ← wordBack? " ORDER BY paged.RowNum" text.toList.reverse
    let (last, cs) := numberBack cs
    let cs ← wordBack? " AND " cs
    let (first, cs) := numberBack cs
    let _ ← wordBack? ") paged WHERE paged.RowNum BETWEEN " cs
    pure (.between first last)
  | .oracle => do
    let cs ← wordBack? " ROWS ONLY" text.toList.reverse
    let (taken, cs) := numberBack cs
    let cs ← wordBack? " ROWS FETCH NEXT " cs
    let (skipped, cs) := numberBack cs
    let _ ← wordBack? " OFFSET " cs
    pure (.offset skipped taken)

/-- **The text of a page is read as the cut of its window.** -/
theorem Dialect.readCut?_pageText (d : Dialect) (w : Window)
    (projection source filter orderBy : String) :
    d.readCut? (d.pageText w projection source filter orderBy) = some (w.cut d) := by
  cases d with
  | sqlServer =>
    obtain ⟨front, htext⟩ : ∃ front,
        (pageText .sqlServer w projection source filter orderBy).toList.reverse =
          " ORDER BY paged.RowNum".toList.reverse ++ ((toString w.lastRow.toNat).toList.reverse ++
            (" AND ".toList.reverse ++ ((toString w.firstRow.toNat).toList.reverse ++
              (") paged WHERE paged.RowNum BETWEEN ".toList.reverse ++ front)))) := by
      unfold pageText
      generalize "SELECT * FROM (SELECT " ++ projection ++ ", ROW_NUMBER() OVER (ORDER BY " ++
        orderBy ++ ") AS RowNum " ++ source ++ filter = front
      refine ⟨front.toList.reverse, ?_⟩
      simp only [String.toList_append, List.reverse_append, List.append_assoc]
      rfl
    unfold readCut?
    simp (disch := decide) only [htext, wordBack?_append, numberBack_append, Option.bind_eq_bind,
      Option.bind_some]
    rfl
  | oracle =>
    obtain ⟨front, htext⟩ : ∃ front,
        (pageText .oracle w projection source filter orderBy).toList.reverse =
          " ROWS ONLY".toList.reverse ++ ((toString w.length.toNat).toList.reverse ++
            (" ROWS FETCH NEXT ".toList.reverse ++ ((toString w.start.toNat).toList.reverse ++
              (" OFFSET ".toList.reverse ++ front)))) := by
      unfold pageText
      generalize "SELECT " ++ projection ++ " " ++ source ++ filter ++ " ORDER BY " ++ orderBy =
        front
      refine ⟨front.toList.reverse, ?_⟩
      simp only [String.toList_append, List.reverse_append, List.append_assoc]
      rfl
    unfold readCut?
    simp (disch := decide) only [htext, wordBack?_append, numberBack_append, Option.bind_eq_bind,
      Option.bind_some]
    rfl

/-- An answered listing with a window has the cut of the window at its end. -/
theorem Builder.readCut?_select {b : Builder} {e : Entity} {l : Listing} {s : Statement}
    {w : Window} (hw : Window.of? l.start l.length = some w) (h : b.select e (some l) = .ok s) :
    ∃ text, b.Encloses s text ∧ b.dialect.readCut? text = some (w.cut b.dialect) := by
  obtain ⟨_, sql, hbody, _⟩ := build_eq_ok.1 h
  obtain ⟨_, _, source, hsource, filter, hfilter, _⟩ := selectBody_eq_ok.1 hbody
  obtain ⟨⟨text, henclosed, htext⟩, _⟩ := select_written hsource hfilter h
  cases htext with
  | whole hwhole =>
    exact absurd (Window.of?_eq_some.1 hw).1 (of_decide_eq_false hwhole)
  | page _ hw' =>
    obtain rfl := Option.some.inj (hw.symm.trans hw')
    exact ⟨_, henclosed, b.dialect.readCut?_pageText w _ _ _ _⟩

/-- **Both dialects cut the same page, and pages tile the listing.** A window is there just when it
has a row and the number of its last row fits sixty-four bits; its numbers are then exact, as no
addition wraps. The cut of either dialect leaves what is behind `start` rows, `length` of them, and
it is what an answered listing is written with. Two windows that follow one another make up one
window, whose page is their pages one after the other, and no row of a listing is on both. -/
theorem pages_tile (start length : UInt64) :
    ((∃ w, Window.of? start length = some w) ↔
      0 < length.toNat ∧ start.toNat + length.toNat < UInt64.size) ∧
    ∀ w, Window.of? start length = some w →
      (w.start = start ∧ w.length = length ∧ w.firstRow.toNat = start.toNat + 1 ∧
        w.lastRow.toNat = start.toNat + length.toNat ∧ w.firstRow ≤ w.lastRow) ∧
      (∀ (d : Dialect) (α : Type) (rows : List α), (w.cut d).rows rows = w.page rows ∧
        w.page rows = (rows.drop start.toNat).take length.toNat) ∧
      (∀ (b : Builder) e (l : Listing) s, l.start = start → l.length = length →
        b.select e (some l) = .ok s →
          ∃ text, b.Encloses s text ∧ b.dialect.readCut? text = some (w.cut b.dialect)) ∧
      ∀ next w', Window.of? (start + length) next = some w' →
        ∃ whole, Window.of? start (length + next) = some whole ∧
          ∀ (α : Type) (rows : List α), whole.page rows = w.page rows ++ w'.page rows ∧
            (w.page (rows.zipIdx 1)).Disjoint (w'.page (rows.zipIdx 1)) := by
  refine ⟨Window.exists_of?, fun w hw => ?_⟩
  obtain ⟨hpos, rfl, rfl, hexact⟩ := Window.of?_eq_some.1 hw
  refine ⟨⟨rfl, rfl, hexact.firstRow, hexact.lastRow, ?_⟩,
    fun d α rows => ⟨Window.rows_cut hexact d rows, rfl⟩, ?_, ?_⟩
  · rw [UInt64.le_iff_toNat_le, hexact.firstRow, hexact.lastRow]
    omega
  · intro b e l s hs hl h
    rw [← hs, ← hl] at hw
    exact Builder.readCut?_select hw h
  · intro next w' hw'
    obtain ⟨whole, hwhole, hs, hs', hl⟩ := Window.exists_of?_add hw hw'
    have hexact' := (Window.of?_eq_some.1 hw').2.2.2
    exact ⟨whole, hwhole, fun α rows =>
      ⟨Window.page_append hs hs' hl rows, Window.disjoint_page hexact hexact' hs' rows⟩⟩

/-- The second page of a listing with two rows on each. -/
def secondPage : Listing := ⟨2, 2, none, [], [], none, none⟩

theorem pages_tile_last :
    (∃ w w' whole, Window.of? 18446744073709551613 1 = some w ∧
      Window.of? 18446744073709551614 1 = some w' ∧
      Window.of? 18446744073709551613 2 = some whole ∧
      w'.firstRow = 18446744073709551615 ∧ w'.lastRow = 18446744073709551615 ∧
      ∀ rows : List Nat, whole.page rows = w.page rows ++ w'.page rows) ∧
    Window.of? 18446744073709551615 1 = none ∧
    ∃ s text, Builder.default.select Builder.departments (some secondPage) = .ok s ∧
      Builder.default.Encloses s text ∧
      Dialect.sqlServer.readCut? text = some (.between 3 4) ∧
      (Cut.between 3 4).rows ["a", "b", "c", "d", "e"] = ["c", "d"] := by
  refine ⟨?_, by decide, ?_⟩
  · obtain ⟨w, hw⟩ := (pages_tile 18446744073709551613 1).1.2 (by decide)
    obtain ⟨w', hw'⟩ := (pages_tile 18446744073709551614 1).1.2 (by decide)
    obtain ⟨whole, hwhole, hpages⟩ := ((pages_tile 18446744073709551613 1).2 w hw).2.2.2 1 w' hw'
    obtain ⟨_, _, hfirst, hlast, _⟩ := ((pages_tile 18446744073709551614 1).2 w' hw').1
    exact ⟨w, w', whole, hw, hw', hwhole, UInt64.toNat_inj.1 hfirst, UInt64.toNat_inj.1 hlast,
      fun rows => (hpages Nat rows).1⟩
  · obtain ⟨s, hs⟩ : ∃ s, Builder.default.select Builder.departments (some secondPage) = .ok s :=
      ⟨_, rfl⟩
    obtain ⟨w, hw⟩ : ∃ w, Window.of? 2 2 = some w := (pages_tile 2 2).1.2 (by decide)
    obtain ⟨⟨_, _, hfirst, hlast, _⟩, hcut, hselect, _⟩ := (pages_tile 2 2).2 w hw
    obtain ⟨text, henclosed, hread⟩ := hselect Builder.default Builder.departments _ s rfl rfl hs
    have hw34 : w.cut .sqlServer = .between 3 4 := by
      rw [Window.cut, hfirst, hlast]
      rfl
    refine ⟨s, text, hs, henclosed, hread.trans (congrArg some hw34), ?_⟩
    rw [← hw34, (hcut .sqlServer String _).1, (hcut .sqlServer String _).2]
    rfl

end RecordSql
