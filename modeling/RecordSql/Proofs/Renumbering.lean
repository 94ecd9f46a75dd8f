import RecordSql.Proofs.BatchSteps
import RecordSql.Proofs.Placeholders

/-!
# Moving the numbers of placeholders on

A part of a statement is written with the number of its first parameter, and the same part further
back is the same text with every number raised. A reader of the text alone can raise the numbers: it
finds the placeholders as `Text.placeholders` does, reads the number of each, and copies the rest.

That the two agree is the argument for placeholders once more. Quiet text is copied as it is, and a
placeholder ends where its number does.
-/

namespace RecordSql

open Text

namespace Text

variable {mark : Char} {w rest : List Char}

/-- The text with the number of every placeholder raised by `m`. -/
def renumbered (mark : Char) (m : Nat) : List Char → List Char
  | [] => []
  | [c] => [c]
  | c :: d :: rest =>
    if c = mark ∧ d = 'p' ∧ rest.takeWhile Char.isDigit ≠ [] then
      c :: d :: Nat.toDigits 10 (Nat.ofDigitChars 10 (rest.takeWhile Char.isDigit) 0 + m) ++
        renumbered mark m (rest.dropWhile Char.isDigit)
    else c :: renumbered mark m (d :: rest)
termination_by cs => cs.length
decreasing_by
  · exact Nat.lt_succ_of_lt (Nat.lt_succ_of_le (List.dropWhile_sublist _).length_le)
  · exact Nat.lt_succ_self _

/-- A character that starts no placeholder is copied. -/
theorem renumbered_cons {c : Char} (m : Nat)
    (h : c = mark → ∀ d ∈ rest.head?, d ≠ 'p') :
    renumbered mark m (c :: rest) = c :: renumbered mark m rest := by
  cases rest with
  | nil => rw [renumbered, renumbered]
  | cons d rest =>
    rw [renumbered, if_neg]
    rintro ⟨hc, hd, _⟩
    exact h hc d rfl hd

/-- Quiet text is copied. -/
theorem renumbered_quiet (m : Nat) (h : Quiet mark w) :
    renumbered mark m (w ++ rest) = w ++ renumbered mark m rest := by
  induction w with
  | nil => rfl
  | cons c w ih =>
    obtain ⟨hc, hw⟩ := h
    rw [List.cons_append, renumbered_cons, ih hw, List.cons_append]
    -- what follows a mark is inside the text
    intro hmark d hd
    obtain ⟨d', hd', hne⟩ := hc hmark
    obtain ⟨w', rfl⟩ := List.head?_eq_some_iff.1 hd'
    rwa [← Option.some.inj hd]

end Text

/-- The number of a placeholder is raised. -/
theorem Dialect.renumbered_placeholder (d : Dialect) (n m : Nat) {rest : List Char}
    (hd : ∀ c ∈ rest.head?, c.isDigit = false) :
    renumbered d.mark m ((d.placeholder (parameterName n)).toList ++ rest) =
      (d.placeholder (parameterName (n + m))).toList ++ renumbered d.mark m rest := by
  have hdigits := takeWhile_isDigit n hd
  have hrest : (Nat.toDigits 10 n ++ rest).dropWhile Char.isDigit = rest := by
    have hsplit := List.takeWhile_append_dropWhile (p := Char.isDigit)
      (l := Nat.toDigits 10 n ++ rest)
    rw [hdigits] at hsplit
    exact List.append_cancel_left hsplit
  rw [d.toList_placeholder, d.toList_placeholder, List.cons_append, List.cons_append, renumbered,
    hdigits, hrest, if_pos ⟨rfl, rfl, Nat.toDigits_ne_nil⟩, Nat.ofDigitChars_ten_toDigits]

namespace Sql

variable {style : Style} {sql : Sql}

theorem write_of_binding?_none {p : Piece} (h : p.binding? = none) (n m : Nat) :
    p.write style n = p.write style m := by
  cases p with
  | bind x => exact absurd h (by simp [Piece.binding?])
  | _ => rfl

/-- **The text of a part further back is its text with the numbers raised.** -/
theorem renumbered_charsFrom (hq : ∀ p ∈ sql, p.Quiet style) (ha : sql.IsChain Piece.Apart)
    (n m : Nat) :
    renumbered style.dialect.mark m (charsFrom style n sql) = charsFrom style (n + m) sql := by
  induction sql generalizing n with
  | nil => rw [charsFrom, charsFrom, renumbered]
  | cons p rest ih =>
    have hrest := ih (fun q hm => hq q (List.mem_cons_of_mem _ hm)) ha.tail
    cases hb : p.binding? with
    | none =>
      rw [charsFrom_of_binding?_none hb, charsFrom_of_binding?_none hb,
        renumbered_quiet m (hq p List.mem_cons_self hb n), hrest n,
        write_of_binding?_none hb n (n + m)]
    | some x =>
      obtain rfl := Piece.eq_bind_of_binding? hb
      rw [charsFrom, charsFrom, Piece.write, Piece.write,
        style.dialect.renumbered_placeholder n m (head_charsFrom ha _), hrest (n + 1),
        Nat.add_right_comm]

end Sql

end RecordSql
