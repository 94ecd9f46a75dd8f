/-!
# Finding one text in another

The three searches that the wire forms of the library are read with:

* `after? p s` takes a known beginning off a text;
* `cut? p s` splits a text around the first occurrence of a pattern;
* `pieces c s` splits a text at every occurrence of a separator.
-/

namespace RecordSql.Text

/-- What follows `p` when the text begins with it. -/
def after? : (p s : List Char) → Option (List Char)
  | [], s => some s
  | _ :: _, [] => none
  | a :: p, c :: s => if a = c then after? p s else none

/-- The text before and the text after the first occurrence of `p`. -/
def cut? (p : List Char) : (s : List Char) → Option (List Char × List Char)
  | [] => (after? p []).map ([], ·)
  | c :: s =>
    match after? p (c :: s) with
    | some rest => some ([], rest)
    | none => (cut? p s).map fun (before, rest) => (c :: before, rest)

/-- The pieces of a text between the occurrences of a separator; there is always one more piece
than there are separators. -/
def pieces (sep : Char) : List Char → List (List Char)
  | [] => [[]]
  | c :: s =>
    if c = sep then [] :: pieces sep s
    else
      match pieces sep s with
      | [] => [[c]]
      | piece :: rest => (c :: piece) :: rest

/-- Whether a text contains a pattern. -/
def contains (p s : List Char) : Bool := (cut? p s).isSome

/-- What is found stands where it was found: the two halves and the pattern give the text back. -/
theorem append_of_after? {p s rest : List Char} (h : after? p s = some rest) : s = p ++ rest := by
  fun_induction after? p s with
  | case1 s => simpa using h
  | case2 => simp at h
  | case3 a p s ih => simp [ih h]
  | case4 => simp at h

/-- A known beginning is found whatever follows it. -/
theorem after?_append (p rest : List Char) : after? p (p ++ rest) = some rest := by
  induction p with
  | nil => simp [after?]
  | cons a p ih => simp [after?, ih]

end RecordSql.Text
