/-!
# Quoted names and literals

A quoted text stands between an opening and a closing mark, and a closing mark inside it is
written twice. That makes it one token to a reader which skips the opening mark and goes on to the
first closing mark that is not doubled: no text can end its own quotes.
-/

namespace RecordSql.Text

/-- A text with every `mark` in it written twice. -/
def doubled (mark : Char) : List Char → List Char
  | [] => []
  | c :: rest => if c = mark then mark :: mark :: doubled mark rest else c :: doubled mark rest

/-- A text between an opening and a closing mark. -/
def between (opening closing : Char) (cs : List Char) : List Char :=
  opening :: doubled closing cs ++ [closing]

/-- A name between quotes. -/
def quoteIdentifier (s : String) (opening closing : Char) : String :=
  String.ofList (between opening closing s.toList)

/-- A string literal, between single quotes. -/
def quoteLiteral (s : String) : String := String.ofList (between '\'' '\'' s.toList)

/-- Reads up to the first closing mark that is not doubled, and says what follows it. -/
def undouble? (mark : Char) : List Char → Option (List Char × List Char)
  | [] => none
  | c :: rest =>
    if c = mark then
      match rest with
      | d :: rest =>
        if d = mark then (undouble? mark rest).map fun (text, tail) => (mark :: text, tail)
        else some ([], d :: rest)
      | [] => some ([], [])
    else (undouble? mark rest).map fun (text, tail) => (c :: text, tail)

/-- Reads one quoted text as the database does. -/
def readQuoted? (opening closing : Char) : List Char → Option (List Char × List Char)
  | [] => none
  | c :: rest => if c = opening then undouble? closing rest else none

variable {mark opening closing : Char} {cs text rest : List Char}

/-- Reading up to the closing mark takes back the doubling. -/
theorem undouble?_doubled (h : rest.head? ≠ some mark) :
    undouble? mark (doubled mark text ++ mark :: rest) = some (text, rest) := by
  induction text with
  | nil =>
    cases rest with
    | nil => simp [doubled, undouble?]
    | cons d rest =>
      have hd : d ≠ mark := fun hd => h (congrArg some hd)
      simp [doubled, undouble?, hd]
  | cons c text ih =>
    by_cases hc : c = mark
    · rw [doubled, if_pos hc, hc]
      show undouble? mark (mark :: mark :: (doubled mark text ++ mark :: rest)) = _
      rw [undouble?, if_pos rfl, if_pos rfl, ih]
      rfl
    · rw [doubled, if_neg hc, List.cons_append, undouble?.eq_def]
      simp only [if_neg hc, ih]
      rfl

/-- What is read up to the closing mark was doubled in front of it, and no closing mark follows. -/
theorem eq_doubled_of_undouble? (h : undouble? mark cs = some (text, rest)) :
    cs = doubled mark text ++ mark :: rest ∧ rest.head? ≠ some mark := by
  fun_induction undouble? mark cs generalizing text with
  | case1 => exact absurd h (by simp)
  | case2 cs ih =>
    obtain ⟨⟨text, tail⟩, hread, hx⟩ := Option.map_eq_some_iff.1 h
    obtain ⟨rfl, rfl⟩ := Prod.mk.inj hx
    obtain ⟨rfl, hne⟩ := ih hread
    exact ⟨by simp [doubled], hne⟩
  | case3 d cs hd =>
    obtain ⟨rfl, rfl⟩ := Prod.mk.inj (Option.some.inj h)
    exact ⟨rfl, fun he => hd (Option.some.inj he)⟩
  | case4 =>
    obtain ⟨rfl, rfl⟩ := Prod.mk.inj (Option.some.inj h)
    exact ⟨rfl, by simp⟩
  | case5 c cs hc ih =>
    obtain ⟨⟨text, tail⟩, hread, hx⟩ := Option.map_eq_some_iff.1 h
    obtain ⟨rfl, rfl⟩ := Prod.mk.inj hx
    obtain ⟨rfl, hne⟩ := ih hread
    exact ⟨by rw [doubled, if_neg hc, List.cons_append], hne⟩

/-- **Reading accepts just what quoting writes**: the text between its marks, with no closing mark
behind them. -/
theorem readQuoted?_eq_some : readQuoted? opening closing cs = some (text, rest) ↔
    cs = between opening closing text ++ rest ∧ rest.head? ≠ some closing := by
  have hbetween : between opening closing text ++ rest =
      opening :: (doubled closing text ++ closing :: rest) := by simp [between]
  rw [hbetween]
  constructor
  · intro h
    cases cs with
    | nil => exact absurd h (by simp [readQuoted?])
    | cons c cs =>
      rw [readQuoted?] at h
      split at h
      · next hc =>
        obtain ⟨rfl, hne⟩ := eq_doubled_of_undouble? h
        exact ⟨congrArg (· :: _) hc, hne⟩
      · exact absurd h (by simp)
  · intro h
    obtain ⟨rfl, hne⟩ := h
    rw [readQuoted?, if_pos rfl, undouble?_doubled hne]

end RecordSql.Text
