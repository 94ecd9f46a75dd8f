import RecordSql.Proofs.Clause

/-!
# The text of a batch

The lines of a batch are its header, which declares the variables, a line for each step, the commit,
and what hands out the variables. A statement that needs a key has a line in front that opens it; it
also sheds semicolons at its end, but none that stand in front of the commit.
-/

namespace RecordSql

open Checked

/-! ## Lines -/

/-- Texts that each end a line. -/
def Text.lines (texts : List (List Char)) : List Char := texts.flatMap (· ++ ['\n'])

namespace Sql

variable {style : Style} {parts before after : List Sql} {a c : Sql}

/-- The texts of parts that are written one after the other: the parameters of each are numbered on
from the part before. -/
def textsFrom (style : Style) : Nat → List Sql → List (List Char)
  | _, [] => []
  | n, part :: rest => charsFrom style n part :: textsFrom style (n + part.bindings.length) rest

theorem length_textsFrom (n : Nat) : (textsFrom style n parts).length = parts.length := by
  induction parts generalizing n with
  | nil => rfl
  | cons part rest ih => exact congrArg (· + 1) (ih _)

theorem exists_of_getElem?_textsFrom {n i : Nat} {text : List Char}
    (h : (textsFrom style n parts)[i]? = some text) :
    ∃ part m, parts[i]? = some part ∧ text = charsFrom style m part := by
  induction parts generalizing n i with
  | nil => exact absurd h (by simp [textsFrom])
  | cons part rest ih =>
    cases i with
    | zero => exact ⟨part, n, rfl, (Option.some.inj h).symm⟩
    | succ i => exact ih h

/-- In front of other parts, parts that bind nothing do not move the numbers. -/
theorem textsFrom_append (h : ∀ part ∈ before, part.bindings = []) (n : Nat) :
    textsFrom style n (before ++ after) =
      before.map (charsFrom style n) ++ textsFrom style n after := by
  induction before with
  | nil => rfl
  | cons part rest ih =>
    obtain ⟨hpart, hrest⟩ := List.forall_mem_cons.1 h
    rw [List.cons_append, textsFrom, hpart, List.length_nil, Nat.add_zero, ih hrest]
    rfl

/-- Parts that bind nothing are written alike wherever they stand. -/
theorem textsFrom_of_unbound (h : ∀ part ∈ parts, part.bindings = []) (n : Nat) :
    textsFrom style n parts = parts.map fun part => (part.write style).toList := by
  have hall : textsFrom style n (parts ++ []) =
      parts.map (charsFrom style n) ++ textsFrom style n [] := textsFrom_append h n
  rw [List.append_nil, textsFrom, List.append_nil] at hall
  rw [hall]
  exact List.map_congr_left fun part hm => charsFrom_of_bindings_nil (h part hm) n

/-- Joined parts are their texts with the separator between them. -/
theorem charsFrom_joined (separator : String) (n : Nat) :
    charsFrom style n (joined separator parts) =
      List.intercalate separator.toList (textsFrom style n parts) := by
  induction parts generalizing n with
  | nil => rfl
  | cons part rest ih =>
    cases rest with
    | nil => exact (List.intercalate_singleton ..).symm
    | cons next rest =>
      have hjoined : joined separator (part :: next :: rest) =
          part ++ .text separator :: joined separator (next :: rest) := rfl
      rw [hjoined, charsFrom_between, ih, textsFrom, textsFrom, textsFrom,
        List.intercalate_cons_cons, List.append_assoc]

theorem bindings_joined (separator : String) :
    (joined separator parts).bindings = parts.flatMap bindings := by
  induction parts with
  | nil => rfl
  | cons part rest ih =>
    cases rest with
    | nil => exact (List.flatMap_singleton ..).symm
    | cons next rest =>
      have hjoined : joined separator (part :: next :: rest) =
          part ++ .text separator :: joined separator (next :: rest) := rfl
      rw [hjoined, bindings_between, ih]
      rfl

/-- Parts that each end a line. -/
def lines (parts : List Sql) : Sql := parts.flatMap (· ++ [.text "\n"])

theorem charsFrom_lines (n : Nat) :
    charsFrom style n (lines parts) = Text.lines (textsFrom style n parts) := by
  induction parts generalizing n with
  | nil => rfl
  | cons part rest ih =>
    rw [lines, List.flatMap_cons, List.append_assoc, List.singleton_append, charsFrom_between]
    rw [lines] at ih
    rw [ih, textsFrom, Text.lines, Text.lines, List.flatMap_cons, List.append_assoc]
    rfl

/-- Lines with another line behind them. -/
theorem joined_append (h : after ≠ []) :
    joined "\n" (before ++ after) = lines before ++ joined "\n" after := by
  induction before with
  | nil => rfl
  | cons part rest ih =>
    obtain ⟨next, others, hrest⟩ := List.exists_cons_of_ne_nil
      (List.append_ne_nil_of_right_ne_nil rest h)
    rw [lines, List.flatMap_cons, List.append_assoc, List.append_assoc, List.singleton_append,
      ← lines, ← ih, List.cons_append, hrest, joined]
    exact List.cons_ne_nil _ _

end Sql

/-! ## The lines of a batch -/

namespace Dialect

/-- The lines in front of the fragments, which declare variables of these names. -/
def batchHeader (d : Dialect) (names : List String) : List String :=
  match d with
  | .sqlServer =>
    ["SET XACT_ABORT ON;", "BEGIN TRANSACTION;"] ++
      names.map fun name => "DECLARE " ++ name ++ " BIGINT;"
  | .oracle =>
    (if names = [] then [] else "DECLARE" :: names.map fun name => "  " ++ name ++ " NUMBER;") ++
      ["BEGIN"]

/-- The line of a fragment. -/
def batchLine (d : Dialect) (fragment : List Char) : List Char :=
  match d with
  | .sqlServer => fragment ++ ";".toList
  | .oracle => "  ".toList ++ fragment ++ ";".toList

/-- The line behind the fragments. -/
def commitLine : Dialect → String
  | .sqlServer => "COMMIT TRANSACTION;"
  | .oracle => "  COMMIT;"

/-- The header as it is put together. -/
def headerLines (d : Dialect) (names : List String) : List Sql :=
  match d with
  | .sqlServer =>
    [[.text "SET XACT_ABORT ON;"], [.text "BEGIN TRANSACTION;"]] ++
      names.map fun name => [.text "DECLARE ", .variable name, .text " BIGINT;"]
  | .oracle =>
    (if names = [] then []
     else
      [.text "DECLARE"] :: names.map fun name => [.text "  ", .variable name, .text " NUMBER;"]) ++
      [[.text "BEGIN"]]

/-- The line of a fragment as it is put together. -/
def fragmentLine (d : Dialect) (fragment : Sql) : Sql :=
  match d with
  | .sqlServer => fragment ++ [.text ";"]
  | .oracle => .text "  " :: fragment ++ [.text ";"]

/-- The lines behind the commit, which hand out the variables. -/
def closingLines (d : Dialect) (keyVariables : List BatchVariable) : List Sql :=
  match d with
  | .sqlServer =>
    if keyVariables.isEmpty then []
    else
      [.text "SELECT " ::
        Sql.list (keyVariables.map fun v => [.variable v.name, .text s!" AS {bareName v.name}"]) ++
        [.text ";"]]
  | .oracle =>
    keyVariables.filterMap (fun v =>
      v.output.map fun output =>
        .text "  " :: output ++ [.text " := ", .variable v.name, .text ";"]) ++
      [[.text "END;"]]

variable {d : Dialect} {style : Style}

theorem batchLines_eq (parts : BatchParts) :
    d.batchLines parts =
      d.headerLines (parts.keyVariables.map BatchVariable.name) ++
        parts.fragments.map d.fragmentLine ++
          [.text d.commitLine] :: d.closingLines parts.keyVariables := by
  cases d with
  | sqlServer =>
    rw [batchLines, headerLines, List.map_map, List.append_assoc]
    rfl
  | oracle =>
    have hnames : parts.keyVariables.map BatchVariable.name = [] ↔
        parts.keyVariables.isEmpty = true := by
      rw [List.map_eq_nil_iff, List.isEmpty_iff]
    simp only [batchLines, headerLines, commitLine, closingLines, hnames, List.map_map,
      List.append_assoc, List.singleton_append, Function.comp_def]
    rfl

/-- **A batch is its header, its fragments and the commit**, with something behind it. -/
theorem exists_batch (parts : BatchParts) :
    ∃ rest, d.batch parts =
      Sql.lines (d.headerLines (parts.keyVariables.map BatchVariable.name) ++
        parts.fragments.map d.fragmentLine) ++ .text d.commitLine :: rest := by
  rw [batch, batchLines_eq, Sql.joined_append (List.cons_ne_nil _ _)]
  cases d.closingLines parts.keyVariables with
  | nil => exact ⟨[], rfl⟩
  | cons next rest => exact ⟨_, rfl⟩

/-! ## The lines as text -/

theorem bindings_headerLines (names : List String) :
    ∀ line ∈ d.headerLines names, Sql.bindings line = [] := by
  have hdeclare : ∀ opening closing : String, ∀ line ∈ names.map fun name =>
      ([.text opening, .variable name, .text closing] : Sql), Sql.bindings line = [] :=
    fun _ _ => List.forall_mem_map.2 fun _ _ => rfl
  cases d with
  | sqlServer => exact List.forall_mem_append.2 ⟨by decide, hdeclare _ _⟩
  | oracle =>
    refine List.forall_mem_append.2 ⟨?_, by decide⟩
    split
    · exact List.forall_mem_nil _
    · exact List.forall_mem_cons.2 ⟨rfl, hdeclare _ _⟩

/-- A line that declares a variable. -/
theorem charsFrom_declaration (opening name closing : String) (n : Nat) :
    Sql.charsFrom style n [.text opening, .variable name, .text closing] =
      (opening ++ name ++ closing).toList := by
  rw [String.toList_append, String.toList_append, List.append_assoc]
  show opening.toList ++ (name.toList ++ (closing.toList ++ [])) = _
  rw [List.append_nil]

theorem charsFrom_wording (s : String) (n : Nat) :
    Sql.charsFrom style n [.text s] = s.toList := List.append_nil _

theorem charsFrom_headerLines (names : List String) (n : Nat) :
    (d.headerLines names).map (Sql.charsFrom style n) =
      (d.batchHeader names).map String.toList := by
  cases d with
  | sqlServer =>
    simp only [headerLines, batchHeader, List.map_append, List.map_cons, List.map_nil,
      List.map_map, Function.comp_def, charsFrom_wording, charsFrom_declaration]
  | oracle =>
    rw [headerLines, batchHeader]
    split
    · simp only [List.nil_append, List.map_cons, List.map_nil, charsFrom_wording]
    · simp only [List.map_append, List.map_cons, List.map_nil,
        List.map_map, Function.comp_def, charsFrom_wording, charsFrom_declaration]

theorem bindings_fragmentLine (fragment : Sql) :
    Sql.bindings (d.fragmentLine fragment) = fragment.bindings := by
  cases d with
  | sqlServer => exact (Sql.bindings_append _ _).trans (List.append_nil _)
  | oracle => exact Sql.bindings_wrapped _ _ _

theorem charsFrom_fragmentLine (fragment : Sql) (n : Nat) :
    Sql.charsFrom style n (d.fragmentLine fragment) =
      d.batchLine (Sql.charsFrom style n fragment) := by
  cases d with
  | sqlServer => rw [fragmentLine, Sql.charsFrom_append, charsFrom_wording, batchLine]
  | oracle => rw [fragmentLine, Sql.charsFrom_wrapped, batchLine, List.append_assoc]

theorem textsFrom_fragmentLines (fragments : List Sql) (n : Nat) :
    Sql.textsFrom style n (fragments.map d.fragmentLine) =
      (Sql.textsFrom style n fragments).map d.batchLine := by
  induction fragments generalizing n with
  | nil => rfl
  | cons fragment rest ih =>
    rw [List.map_cons, Sql.textsFrom, charsFrom_fragmentLine, bindings_fragmentLine, ih]
    rfl

/-- The text in front of the commit: the header, and a line for each fragment. -/
theorem charsFrom_batchLines (names : List String) (fragments : List Sql) (n : Nat) :
    Sql.charsFrom style n
        (Sql.lines (d.headerLines names ++ fragments.map d.fragmentLine)) =
      Text.lines ((d.batchHeader names).map String.toList ++
        (Sql.textsFrom style n fragments).map d.batchLine) := by
  rw [Sql.charsFrom_lines, Sql.textsFrom_append (bindings_headerLines names),
    charsFrom_headerLines, textsFrom_fragmentLines]

end Dialect

/-! ## Finishing -/

namespace Sql

variable {s : String}

/-- A text begins with that of its first part and the wording behind it. -/
theorem charsFrom_begins (style : Style) (n : Nat) (before : Sql) (s : String) (rest : Sql) :
    charsFrom style n before ++ s.toList <+: charsFrom style n (before ++ .text s :: rest) := by
  rw [charsFrom_between, ← List.append_assoc]
  exact List.prefix_append _ _

/-- Semicolons that are dropped do not stand in front of wording that stays. One that ends this
wording is put back by what follows. -/
theorem charsFrom_withoutSemicolons_begins (style : Style) (n : Nat) (before rest : Sql)
    {kept closing : String} (hs : dropSemicolons s = kept) (hne : kept ≠ "")
    (hkept : s.toList = kept.toList ++ [';']) (hc : [';'] <+: closing.toList) :
    charsFrom style n before ++ s.toList <+:
      charsFrom style n ((before ++ .text s :: rest).withoutSemicolons ++ [.text closing]) := by
  have hsplit : before ++ .text s :: rest = (before ++ [.text s]) ++ rest := by
    rw [List.append_assoc, List.singleton_append]
  rw [hsplit, withoutSemicolons_append]
  split
  · rw [withoutSemicolons_text, hs, if_neg hne, List.append_assoc, List.singleton_append,
      charsFrom_between, Dialect.charsFrom_wording, hkept]
    exact (List.prefix_append_right_inj _).2 ((List.prefix_append_right_inj _).2 hc)
  · rw [List.append_assoc, List.append_assoc]
    exact charsFrom_begins _ _ _ _ _

end Sql

namespace Builder

variable {b : Builder} {before rest : Sql} {s : Statement}

/-- **Finishing a batch keeps all that stands in front of its commit.** -/
theorem text_finish (h : b.finish (before ++ .text b.dialect.commitLine :: rest) = .ok s) :
    ∃ opening after,
      s.text.toList = opening ++
        (Sql.charsFrom b.style 0 before ++ b.dialect.commitLine.toList ++ after) ∧
      (opening = [] ∨ ∃ keys, b.config.encryption = some keys ∧
        opening = (Dialect.keyOpening keys).toList) := by
  rcases finish_cases h with ⟨_, rfl⟩ | ⟨_, hd, keys, hkeys, rfl⟩
  · obtain ⟨after, hafter⟩ := Sql.charsFrom_begins b.style 0 before b.dialect.commitLine rest
    refine ⟨[], after, ?_, .inl rfl⟩
    rw [Statement.text, Sql.write, String.toList_ofList, List.nil_append, hafter]
  · have hclosing : [';'] <+: (Dialect.keyClosing keys).toList := by
      show [';'] <+: (";\nCLOSE SYMMETRIC KEY " ++ _ ++ ";").toList
      rw [String.toList_append, String.toList_append, List.append_assoc]
      exact List.IsPrefix.trans (by decide : [';'] <+: ";\nCLOSE SYMMETRIC KEY ".toList)
        (List.prefix_append _ _)
    have hcommit : Sql.dropSemicolons (Dialect.commitLine .sqlServer) = "COMMIT TRANSACTION" := by
      decide
    obtain ⟨after, hafter⟩ := Sql.charsFrom_withoutSemicolons_begins b.style 0 before rest
      hcommit (by decide) (by decide) hclosing
    refine ⟨_, after, ?_, .inr ⟨keys, hkeys, rfl⟩⟩
    rw [hd, hafter, Statement.text, Sql.write, String.toList_ofList]
    exact Sql.charsFrom_of_binding?_none rfl 0

end Builder

end RecordSql
