import RecordSql.Proofs.Placeholders
import RecordSql.Proofs.TextSearch
import RecordSql.Proofs.Words

/-!
# Variables in the words of a step

A batch keeps keys in variables. Which variables a text mentions, and which it assigns, is read off
its words: a variable is a word of its own spelling, and it is assigned where the word in front of
it is the one that the dialect assigns with.

That word is also one of the words of an insert or of an update, so what matters is what may follow
it. A list of words is **loose** when it has no such word in it, and **guarded** when no variable
follows such a word, whatever stands in front of the list. Values are loose; names, assignments and
conditions are guarded. A step is put together from these, and assigns nothing, unless it is an
insert that keeps its key.
-/

namespace RecordSql

open Checked Text

/-! ## Variables in a text -/

namespace Dialect

/-- What the names of variables start with. -/
def variableMark : Dialect → String
  | .sqlServer => "@id"
  | .oracle => "v_id"

/-- Whether a word is spelled like a variable: the mark and a number. -/
def isVariable (d : Dialect) (w : String) : Bool :=
  match after? d.variableMark.toList w.toList with
  | some digits => !digits.isEmpty && digits.all Char.isDigit
  | none => false

/-- The word in front of a variable that is assigned. -/
def assignWord : Dialect → String
  | .sqlServer => "SET"
  | .oracle => "INTO"

/-- The variables that a list of words mentions. -/
def mentioned (d : Dialect) (ws : List String) : List String := ws.filter d.isVariable

/-- The variables that a list of words assigns. -/
def assigned (d : Dialect) : List String → List String
  | w :: v :: rest =>
    if w = d.assignWord ∧ d.isVariable v = true then v :: assigned d (v :: rest)
    else assigned d (v :: rest)
  | _ => []

variable {d : Dialect} {w : String} {us ws : List String}

theorem isVariable_iff :
    d.isVariable w = true ↔
      ∃ digits, w.toList = d.variableMark.toList ++ digits ∧ digits ≠ [] ∧
        ∀ c ∈ digits, c.isDigit = true := by
  unfold isVariable
  cases h : after? d.variableMark.toList w.toList with
  | none =>
    refine iff_of_false Bool.false_ne_true ?_
    rintro ⟨digits, hw, _⟩
    exact after?_eq_none.1 h ⟨digits, hw.symm⟩
  | some digits =>
    have hw := after?_eq_some.1 h
    rw [Bool.and_eq_true, Bool.not_eq_true', List.isEmpty_eq_false_iff, List.all_eq_true]
    constructor
    · intro hdigits
      exact ⟨digits, hw, hdigits⟩
    · rintro ⟨digits', hw', hdigits⟩
      obtain rfl := List.append_cancel_left (hw.symm.trans hw')
      exact hdigits

theorem batchVariable_toList (d : Dialect) (k : Nat) :
    (d.batchVariable k).toList = d.variableMark.toList ++ Nat.toDigits 10 k := by
  have hnumber : (toString k).toList = Nat.toDigits 10 k := by
    rw [Nat.toString_eq_repr, Nat.toList_repr]
  cases d with
  | sqlServer =>
    show ("@id" ++ toString k).toList = _
    rw [String.toList_append, hnumber]
    rfl
  | oracle =>
    show ("v_id" ++ toString k).toList = _
    rw [String.toList_append, hnumber]
    rfl

theorem isVariable_batchVariable (d : Dialect) (k : Nat) :
    d.isVariable (d.batchVariable k) = true :=
  isVariable_iff.2 ⟨_, d.batchVariable_toList k, Nat.toDigits_ne_nil, fun _ hc =>
    Nat.isDigit_of_mem_toDigits (by decide) (by decide) hc⟩

/-- Different numbers give different variables. -/
theorem batchVariable_injective (d : Dialect) : Function.Injective d.batchVariable := by
  intro j k h
  have hlist := congrArg String.toList h
  rw [batchVariable_toList, batchVariable_toList] at hlist
  have hread := congrArg (fun digits => Nat.ofDigitChars 10 digits 0)
    (List.append_cancel_left hlist)
  rwa [Nat.ofDigitChars_ten_toDigits, Nat.ofDigitChars_ten_toDigits] at hread

/-- A word that does not start like a variable is none. -/
theorem not_isVariable (h : ¬ d.variableMark.toList <+: w.toList) : ¬ d.isVariable w = true := by
  intro hv
  obtain ⟨digits, hw, _⟩ := isVariable_iff.1 hv
  exact h ⟨digits, hw.symm⟩

theorem not_isVariable_assignWord (d : Dialect) : ¬ d.isVariable d.assignWord = true := by
  cases d with
  | sqlServer => decide
  | oracle => decide

/-! ## Words that assign nothing -/

/-- Words none of which assigns, and of whose variables all are allowed. -/
def Loose (d : Dialect) (allowed : String → Prop) (ws : List String) : Prop :=
  ∀ w ∈ ws, w ≠ d.assignWord ∧ (d.isVariable w = true → allowed w)

/-- Words that assign nothing, whatever stands in front of them. -/
structure Guarded (d : Dialect) (allowed : String → Prop) (ws : List String) : Prop where
  /-- Every variable is allowed. -/
  allows : ∀ w ∈ ws, d.isVariable w = true → allowed w
  /-- No variable comes right behind the word that assigns. -/
  apart : ws.IsChain fun w v => d.isVariable v = true → w ≠ d.assignWord
  /-- No variable comes first. -/
  head : ∀ w ∈ ws.head?, ¬ d.isVariable w = true

variable {allowed : String → Prop}

theorem Loose.append (hu : d.Loose allowed us) (hw : d.Loose allowed ws) :
    d.Loose allowed (us ++ ws) := by
  intro w hm
  rcases List.mem_append.1 hm with hm | hm
  · exact hu w hm
  · exact hw w hm

/-- Words without variables. -/
theorem Guarded.of_none (h : ∀ w ∈ ws, ¬ d.isVariable w = true) : d.Guarded allowed ws where
  allows w hm hv := absurd hv (h w hm)
  apart := (List.pairwise_of_forall_mem_list fun _ _ v hm hv => absurd hv (h v hm)).isChain
  head w hm := h w (List.mem_of_mem_head? hm)

theorem Guarded.append (hu : d.Guarded allowed us) (hw : d.Guarded allowed ws) :
    d.Guarded allowed (us ++ ws) where
  allows w hm hv := by
    rcases List.mem_append.1 hm with hm | hm
    · exact hu.allows w hm hv
    · exact hw.allows w hm hv
  apart := List.isChain_append.2
    ⟨hu.apart, hw.apart, fun _ _ v hv hvar => absurd hvar (hw.head v hv)⟩
  head w hm := by
    rw [List.head?_append] at hm
    rcases Option.or_eq_some_iff.1 hm with hm | ⟨_, hm⟩
    · exact hu.head w hm
    · exact hw.head w hm

/-- A word that is no variable, and does not assign, guards what follows it. -/
theorem Guarded.cons (hv : ¬ d.isVariable w = true) (ha : w ≠ d.assignWord)
    (hw : d.Loose allowed ws) : d.Guarded allowed (w :: ws) where
  allows v hm hvar := by
    rcases List.mem_cons.1 hm with rfl | hm
    · exact absurd hvar hv
    · exact (hw v hm).2 hvar
  apart := by
    have hassign : ∀ u ∈ w :: ws, u ≠ d.assignWord :=
      List.forall_mem_cons.2 ⟨ha, fun u hm => (hw u hm).1⟩
    exact (List.pairwise_of_forall_mem_list (r := fun u v => d.isVariable v = true → _)
      fun u hu _ _ _ => hassign u hu).isChain
  head v hm := by
    obtain rfl : w = v := Option.some.inj hm
    exact hv

/-- A word that is not followed by a variable assigns nothing. -/
theorem assigned_cons {v : String} (h : d.isVariable v = true → w ≠ d.assignWord) :
    d.assigned (w :: v :: ws) = d.assigned (v :: ws) := by
  rw [assigned, if_neg]
  rintro ⟨ha, hv⟩
  exact h hv ha

/-- Behind guarded words only what follows them is assigned. -/
theorem assigned_append (hu : us.IsChain fun w v => d.isVariable v = true → w ≠ d.assignWord)
    (hw : ¬ d.isVariable w = true) : d.assigned (us ++ w :: ws) = d.assigned (w :: ws) := by
  induction us with
  | nil => rfl
  | cons u us ih =>
    have hrest := ih hu.tail
    cases us with
    | nil => exact assigned_cons fun hv => absurd hv hw
    | cons v us =>
      rw [← hrest]
      exact assigned_cons (List.isChain_cons_cons.1 hu).1

theorem Guarded.assigned (h : d.Guarded allowed ws) : d.assigned ws = [] := by
  have hchain := h.apart
  clear h
  induction ws with
  | nil => rfl
  | cons w ws ih =>
    cases ws with
    | nil => rfl
    | cons v ws =>
      rw [assigned_cons (List.isChain_cons_cons.1 hchain).1]
      exact ih hchain.tail

/-- Words that assign one variable, and mention no others than the allowed ones. -/
structure Keeps (d : Dialect) (allowed : String → Prop) (v : String) (ws : List String) : Prop where
  assigns : d.assigned ws = [v]
  allows : ∀ w ∈ ws, d.isVariable w = true → w = v ∨ allowed w

/-- The word that assigns, and a variable, between guarded words. -/
theorem Guarded.keeps {v : String} (hu : d.Guarded allowed us) (hv : d.isVariable v = true)
    (hw : d.Guarded allowed ws) : d.Keeps allowed v (us ++ d.assignWord :: v :: ws) where
  assigns := by
    have hne : v ≠ d.assignWord := by
      rintro rfl
      exact d.not_isVariable_assignWord hv
    have hrest : d.assigned (v :: ws) = [] := by
      cases ws with
      | nil => rfl
      | cons w ws =>
        rw [assigned_cons fun _ => hne]
        exact hw.assigned
    have hassign : d.assigned (d.assignWord :: v :: ws) = v :: d.assigned (v :: ws) :=
      if_pos ⟨rfl, hv⟩
    rw [assigned_append hu.apart d.not_isVariable_assignWord, hassign, hrest]
  allows w hm hvar := by
    rcases List.mem_append.1 hm with hm | hm
    · exact .inr (hu.allows w hm hvar)
    rcases List.mem_cons.1 hm with rfl | hm
    · exact absurd hvar d.not_isVariable_assignWord
    rcases List.mem_cons.1 hm with rfl | hm
    · exact .inl rfl
    · exact .inr (hw.allows w hm hvar)

/-- The variable that is inserted is mentioned only, the one that is set is assigned. -/
example :
    sqlServer.assigned
      (Text.words "VALUES (@id0); SET @id1 = SCOPE_IDENTITY()".toList) =
        ["@id1"] := by
  decide

/-! ## Wording -/

/-- Both dialects: what is said about wording holds in each of them. -/
def both : List Dialect := [.sqlServer, .oracle]

theorem mem_both (d : Dialect) : d ∈ both := by
  cases d with
  | sqlServer => exact List.mem_cons_self
  | oracle => exact List.mem_cons_of_mem _ List.mem_cons_self

/-- Words of which none is a variable. -/
theorem guarded_of_all (h : ∀ w ∈ ws, ∀ d ∈ both, d.isVariable w = false) :
    d.Guarded allowed ws := by
  refine .of_none fun w hm => ?_
  rw [h w hm d d.mem_both]
  exact Bool.false_ne_true

/-- Words of which none is a variable and none assigns. -/
theorem loose_of_all (h : ∀ w ∈ ws, ∀ d ∈ both, w ≠ d.assignWord ∧ d.isVariable w = false) :
    d.Loose allowed ws := by
  intro w hm
  obtain ⟨ha, hv⟩ := h w hm d d.mem_both
  refine ⟨ha, fun hvar => ?_⟩
  rw [hv] at hvar
  exact absurd hvar Bool.false_ne_true

end Dialect

/-! ## Names are no variables -/

/-- No table or column of the entity is spelled like a variable. -/
def Entity.AvoidsVariables (d : Dialect) (e : Entity) : Prop :=
  ¬ d.isVariable e.table = true ∧ ∀ f ∈ e.fields, ¬ d.isVariable f.columnName = true

/-- The variables of SQL Server start with a mark that no name has. -/
theorem Entity.avoidsVariables_sqlServer {e : Entity} (he : e.check = .ok ()) :
    e.AvoidsVariables .sqlServer := by
  have hname : ∀ {name}, Identifier.check name = .ok () →
      ¬ Dialect.sqlServer.isVariable name = true := by
    intro name hc
    refine Dialect.not_isVariable ?_
    rintro ⟨rest, hrest⟩
    refine (plain_of_check hc).unmarked.1 ?_
    rw [← hrest]
    exact List.mem_append_left _ (by decide)
  obtain ⟨_, htable, _, hfields, _⟩ := check_eq_ok.1 he
  refine ⟨?_, fun f hf => hname (checkField_eq_ok.1 (hfields f hf)).2.1⟩
  intro hv
  -- a variable has no point in it, so the table would be a single name
  obtain ⟨digits, hdigits, _, hdigit⟩ := Dialect.isVariable_iff.1 hv
  have hpoint : '.' ∉ e.table.toList := by
    rw [hdigits, List.mem_append, not_or]
    refine ⟨by decide, fun hm => ?_⟩
    exact absurd (hdigit _ hm) (by decide)
  have hparts : Identifier.tableParts e.table = [e.table] := by
    rw [Identifier.tableParts, pieces_of_not_mem hpoint, List.map_singleton, String.ofList_toList]
  have hcheck := (Identifier.requireTable_eq_ok.1 htable).2
  rw [hparts] at hcheck
  exact hname (hcheck _ (List.mem_singleton.2 rfl)) hv

namespace Style

variable {style : Style} {name : String}

theorem unbroken_of_isAllowed {c : Char} (h : Identifier.isAllowed c = true) :
    isBreak c = false ∧ c ≠ '\'' := by
  have hbreaks : [' ', '\n', '(', ')', ',', ';', '='].all fun c => !Identifier.isAllowed c := by
    decide
  constructor
  · by_contra hb
    have hm := List.contains_iff_mem.1 (eq_true_of_ne_false hb)
    have hnot := List.all_eq_true.1 hbreaks c hm
    rw [h] at hnot
    exact Bool.false_ne_true hnot
  · rintro rfl
    exact absurd h (by decide)

theorem unbroken_of_isDigit {c : Char} (h : c.isDigit = true) : isBreak c = false ∧ c ≠ '\'' :=
  unbroken_of_isAllowed (by simp [Identifier.isAllowed, Char.isAlphanum, h])

/-- A name is one word, in quotes or not. -/
theorem unbroken_identifier (h : Identifier.check name = .ok ()) :
    Unbroken (style.identifier name).toList := by
  obtain ⟨hne, _, hallowed, _⟩ := Identifier.check_eq_ok.1 h
  unfold identifier
  split
  · unfold quoteIdentifier
    rw [String.toList_ofList]
    refine ⟨by simp [between], fun c hc => ?_⟩
    have hquotes : ∀ d : Dialect, (isBreak d.quotes.1 = false ∧ d.quotes.1 ≠ '\'') ∧
        isBreak d.quotes.2 = false ∧ d.quotes.2 ≠ '\'' := by
      intro d
      cases d with
      | sqlServer => decide
      | oracle => decide
    rcases mem_between hc with rfl | hm | rfl
    · exact (hquotes _).1
    · exact unbroken_of_isAllowed (hallowed c hm)
    · exact (hquotes _).2
  · exact ⟨fun he => hne (String.toList_eq_nil_iff.1 he), fun c hc =>
      unbroken_of_isAllowed (hallowed c hc)⟩

/-- The alias of a table is one word. -/
theorem unbroken_alias (table : TableAlias) : Unbroken table.text.toList := by
  cases table with
  | root => decide
  | join index =>
    have htext : (TableAlias.join index).text = "j" ++ toString index := rfl
    have hletter : Unbroken "j".toList := by decide
    rw [htext, String.toList_append, Nat.toString_eq_repr, Nat.toList_repr]
    exact hletter.append fun c hc =>
      unbroken_of_isDigit (Nat.isDigit_of_mem_toDigits (by decide) (by decide) hc)

/-- A column with its table is one word. -/
theorem unbroken_qualified {table : TableAlias} (h : Identifier.check name = .ok ()) :
    Unbroken (style.qualified table name).toList := by
  have hpoint : Unbroken ".".toList := by decide
  rw [qualified, String.toList_append, String.toList_append]
  exact ((unbroken_alias table).append hpoint.2).append (unbroken_identifier h).2

/-- It starts with the alias of the table. -/
theorem head_qualified : 't' ∈ (style.qualified .root name).toList.head? := by
  rw [qualified, String.toList_append, String.toList_append]
  rfl

theorem not_isVariable_identifier (style : Style) (h : ¬ style.dialect.isVariable name = true) :
    ¬ style.dialect.isVariable (style.identifier name) = true := by
  unfold identifier
  split
  · refine Dialect.not_isVariable ?_
    unfold quoteIdentifier between
    rw [String.toList_ofList]
    cases style.dialect with
    | sqlServer => simp [Dialect.variableMark, Dialect.quotes]
    | oracle => simp [Dialect.variableMark, Dialect.quotes]
  · exact h

end Style

/-! ## The words of the parts of a step -/

namespace Builder

variable {b : Builder} {e : Entity} {allowed : String → Prop} {sql : Sql}

/-- A part of a step whose words assign nothing. -/
abbrev GuardedSql (b : Builder) (allowed : String → Prop) (sql : Sql) : Prop :=
  sql.Worded b.style (b.dialect.Guarded allowed)

/-- A part of a step whose words may stand anywhere but behind the word that assigns. -/
abbrev LooseSql (b : Builder) (allowed : String → Prop) (sql : Sql) : Prop :=
  sql.Worded b.style (b.dialect.Loose allowed)

theorem guarded_list {parts : List Sql} (h : ∀ part ∈ parts, b.GuardedSql allowed part) :
    b.GuardedSql allowed (Sql.list parts) :=
  .joined (by decide) (by decide) (.of_none (by simp)) (fun _ _ => .append) h

theorem loose_list {parts : List Sql} (h : ∀ part ∈ parts, b.LooseSql allowed part) :
    b.LooseSql allowed (Sql.list parts) :=
  .joined (by decide) (by decide) (fun _ h => absurd h (by simp)) (fun _ _ => .append) h

theorem guarded_name {name : String} (hc : Identifier.check name = .ok ())
    (hv : ¬ b.dialect.isVariable name = true) : b.GuardedSql allowed [.name name] :=
  .single (fun _ => Style.unbroken_identifier hc) fun _ =>
    .of_none (List.forall_mem_singleton.2 (b.style.not_isVariable_identifier hv))

/-- A column with its table, and what it is compared with or set to. -/
theorem guarded_equation {c : String} (hc : Identifier.check c = .ok ()) {p : Piece}
    (hp : ∀ n, p.write b.style n = b.style.qualified .root c) {value : Sql}
    (hv : b.LooseSql allowed value) : b.GuardedSql allowed ([p, .text " = "] ++ value) := by
  have hword : Sql.Worded b.style (· = [b.style.qualified .root c]) [p] :=
    .single (fun n => hp n ▸ Style.unbroken_qualified hc) fun n => congrArg (fun w => [w]) (hp n)
  have hhead : ∀ w : String, w.toList.head? ≠ some 't' → b.style.qualified .root c ≠ w := by
    rintro w hw rfl
    exact hw (Style.head_qualified)
  refine hword.between (by decide) hv fun us ws hu hws => ?_
  subst hu
  refine .cons ?_ ?_ hws
  · intro hvar
    obtain ⟨digits, hdigits, _⟩ := Dialect.isVariable_iff.1 hvar
    refine hhead _ ?_ rfl
    rw [hdigits]
    cases b.dialect with
    | sqlServer => simp [Dialect.variableMark]
    | oracle => simp [Dialect.variableMark]
  · refine hhead _ ?_
    cases b.dialect with
    | sqlServer => simp [Dialect.assignWord]
    | oracle => simp [Dialect.assignWord]

theorem unbroken_batchVariable (d : Dialect) (k : Nat) : Unbroken (d.batchVariable k).toList := by
  have hmark : Unbroken d.variableMark.toList := by
    cases d with
    | sqlServer => decide
    | oracle => decide
  rw [Dialect.batchVariable_toList]
  exact hmark.append fun c hc =>
    Style.unbroken_of_isDigit (Nat.isDigit_of_mem_toDigits (by decide) (by decide) hc)

theorem loose_variable {k : Nat} (h : allowed (b.dialect.batchVariable k)) :
    b.LooseSql allowed [.variable (b.dialect.batchVariable k)] := by
  refine .single (fun _ => unbroken_batchVariable b.dialect k) fun _ => ?_
  refine List.forall_mem_singleton.2 ⟨?_, fun _ => h⟩
  intro ha
  refine b.dialect.not_isVariable_assignWord ?_
  rw [← ha]
  exact b.dialect.isVariable_batchVariable k

/-- A placeholder is a word of another spelling. -/
theorem loose_bind (x : Binding) : b.LooseSql allowed [.bind x] := by
  have hchars : ∀ n, (b.dialect.placeholder (parameterName n)).toList =
      [b.dialect.mark, 'p'] ++ Nat.toDigits 10 n := b.dialect.toList_placeholder
  refine .single (fun n => ?_) fun n => List.forall_mem_singleton.2 ⟨?_, fun hv => ?_⟩
  · have hmark : Unbroken [b.dialect.mark, 'p'] := by
      cases b.dialect with
      | sqlServer => decide
      | oracle => decide
    rw [show (Piece.bind x).write b.style n = b.dialect.placeholder (parameterName n) from rfl,
      hchars]
    exact hmark.append fun c hc =>
      Style.unbroken_of_isDigit (Nat.isDigit_of_mem_toDigits (by decide) (by decide) hc)
  · intro ha
    have hlist := (hchars n).symm.trans (congrArg String.toList ha)
    revert hlist
    cases b.dialect with
    | sqlServer => simp [Dialect.mark, Dialect.assignWord]
    | oracle => simp [Dialect.mark, Dialect.assignWord]
  · obtain ⟨digits, hdigits, _⟩ := Dialect.isVariable_iff.1 hv
    have hlist := (hchars n).symm.trans hdigits
    revert hlist
    cases b.dialect with
    | sqlServer => simp [Dialect.mark, Dialect.variableMark]
    | oracle => simp [Dialect.mark, Dialect.variableMark]

theorem loose_currentTime (type : DataType) :
    b.LooseSql allowed [.text (b.dialect.currentTime type)] := by
  have hwords : ∀ d : Dialect, Closed (d.currentTime type).toList ∧
      ∀ w ∈ words (d.currentTime type).toList, ∀ d ∈ Dialect.both,
        w ≠ d.assignWord ∧ d.isVariable w = false := by
    intro d
    cases d with
    | sqlServer => cases type <;> decide
    | oracle => cases type <;> decide
  exact .text (hwords _).1 (Dialect.loose_of_all (hwords _).2)

/-- The name of the key stands in a literal, so it does not matter what it is. -/
theorem words_encryptOpening (keys : EncryptionKeys) :
    Closed (Dialect.encryptOpening keys).toList ∧
      endsApart (Dialect.encryptOpening keys).toList = true ∧
      words (Dialect.encryptOpening keys).toList =
        ["ENCRYPTBYKEY", "KEY_GUID", "CONVERT", "NVARCHAR", "MAX"] := by
  obtain ⟨hclosed, hwords⟩ := words_quoteLiteral keys.keyName
  have hchars : (Dialect.encryptOpening keys).toList = "ENCRYPTBYKEY(KEY_GUID(".toList ++
      ((quoteLiteral keys.keyName).toList ++ "), CONVERT(NVARCHAR(MAX), ".toList) := by
    show ("ENCRYPTBYKEY(KEY_GUID(" ++ quoteLiteral keys.keyName ++
      "), CONVERT(NVARCHAR(MAX), ").toList = _
    rw [String.toList_append, String.toList_append, List.append_assoc]
  rw [hchars, words_append_endsApart (by decide) (by decide),
    words_append_startsApart hclosed (by decide), hwords]
  exact ⟨.append (by decide) (hclosed.append (by decide)),
    endsApart_append (endsApart_append (by decide)), by decide⟩

theorem loose_valueExpression {f : Field} {value : Json}
    (h : b.valueExpression e f value = .ok sql) : b.LooseSql allowed sql := by
  rcases valueExpression_eq_ok.1 h with ⟨_, rfl⟩ | ⟨_, typed, _, ⟨_, keys, hk, hc⟩ | ⟨_, rfl⟩⟩
  · exact loose_currentTime _
  · obtain ⟨hd, _⟩ := keysFor_eq_ok.1 hk
    rw [hd] at hc
    obtain rfl := Except.ok.inj hc
    obtain ⟨hclosed, hends, hwords⟩ := words_encryptOpening keys
    have hvalue : b.LooseSql allowed
        ([.bind (.input typed f.dataType)] ++ [.text Dialect.encryptionClosing]) :=
      (loose_bind _).before (by decide) (by decide) fun ws hws =>
        hws.append (Dialect.loose_of_all (by decide))
    refine .after (s := Dialect.encryptOpening keys) rfl (fun _ => rfl) hclosed hends hvalue
      fun ws hws => .append (Dialect.loose_of_all ?_) hws
    rw [hwords]
    decide
  · exact loose_bind _

/-- The text of a table name: its parts with points between them. -/
theorem charsFrom_table (style : Style) (name : String) (n : Nat) :
    Sql.charsFrom style n (Sql.table name) =
      List.intercalate ['.']
        ((Identifier.tableParts name).map fun part => (style.identifier part).toList) := by
  rw [Sql.table]
  induction Identifier.tableParts name with
  | nil => rfl
  | cons part rest ih =>
    cases rest with
    | nil =>
      rw [List.map_singleton, List.map_singleton, List.intercalate_singleton]
      exact List.append_nil _
    | cons next rest =>
      have hrest : Sql.charsFrom style n
          (Sql.joined "." ([.name next] :: rest.map fun part => [.name part])) =
          List.intercalate ['.'] ((style.identifier next).toList ::
            rest.map fun part => (style.identifier part).toList) := ih
      rw [List.map_cons, List.map_cons, List.map_cons, List.map_cons, List.intercalate_cons_cons,
        ← hrest, List.append_assoc, Sql.joined, Sql.charsFrom_between,
        Sql.charsFrom_of_binding?_none rfl, Sql.charsFrom, List.append_nil]
      · rfl
      · exact List.cons_ne_nil _ _

/-- A table name is one word, and no variable. -/
theorem guarded_table (he : e.check = .ok ()) (ha : e.AvoidsVariables b.dialect) :
    b.GuardedSql allowed (Sql.table e.table) := by
  obtain ⟨_, htable, _, _, _⟩ := Entity.check_eq_ok.1 he
  have hparts := (Identifier.requireTable_eq_ok.1 htable).2
  have hne : Identifier.tableParts e.table ≠ [] :=
    mt List.map_eq_nil_iff.1 (intercalate_pieces '.' e.table.toList).2.1
  obtain ⟨part, rest, hcons⟩ := List.exists_cons_of_ne_nil hne
  intro n
  rw [charsFrom_table]
  have hchars : Unbroken (List.intercalate ['.']
      ((Identifier.tableParts e.table).map fun part => (b.style.identifier part).toList)) := by
    refine .intercalate (by decide) (by rw [hcons]; exact List.cons_ne_nil _ _) ?_
    exact List.forall_mem_map.2 fun part hp => Style.unbroken_identifier (hparts part hp)
  rw [hchars.words]
  refine ⟨hchars.closed, .of_none (List.forall_mem_singleton.2 ?_)⟩
  by_cases hq : b.style.quoted = true
  · -- in quotes it starts with one
    refine Dialect.not_isVariable ?_
    obtain ⟨tail, htail⟩ := exists_intercalate_cons ['.'] (b.style.identifier part).toList
      (rest.map fun part => (b.style.identifier part).toList)
    rw [hcons, List.map_cons, htail, String.toList_ofList, Style.identifier, if_pos hq]
    show ¬ b.dialect.variableMark.toList <+: _
    unfold quoteIdentifier between
    rw [String.toList_ofList]
    show ¬ b.dialect.variableMark.toList <+: b.dialect.quotes.1 :: _
    cases b.dialect with
    | sqlServer => simp [Dialect.variableMark, Dialect.quotes]
    | oracle => simp [Dialect.variableMark, Dialect.quotes]
  · have hname : ∀ part, b.style.identifier part = part := fun part => if_neg hq
    have htext : (Identifier.tableParts e.table).map (fun part => (b.style.identifier part).toList)
        = pieces '.' e.table.toList := by
      simp only [hname, Identifier.tableParts, List.map_map, Function.comp_def,
        String.toList_ofList, List.map_id']
    rw [htext, (intercalate_pieces '.' e.table.toList).1, String.ofList_toList]
    exact ha.1

/-! ## The words of a step -/

variable {a c : Sql} {s : String}

/-- Wording in front of a part; it has no variables. -/
theorem guarded_after (hs : Closed s.toList ∧ endsApart s.toList = true)
    (hw : ∀ w ∈ words s.toList, ∀ d ∈ Dialect.both, d.isVariable w = false)
    (hc : b.GuardedSql allowed c) : b.GuardedSql allowed (.text s :: c) :=
  .after rfl (fun _ => rfl) hs.1 hs.2 hc fun _ => .append (Dialect.guarded_of_all hw)

/-- Wording between two parts. -/
theorem guarded_between (ha : b.GuardedSql allowed a) (hs : Sql.Separates s)
    (hw : ∀ w ∈ words s.toList, ∀ d ∈ Dialect.both, d.isVariable w = false)
    (hc : b.GuardedSql allowed c) : b.GuardedSql allowed (a ++ .text s :: c) :=
  ha.between hs hc fun _ _ hu hv => hu.append ((Dialect.guarded_of_all hw).append hv)

theorem guarded_rootAlias : b.GuardedSql allowed [.text TableAlias.root.text] :=
  .text (by decide) (Dialect.guarded_of_all (by decide))

theorem guarded_insert {parts : InsertParts} (ht : b.GuardedSql allowed parts.table)
    (hc : ∀ column ∈ parts.columns, b.GuardedSql allowed column)
    (hv : ∀ value ∈ parts.values, b.LooseSql allowed value) :
    b.GuardedSql allowed (Dialect.insertHead parts ++ Dialect.insertValues parts) := by
  have hhead : b.GuardedSql allowed (Dialect.insertHead parts) :=
    (guarded_between (guarded_after (by decide) (by decide) ht) (by decide) (by decide)
      (guarded_list hc)).before (by decide) (by decide) fun _ h =>
        h.append (Dialect.guarded_of_all (by decide))
  have hvalues : b.LooseSql allowed (Sql.list parts.values ++ [.text ")"]) :=
    (loose_list hv).before (by decide) (by decide) fun _ h =>
      h.append (Dialect.loose_of_all (by decide))
  refine hhead.between (s := " VALUES (") (by decide) hvalues fun us ws hu hw => ?_
  have hopening : ∀ d ∈ Dialect.both, ¬ d.isVariable "VALUES" = true ∧ "VALUES" ≠ d.assignWord := by
    decide
  obtain ⟨hvar, hassign⟩ := hopening _ b.dialect.mem_both
  exact hu.append (.cons hvar hassign hw)

/-- An insert that keeps its key in a variable assigns it, once. -/
theorem keeps_insert {parts : InsertParts} {column : Sql} {k : Nat}
    (ht : b.GuardedSql allowed parts.table)
    (hc : ∀ column ∈ parts.columns, b.GuardedSql allowed column)
    (hv : ∀ value ∈ parts.values, b.LooseSql allowed value)
    (hk : b.GuardedSql allowed column) :
    Sql.Worded b.style (b.dialect.Keeps allowed (b.dialect.batchVariable k))
      (b.dialect.insert parts (.capture column (b.dialect.batchVariable k))) := by
  have hinsert := guarded_insert ht hc hv
  have hvar := b.dialect.isVariable_batchVariable k
  have hname : Sql.Worded b.style (· = [b.dialect.batchVariable k])
      [.variable (b.dialect.batchVariable k)] :=
    .single (fun _ => unbroken_batchVariable b.dialect k) fun _ => rfl
  obtain ⟨d, hd⟩ : ∃ d, b.dialect = d := ⟨_, rfl⟩
  rw [hd] at hvar hname ⊢
  cases d with
  | sqlServer =>
    have hcall : Sql.Worded b.style (· = [Dialect.sqlServer.batchVariable k, "SCOPE_IDENTITY"])
        ([.variable (Dialect.sqlServer.batchVariable k)] ++ [.text " = SCOPE_IDENTITY()"]) :=
      hname.before (by decide) (by decide) fun ws hw => by rw [hw]; rfl
    refine hinsert.between (s := "; SET ") (by decide) hcall fun us ws hu hw => ?_
    rw [hd] at hu
    subst hw
    have hcall : Dialect.Guarded .sqlServer allowed ["SCOPE_IDENTITY"] :=
      Dialect.guarded_of_all (by decide)
    exact hu.keeps hvar hcall
  | oracle =>
    have hreturning := guarded_between hinsert (s := " RETURNING ") (by decide) (by decide) hk
    refine hreturning.between (s := " INTO ") (by decide) hname fun us ws hu hw => ?_
    rw [hd] at hu
    subst hw
    have hnone : Dialect.Guarded .oracle allowed [] := Dialect.guarded_of_all (by simp)
    exact hu.keeps hvar hnone

theorem guarded_update {table condition : Sql} {assignments : List Sql}
    (ht : b.GuardedSql allowed table)
    (hs : ∀ assignment ∈ assignments, b.GuardedSql allowed assignment)
    (hc : b.GuardedSql allowed condition) :
    b.GuardedSql allowed
      (b.dialect.update table [.text TableAlias.root.text] assignments condition) := by
  have hlist := guarded_list hs
  cases b.dialect with
  | sqlServer =>
    have hset := guarded_between (guarded_after (s := "UPDATE ") (by decide) (by decide)
      guarded_rootAlias) (s := " SET ") (by decide) (by decide) hlist
    have hfrom := guarded_between (guarded_between hset (s := " FROM ") (by decide) (by decide) ht)
      (s := " ") (by decide) (by decide) guarded_rootAlias
    exact guarded_between hfrom (by decide) (by decide) hc
  | oracle =>
    have htable := guarded_between (guarded_after (s := "UPDATE ") (by decide) (by decide) ht)
      (s := " ") (by decide) (by decide) guarded_rootAlias
    have hset := guarded_between htable (s := " SET ") (by decide) (by decide) hlist
    exact guarded_between hset (by decide) (by decide) hc

theorem guarded_delete {table condition : Sql} (ht : b.GuardedSql allowed table)
    (hc : b.GuardedSql allowed condition) :
    b.GuardedSql allowed (b.dialect.delete table [.text TableAlias.root.text] condition) := by
  cases b.dialect with
  | sqlServer =>
    have hfrom := guarded_between (guarded_after (s := "DELETE ") (by decide) (by decide)
      guarded_rootAlias) (s := " FROM ") (by decide) (by decide) ht
    have halias := guarded_between hfrom (s := " ") (by decide) (by decide) guarded_rootAlias
    exact guarded_between halias (by decide) (by decide) hc
  | oracle =>
    have halias := guarded_between (guarded_after (s := "DELETE FROM ") (by decide) (by decide) ht)
      (s := " ") (by decide) (by decide) guarded_rootAlias
    exact guarded_between halias (by decide) (by decide) hc

/-- The variables of links are allowed ones. -/
def LinksAllowed (b : Builder) (allowed : String → Prop) (links : Links) : Prop :=
  ∀ field name, links.lookup field = some name →
    ∃ k, name = b.dialect.batchVariable k ∧ allowed name

variable {links : Links}

theorem loose_link {name v : String} (hl : b.LinksAllowed allowed links)
    (h : links.lookup name = some v) : b.LooseSql allowed [.variable v] := by
  obtain ⟨k, rfl, hv⟩ := hl _ _ h
  exact loose_variable hv

/-- What is left of a step once its entity and its links are looked up. -/
structure StepReady (b : Builder) (allowed : String → Prop) (e : Entity) (links : Links) :
    Prop where
  checked : e.check = .ok ()
  avoids : e.AvoidsVariables b.dialect
  linked : b.LinksAllowed allowed links

namespace StepReady

theorem guarded_column (hs : b.StepReady allowed e links) {f : Field} (hf : f ∈ e.fields) :
    b.GuardedSql allowed [.name f.columnName] :=
  guarded_name (Entity.Declares.check hs.checked (.column hf)) (hs.avoids.2 f hf)

theorem insertEntry (hs : b.StepReady allowed e links) {f : Field} (hf : f ∈ e.fields)
    {entry : Sql × Sql} (h : b.insertEntry e links f = .ok (some entry)) :
    b.GuardedSql allowed entry.1 ∧ b.LooseSql allowed entry.2 := by
  have hcolumn := hs.guarded_column hf
  rcases insertEntry_eq_ok.1 h with ⟨v, hv, he⟩ | ⟨_, ⟨_, he⟩ | ⟨json, _, value, hvalue, he⟩⟩
  · obtain rfl := Option.some.inj he
    exact ⟨hcolumn, loose_link hs.linked hv⟩
  · exact absurd he (by simp)
  · obtain rfl := Option.some.inj he
    exact ⟨hcolumn, loose_valueExpression hvalue⟩

/-- The columns and the values that an insert lists. -/
theorem insertEntries (hs : b.StepReady allowed e links) {entries : List (Option (Sql × Sql))}
    (h : (insertFields e).mapM (b.insertEntry e links) = .ok entries) :
    (∀ column ∈ (entries.filterMap id).map Prod.fst, b.GuardedSql allowed column) ∧
      ∀ value ∈ (entries.filterMap id).map Prod.snd, b.LooseSql allowed value := by
  have hentry : ∀ entry ∈ entries.filterMap id,
      b.GuardedSql allowed entry.1 ∧ b.LooseSql allowed entry.2 := by
    intro entry hm
    obtain ⟨f, hf, hentry⟩ := exists_of_mem_filterMap_id h hm
    exact hs.insertEntry (List.mem_of_mem_filter hf) hentry
  exact ⟨List.forall_mem_map.2 fun entry hm => (hentry entry hm).1,
    List.forall_mem_map.2 fun entry hm => (hentry entry hm).2⟩

theorem assignment (hs : b.StepReady allowed e links) {f : Field} (hf : f ∈ e.fields)
    (h : b.assignment e links f = .ok sql) : b.GuardedSql allowed sql := by
  obtain ⟨value, hvalue, rfl⟩ := assignment_eq_ok.1 h
  refine guarded_equation (Entity.Declares.check hs.checked (.column hf)) (fun _ => rfl) ?_
  rcases hvalue with ⟨v, hv, rfl⟩ | ⟨_, ⟨json, _, hvalue⟩ | ⟨_, rfl⟩⟩
  · exact loose_link hs.linked hv
  · exact loose_valueExpression hvalue
  · exact loose_bind _

theorem condition (hs : b.StepReady allowed e links)
    (h : keyCondition e (keyLink? e links) = .ok sql) : b.GuardedSql allowed sql := by
  obtain ⟨key, hkey, h⟩ := keyCondition_eq_ok.1 h
  have hcolumn := Entity.Declares.check hs.checked (.column (Entity.mem_fields_of_key? hkey))
  rcases h with ⟨v, hv, rfl⟩ | ⟨_, json, _, value, _, rfl⟩
  · obtain ⟨_, _, hlink⟩ := Option.bind_eq_some_iff.1 hv
    exact guarded_equation hcolumn (fun _ => rfl) (loose_link hs.linked hlink)
  · exact guarded_equation hcolumn (fun _ => rfl) (loose_bind _)

/-- An insert without a variable for its key. -/
theorem insertBody_omit (hs : b.StepReady allowed e links)
    (h : b.insertBody e links .omit = .ok sql) : b.GuardedSql allowed sql := by
  obtain ⟨entries, hentries, _, rfl⟩ := insertBody_eq_ok.1 h
  obtain ⟨hcolumns, hvalues⟩ := hs.insertEntries hentries
  have homit : b.keyReturn e .omit = .omit := by
    unfold keyReturn
    cases e.key? with
    | none => rfl
    | some key => rfl
  have hinsert : ∀ d : Dialect, ∀ parts, d.insert parts .omit =
      Dialect.insertHead parts ++ Dialect.insertValues parts := by
    intro d parts
    cases d with
    | sqlServer => rfl
    | oracle => rfl
  rw [homit, hinsert]
  exact guarded_insert (guarded_table hs.checked hs.avoids) hcolumns hvalues

theorem insertBody_capture (hs : b.StepReady allowed e links) {key : Field} {k : Nat}
    (hkey : e.key? = some key)
    (h : b.insertBody e links (.capture (b.dialect.batchVariable k)) = .ok sql) :
    Sql.Worded b.style (b.dialect.Keeps allowed (b.dialect.batchVariable k)) sql := by
  obtain ⟨entries, hentries, _, rfl⟩ := insertBody_eq_ok.1 h
  obtain ⟨hcolumns, hvalues⟩ := hs.insertEntries hentries
  have hcapture : b.keyReturn e (.capture (b.dialect.batchVariable k)) =
      .capture [.name key.columnName] (b.dialect.batchVariable k) := by
    unfold keyReturn
    rw [hkey]
  rw [hcapture]
  exact keeps_insert (guarded_table hs.checked hs.avoids) hcolumns hvalues
    (hs.guarded_column (Entity.mem_fields_of_key? hkey))

theorem updateBody (hs : b.StepReady allowed e links)
    (h : b.updateBody e none links = .ok sql) : b.GuardedSql allowed sql := by
  obtain ⟨_, assignments, hassignments, _, condition, hcondition, rfl⟩ := updateBody_eq_ok.1 h
  refine guarded_update (guarded_table hs.checked hs.avoids) ?_ (hs.condition hcondition)
  intro assignment hm
  obtain ⟨f, hf, hassignment⟩ := exists_of_mem_mapM hassignments hm
  exact hs.assignment (List.mem_of_mem_filter (List.mem_of_mem_filter hf)) hassignment

theorem deleteBody (hs : b.StepReady allowed e links)
    (h : b.deleteBody e links = .ok sql) : b.GuardedSql allowed sql := by
  obtain ⟨condition, hcondition, rfl⟩ := deleteBody_eq_ok.1 h
  exact guarded_delete (guarded_table hs.checked hs.avoids) (hs.condition hcondition)

end StepReady

end Builder

end RecordSql
