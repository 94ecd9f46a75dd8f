import RecordSql.Proofs.KeyManagement
import RecordSql.Proofs.Templates

/-!
# Quoted texts are tokens

What is written between quotes is read as one token, whatever it is: quotes inside it are doubled,
and reading goes on to the first closing quote that is not. `readQuoted?_eq_some` says so for one
quoted text. Here a reader goes through a whole line of SQL, word by word and mark by mark.

* `token?` reads one token: a quoted name, a literal, a word, or a single mark.
* `Scans cs ts rest` says that these tokens, and nothing else, are read from the front of `cs`, and
  that `rest` is left.
* The lines that open and close a key, and the call that looks up its identifier, read as the same
  tokens for all settings. Only the names in them differ, and each is one token. Settings need not
  be checked for that.
-/

namespace RecordSql

open Checked Text

/-! ## Quoting -/

namespace Text

variable {opening closing : Char} {s t : String} {rest : List Char}

/-- A quoted name is read back, whatever follows that is not one more closing quote. -/
theorem readQuoted?_quoteIdentifier (h : rest.head? ≠ some closing) :
    readQuoted? opening closing ((quoteIdentifier s opening closing).toList ++ rest) =
      some (s.toList, rest) := by
  rw [quoteIdentifier, String.toList_ofList]
  exact readQuoted?_eq_some.2 ⟨rfl, h⟩

theorem readQuoted?_quoteLiteral (h : rest.head? ≠ some '\'') :
    readQuoted? '\'' '\'' ((quoteLiteral s).toList ++ rest) = some (s.toList, rest) :=
  readQuoted?_quoteIdentifier h

/-- Different names are quoted differently, since each is read back. -/
theorem quoteIdentifier_injective (opening closing : Char) :
    Function.Injective fun s => quoteIdentifier s opening closing := by
  intro s t h
  have hs : readQuoted? opening closing ((quoteIdentifier s opening closing).toList ++ []) = _ :=
    readQuoted?_quoteIdentifier (by simp)
  have ht : readQuoted? opening closing ((quoteIdentifier t opening closing).toList ++ []) = _ :=
    readQuoted?_quoteIdentifier (by simp)
  rw [show quoteIdentifier s opening closing = quoteIdentifier t opening closing from h, ht] at hs
  have hread : (t.toList, ([] : List Char)) = (s.toList, []) := Option.some.inj hs
  exact (String.toList_inj.1 (Prod.mk.inj hread).1).symm

theorem quoteLiteral_injective : Function.Injective quoteLiteral :=
  quoteIdentifier_injective '\'' '\''

end Text

/-! ## Tokens -/

/-- A token of SQL. A name or a literal is what stands between the quotes. -/
inductive Token where
  | word (s : String)
  | name (s : String)
  | literal (s : String)
  | mark (c : Char)
  deriving DecidableEq, Repr

namespace Token

/-- The characters that words are made of. -/
def isWordChar (c : Char) : Bool := c.isAlphanum || c = '_'

/-- The quote that closes what a quote opens, and the token that stands between the two. -/
def quoted? : Char → Option (Char × (String → Token))
  | '[' => some (']', name)
  | '"' => some ('"', name)
  | '\'' => some ('\'', literal)
  | _ => none

/-- Reads the token that a text starts with, and says what follows it. A quote that is never closed
gives none. -/
def token? : List Char → Option (Token × List Char)
  | [] => none
  | c :: cs =>
    match quoted? c with
    | some (closing, token) =>
      (readQuoted? c closing (c :: cs)).map fun read => (token (.ofList read.1), read.2)
    | none =>
      if isWordChar c then
        some (word (.ofList (c :: cs.takeWhile isWordChar)), cs.dropWhile isWordChar)
      else some (mark c, cs)

/-- Reads so many tokens, the blanks in front of each apart, and says what follows them. -/
def tokens? : Nat → List Char → Option (List Token × List Char)
  | 0, cs => some ([], cs)
  | count + 1, cs =>
    (token? (cs.dropWhile isBlank)).bind fun first =>
      (tokens? count first.2).map fun others => (first.1 :: others.1, others.2)

/-- These tokens are read from a text, and the rest is left. -/
def Scans (cs : List Char) (ts : List Token) (rest : List Char) : Prop :=
  tokens? ts.length cs = some (ts, rest)

variable {cs middle rest : List Char} {t : Token} {ts : List Token} {s : String} {c : Char}

theorem Scans.nil (cs : List Char) : Scans cs [] cs := rfl

/-- Blanks in front of a token are passed over. -/
theorem Scans.blank (h : Scans cs (t :: ts) rest) : Scans (' ' :: cs) (t :: ts) rest := h

/-- A token is read in front of the others, when it starts with no blank. -/
theorem Scans.cons (hc : isBlank c = false) (ht : token? (c :: cs) = some (t, middle))
    (h : Scans middle ts rest) : Scans (c :: cs) (t :: ts) rest := by
  have hstart : (c :: cs).dropWhile isBlank = c :: cs := List.dropWhile_cons_of_neg (by simp [hc])
  have hothers : tokens? ts.length middle = some (ts, rest) := h
  show ((token? ((c :: cs).dropWhile isBlank)).bind fun first =>
    (tokens? ts.length first.2).map fun others => (first.1 :: others.1, others.2)) = _
  rw [hstart, ht, Option.bind_some, hothers, Option.map_some]

/-- **What stands between quotes is one token**, when no closing quote follows. -/
theorem Scans.quoted {opening closing : Char} {token : String → Token}
    (hb : isBlank opening = false) (hq : quoted? opening = some (closing, token))
    (hr : middle.head? ≠ some closing) (h : Scans middle ts rest) :
    Scans ((quoteIdentifier s opening closing).toList ++ middle) (token s :: ts) rest := by
  have hread : readQuoted? opening closing ((quoteIdentifier s opening closing).toList ++ middle) =
      some (s.toList, middle) := readQuoted?_quoteIdentifier hr
  rw [quoteIdentifier, String.toList_ofList, between, List.cons_append, List.cons_append] at hread ⊢
  refine Scans.cons hb ?_ h
  rw [token?, hq]
  dsimp only
  rw [hread, Option.map_some, String.ofList_toList]

/-- A name in the quotes of either dialect is one token. -/
theorem Scans.name {d : Dialect} (hr : middle.head? ≠ some d.quotes.2)
    (h : Scans middle ts rest) : Scans ((d.quote s).toList ++ middle) (.name s :: ts) rest := by
  cases d with
  | sqlServer => exact .quoted (by decide) rfl hr h
  | oracle => exact .quoted (by decide) rfl hr h

/-- A literal is one token. -/
theorem Scans.literal (hr : middle.head? ≠ some '\'') (h : Scans middle ts rest) :
    Scans ((quoteLiteral s).toList ++ middle) (.literal s :: ts) rest :=
  .quoted (by decide) rfl hr h

/-- A word, which may be any text of such characters. -/
def IsWord (s : String) : Prop := s.toList ≠ [] ∧ ∀ c ∈ s.toList, isWordChar c = true

instance (s : String) : Decidable (IsWord s) :=
  @instDecidableAnd _ _ _ (List.decidableBAll _ s.toList)

/-- No word starts with a blank or a quote. -/
theorem isBlank_of_isWordChar (h : isWordChar c = true) : isBlank c = false ∧ quoted? c = none := by
  have hne : ∀ d, isWordChar d = false → c ≠ d := by
    rintro d hd rfl
    exact absurd h (by simp [hd])
  refine ⟨not_isBlank_of_any (by decide) h, ?_⟩
  unfold quoted?
  split
  · exact absurd rfl (hne '[' (by decide))
  · exact absurd rfl (hne '"' (by decide))
  · exact absurd rfl (hne '\'' (by decide))
  · rfl

/-- A word is read up to what cannot belong to it. -/
theorem Scans.word (hs : IsWord s) (hc : isWordChar c = false) (h : Scans (c :: middle) ts rest) :
    Scans (s.toList ++ c :: middle) (.word s :: ts) rest := by
  obtain ⟨hne, hall⟩ := hs
  obtain ⟨first, tail, hchars⟩ := List.exists_cons_of_ne_nil hne
  rw [hchars] at hall ⊢
  obtain ⟨hfirst, htail⟩ := List.forall_mem_cons.1 hall
  refine Scans.cons (isBlank_of_isWordChar hfirst).1 ?_ h
  rw [List.append_eq, token?, (isBlank_of_isWordChar hfirst).2]
  dsimp only
  rw [if_pos hfirst, List.takeWhile_append_of_pos htail, List.dropWhile_append_of_pos htail,
    List.takeWhile_cons_of_neg (by simp [hc]), List.dropWhile_cons_of_neg (by simp [hc]),
    List.append_nil, ← hchars, String.ofList_toList]

/-- A mark is a token of its own. -/
theorem Scans.mark (hb : isBlank c = false) (hq : quoted? c = none) (hw : isWordChar c = false)
    (h : Scans cs ts rest) : Scans (c :: cs) (.mark c :: ts) rest := by
  refine Scans.cons hb ?_ h
  rw [token?, hq]
  exact if_neg (by simp [hw])

/-- Words with a blank behind each. -/
def phrase (words : List String) : List Char := words.flatMap fun w => w.toList ++ [' ']

/-- A phrase is read word by word. -/
theorem Scans.phrase {words : List String} (hw : ∀ w ∈ words, IsWord w)
    (h : Scans cs (t :: ts) rest) :
    Scans (phrase words ++ cs) (words.map .word ++ t :: ts) rest := by
  induction words with
  | nil => exact h
  | cons w words ih =>
    obtain ⟨hw, hwords⟩ := List.forall_mem_cons.1 hw
    have hnext : Scans (' ' :: (Token.phrase words ++ cs)) (words.map .word ++ t :: ts) rest := by
      cases words with
      | nil => exact (ih hwords).blank
      | cons w words => exact (ih hwords).blank
    have hsplit : Token.phrase (w :: words) ++ cs =
        w.toList ++ ' ' :: (Token.phrase words ++ cs) := by
      simp [Token.phrase]
    rw [hsplit]
    exact .word hw (by decide) hnext

end Token

/-! ## The names of a key -/

open Token

namespace EncryptionKeys

variable (keys : EncryptionKeys) {rest : List Char}

/-- The tokens of the line that opens a key. -/
def openTokens : List Token :=
  [.word "OPEN", .word "SYMMETRIC", .word "KEY", .name keys.keyName, .word "DECRYPTION",
    .word "BY", .word "CERTIFICATE", .name keys.certificateName, .mark ';']

/-- The tokens of the line that closes a key. -/
def closeTokens : List Token :=
  [.word "CLOSE", .word "SYMMETRIC", .word "KEY", .name keys.keyName, .mark ';']

/-- The tokens in front of a value that is encrypted: the call that looks up the identifier of the
key, as an argument of the call that encrypts. -/
def callTokens : List Token :=
  [.word "ENCRYPTBYKEY", .mark '(', .word "KEY_GUID", .mark '(', .literal keys.keyName, .mark ')',
    .mark ',', .word "CONVERT", .mark '(', .word "NVARCHAR", .mark '(', .word "MAX", .mark ')',
    .mark ',']

/-- **The line that opens a key reads the same for all settings**, but for the two names. -/
theorem scans_openLine : Scans (keys.openLine.toList ++ rest) keys.openTokens rest := by
  have hopen : "OPEN SYMMETRIC KEY ".toList = phrase ["OPEN", "SYMMETRIC", "KEY"] := by decide
  have hby : " DECRYPTION BY CERTIFICATE ".toList =
      ' ' :: phrase ["DECRYPTION", "BY", "CERTIFICATE"] := by decide
  have hend : ";".toList = [';'] := by decide
  unfold openLine
  generalize hkey : Dialect.sqlServer.quote keys.keyName = key
  generalize hcertificate : Dialect.sqlServer.quote keys.certificateName = certificate
  rw [String.toList_append, String.toList_append, String.toList_append,
    String.toList_append, hopen, hby, hend, List.append_assoc, List.append_assoc, List.append_assoc,
    List.append_assoc, List.cons_append, List.cons_append, List.nil_append, ← hkey, ← hcertificate]
  refine Scans.phrase (by decide) (.name (by simp [Dialect.quotes]) (.blank ?_))
  refine Scans.phrase (by decide) (.name (by simp [Dialect.quotes]) ?_)
  exact .mark (by decide) rfl (by decide) (.nil rest)

/-- **So does the line that closes it.** -/
theorem scans_closeLine : Scans (keys.closeLine.toList ++ rest) keys.closeTokens rest := by
  have hclose : "CLOSE SYMMETRIC KEY ".toList = phrase ["CLOSE", "SYMMETRIC", "KEY"] := by decide
  have hend : ";".toList = [';'] := by decide
  unfold closeLine
  generalize hkey : Dialect.sqlServer.quote keys.keyName = key
  rw [String.toList_append, String.toList_append, hclose, hend, List.append_assoc,
    List.append_assoc, List.cons_append, List.nil_append, ← hkey]
  refine Scans.phrase (by decide) (.name (by simp [Dialect.quotes]) ?_)
  exact .mark (by decide) rfl (by decide) (.nil rest)

/-- **So does the call that looks a key up**, up to the value that is encrypted. -/
theorem scans_encryptOpening :
    Scans ((Dialect.encryptOpening keys).toList ++ rest) keys.callTokens (' ' :: rest) := by
  have hguid : "ENCRYPTBYKEY(KEY_GUID(".toList =
      "ENCRYPTBYKEY".toList ++ '(' :: ("KEY_GUID".toList ++ ['(']) := by decide
  have hconvert : "), CONVERT(NVARCHAR(MAX), ".toList =
      ')' :: ',' :: ' ' :: ("CONVERT".toList ++ '(' :: ("NVARCHAR".toList ++
        '(' :: ("MAX".toList ++ [')', ',', ' ']))) := by decide
  have hchars : (Dialect.encryptOpening keys).toList ++ rest =
      "ENCRYPTBYKEY".toList ++ '(' :: ("KEY_GUID".toList ++ '(' ::
        ((quoteLiteral keys.keyName).toList ++ ')' :: ',' :: ' ' :: ("CONVERT".toList ++
          '(' :: ("NVARCHAR".toList ++ '(' :: ("MAX".toList ++ ')' :: ',' :: ' ' :: rest))))) := by
    show ("ENCRYPTBYKEY(KEY_GUID(" ++ quoteLiteral keys.keyName ++
      "), CONVERT(NVARCHAR(MAX), ").toList ++ rest = _
    rw [String.toList_append, String.toList_append, hguid, hconvert]
    simp only [List.append_assoc, List.cons_append, List.nil_append]
  have hparenthesis : ∀ {cs ts}, Scans cs ts (' ' :: rest) →
      Scans ('(' :: cs) (.mark '(' :: ts) (' ' :: rest) := fun h =>
    .mark (by decide) rfl (by decide) h
  rw [hchars]
  refine .word (by decide) (by decide) (hparenthesis ?_)
  refine .word (by decide) (by decide) (hparenthesis ?_)
  refine .literal (by simp) (.mark (by decide) rfl (by decide) ?_)
  refine .mark (by decide) rfl (by decide) (.blank ?_)
  refine .word (by decide) (by decide) (hparenthesis ?_)
  refine .word (by decide) (by decide) (hparenthesis ?_)
  refine .word (by decide) (by decide) (.mark (by decide) rfl (by decide) ?_)
  exact .mark (by decide) rfl (by decide) (.nil _)

end EncryptionKeys

namespace Builder

variable {b : Builder} {r : Request} {s : Statement} {sql : Sql}

/-- A statement that needs a key names that of the settings, and its certificate, by tokens. -/
structure NamesKeys (b : Builder) (s : Statement) (keys : EncryptionKeys) : Prop where
  /-- The key is that of the settings. -/
  configured : b.config.encryption = some keys
  /-- The text starts with the tokens of the line that opens the key. -/
  opens : ∃ rest, Scans s.text.toList keys.openTokens ('\n' :: rest)
  /-- Its last line is read as the tokens of the line that closes it. -/
  closes : ∃ front last, s.text.toList = front ++ '\n' :: last ∧ Scans last keys.closeTokens []
  /-- What needs the key decrypts, or is read as a call that looks up the key. -/
  calls : ∀ before opening after, s.sql = before ++ .keyed opening :: after →
    opening = Dialect.decryptOpening ∨
      ∃ call rest, s.text.toList = Sql.charsFrom s.style 0 before ++ call ∧
        Scans call keys.callTokens rest

/-- What is marked in a body decrypts, or encrypts with the key of the settings. -/
theorem keyed_of_body {opening : String} (h : b.body r = .ok sql) (hm : .keyed opening ∈ sql) :
    opening = Dialect.decryptOpening ∨
      ∃ keys, b.config.encryption = some keys ∧ opening = Dialect.encryptOpening keys := by
  obtain ⟨e, _, hs⟩ := (formed_body h).stock _ hm
  cases hs with
  | decrypt _ => exact .inl rfl
  | encrypt _ hk => exact .inr ⟨_, hk, rfl⟩
  | extra ha =>
    cases ha with
    | batch ha => cases ha

/-- **A statement that needs a key names it by tokens**, whatever its name is. -/
theorem namesKeys_finish {keys : EncryptionKeys} (h : b.body r = .ok sql)
    (hkeys : b.config.encryption = some keys)
    (hf : b.finish sql = .ok ⟨.text (Dialect.keyOpening keys) :: sql.withoutSemicolons ++
      [.text (Dialect.keyClosing keys)], b.style⟩) :
    b.NamesKeys ⟨.text (Dialect.keyOpening keys) :: sql.withoutSemicolons ++
      [.text (Dialect.keyClosing keys)], b.style⟩ keys := by
  have htext : Statement.text ⟨.text (Dialect.keyOpening keys) :: sql.withoutSemicolons ++
      [.text (Dialect.keyClosing keys)], b.style⟩ =
        String.ofList ((Dialect.keyOpening keys).toList ++
          (Sql.charsFrom b.style 0 sql.withoutSemicolons ++ (Dialect.keyClosing keys).toList)) := by
    rw [Statement.text, Sql.write, Sql.charsFrom_wrapped]
  have hbreaks : "\n".toList = ['\n'] ∧ ";\n".toList = [';', '\n'] := by decide
  refine ⟨hkeys, ?_, ?_, fun before opening after hsplit => ?_⟩
  · rw [htext, String.toList_ofList, Dialect.keyOpening_eq, String.toList_append, hbreaks.1,
      List.append_assoc]
    exact ⟨_, keys.scans_openLine⟩
  · have hclose : Scans (keys.closeLine.toList ++ []) keys.closeTokens [] := keys.scans_closeLine
    rw [List.append_nil] at hclose
    refine ⟨(Dialect.keyOpening keys).toList ++
      (Sql.charsFrom b.style 0 sql.withoutSemicolons ++ [';']), _, ?_, hclose⟩
    rw [htext, String.toList_ofList, Dialect.keyClosing_eq, String.toList_append, hbreaks.2,
      List.append_assoc, List.append_assoc]
    rfl
  · -- the mark is one of the body, since the lines around it have none
    have hmem : opening ∈ sql.filterMap Piece.keyText? := by
      rw [← filterMap_finish passes_keyText? hf, hsplit, List.filterMap_append]
      exact List.mem_append_right _ List.mem_cons_self
    obtain ⟨p, hp, hpo⟩ := List.mem_filterMap.1 hmem
    obtain rfl : p = .keyed opening := by
      cases p with
      | keyed _ => exact congrArg _ (Option.some.inj hpo)
      | _ => exact absurd hpo (by simp [Piece.keyText?])
    refine (keyed_of_body h hp).imp_right fun hcall => ?_
    obtain ⟨keys', hkeys', rfl⟩ := hcall
    obtain rfl := Option.some.inj (hkeys.symm.trans hkeys')
    have hchars :
        Sql.charsFrom b.style 0 (before ++ .keyed (Dialect.encryptOpening keys) :: after) = _ :=
      Sql.charsFrom_append before (.keyed (Dialect.encryptOpening keys) :: after) 0
    rw [← hsplit, Sql.charsFrom_of_binding?_none rfl] at hchars
    exact ⟨_, _, String.toList_ofList.trans hchars, keys.scans_encryptOpening⟩

/-- **Nothing between quotes ends them.** A quoted name or literal is read back as it was, and what
follows it is left, whatever stands in it; so different texts are quoted differently. The two lines
that manage a key and the call that looks it up read as the same tokens, with each name as one of
them; and every statement of a builder, with settings that need not be checked, has them like that
or needs no key at all. -/
theorem quoted_tokens :
    (∀ (s : String) (opening closing : Char) (rest : List Char), rest.head? ≠ some closing →
      readQuoted? opening closing ((quoteIdentifier s opening closing).toList ++ rest) =
        some (s.toList, rest)) ∧
    (∀ (s : String) (rest : List Char), rest.head? ≠ some '\'' →
      readQuoted? '\'' '\'' ((quoteLiteral s).toList ++ rest) = some (s.toList, rest)) ∧
    (∀ opening closing, Function.Injective fun s => quoteIdentifier s opening closing) ∧
    Function.Injective quoteLiteral ∧
    (∀ (keys : EncryptionKeys) (rest : List Char),
      Scans (keys.openLine.toList ++ rest) keys.openTokens rest ∧
      Scans (keys.closeLine.toList ++ rest) keys.closeTokens rest ∧
      Scans ((Dialect.encryptOpening keys).toList ++ rest) keys.callTokens (' ' :: rest)) ∧
    ∀ (b : Builder) (r : Request) (s : Statement), b.run r = .ok s →
      (∃ keys, b.NamesKeys s keys) ∨ ∀ p ∈ s.sql, p.isKeyed = false := by
  refine ⟨fun _ _ _ _ h => readQuoted?_quoteIdentifier h, fun _ _ h => readQuoted?_quoteLiteral h,
    quoteIdentifier_injective, quoteLiteral_injective,
    fun keys _ => ⟨keys.scans_openLine, keys.scans_closeLine, keys.scans_encryptOpening⟩,
    fun b r s h => ?_⟩
  obtain ⟨_, sql, hbody, hfinish⟩ := run_eq_ok h
  rcases finish_cases hfinish with ⟨hn, rfl⟩ | ⟨_, _, keys, hkeys, rfl⟩
  · exact .inr fun p hp => by simpa using List.any_eq_false.1 hn p hp
  · exact .inl ⟨keys, namesKeys_finish hbody hkeys hfinish⟩

/-- A builder whose key and certificate have quotes in their names. -/
def spikedBuilder : Builder := ofConfig ⟨.sqlServer, false, some ⟨"k]]'];", "c']"⟩⟩

theorem quoted_tokens_spiked :
    readQuoted? '[' ']' ((quoteIdentifier "a]]" '[' ']').toList ++ "; x".toList) =
        some ("a]]".toList, "; x".toList) ∧
      readQuoted? '\'' '\'' ((quoteLiteral "'").toList ++ ")".toList) =
        some ("'".toList, ")".toList) ∧
      ∃ s, spikedBuilder.run (.insert note) = .ok s ∧ ∃ keys, spikedBuilder.NamesKeys s keys := by
  obtain ⟨hname, hliteral, _, _, _, hrun⟩ := quoted_tokens
  refine ⟨hname _ _ _ _ (by decide), hliteral _ _ (by decide), ?_⟩
  obtain ⟨s, hs, p, hp, hkeyed⟩ : ∃ s, spikedBuilder.run (.insert note) = .ok s ∧
      ∃ p ∈ s.sql, p.isKeyed = true := ⟨_, rfl, by decide⟩
  refine ⟨s, hs, (hrun _ _ _ hs).resolve_right fun hnone => ?_⟩
  exact absurd (hkeyed.symm.trans (hnone p hp)) (by decide)

end Builder

end RecordSql
