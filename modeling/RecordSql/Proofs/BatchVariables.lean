import RecordSql.Proofs.BatchText
import RecordSql.Proofs.Variables

/-!
# Variables of a batch are set before they are used

A batch gives a variable to every insert whose key is a number, counting from zero in the order of
the steps. Three passes deal with the variables: one gives them out, one checks the links against
them, one writes the steps. What they have in common is `Builder.lookup_keyVariables`: the variable
of a step is the one with the number of such steps in front of it.

* A link that passes leads back to a step that keeps its key, so the step that uses a variable
  stands behind the one that sets it.
* The text of a step assigns its own variable, if it has one, and mentions besides only those of its
  links; that was read off the words of its parts.
* The text of a batch is its header, the lines of its steps in order, and the commit.
-/

namespace RecordSql

open Checked Text

/-- A step that keeps its key: an insert whose key is a number. -/
def BatchStep.Captures (step : BatchStep) : Prop :=
  step.operation = .insert ∧
    ∃ key, step.entity.key? = some key ∧ (key.dataType = .integer ∨ key.dataType = .decimal)

theorem BatchStep.capturesKey_iff {step : BatchStep} : step.capturesKey = true ↔ step.Captures := by
  unfold capturesKey Captures
  rw [Bool.and_eq_true, decide_eq_true_iff]
  refine and_congr_right fun _ => ?_
  cases step.entity.key? with
  | none => simp
  | some key => simp

namespace Builder

variable {b : Builder} {steps : List BatchStep} {sql : Sql} {s : Statement}

/-! ## Giving out variables -/

/-- The variable of a step: its number is that of the steps in front of it that keep their keys. -/
def variableOf (b : Builder) (steps : List BatchStep) (i : Nat) : String :=
  b.dialect.batchVariable ((steps.take i).countP BatchStep.capturesKey)

theorem lookup_keyVariablesFrom_of_lt {d : Dialect} {i step count : Nat} (h : i < step) :
    (keyVariablesFrom d step count steps).lookup i = none := by
  induction steps generalizing step count with
  | nil => rfl
  | cons s rest ih =>
    have hrest : ∀ count, (keyVariablesFrom d (step + 1) count rest).lookup i = none :=
      fun _ => ih (Nat.lt_succ_of_lt h)
    rw [keyVariablesFrom]
    split
    · rw [List.lookup_cons, beq_false_of_ne (Nat.ne_of_lt h)]
      exact hrest _
    · exact hrest _

theorem lookup_keyVariablesFrom (d : Dialect) (steps : List BatchStep) (step count i : Nat) :
    (keyVariablesFrom d step count steps).lookup (step + i) =
      (steps[i]?.filter BatchStep.capturesKey).map fun _ =>
        d.batchVariable (count + (steps.take i).countP BatchStep.capturesKey) := by
  induction steps generalizing step count i with
  | nil => rfl
  | cons s rest ih =>
    rw [keyVariablesFrom]
    cases i with
    | zero =>
      split
      · next hs => simp [Option.filter, hs]
      · next hs =>
        rw [lookup_keyVariablesFrom_of_lt (Nat.lt_succ_self _)]
        simp [Option.filter, hs]
    | succ i =>
      -- one step further on, with one more variable given out if this step keeps its key
      have hstep : step + (i + 1) = step + 1 + i := by omega
      split
      · next hs =>
        rw [List.lookup_cons, beq_false_of_ne (by omega), hstep]
        simp only [ih, List.getElem?_cons_succ, List.take_succ_cons, List.countP_cons_of_pos hs]
        rw [Nat.add_right_comm, Nat.add_assoc]
      · next hs =>
        rw [hstep, ih, List.getElem?_cons_succ, List.take_succ_cons, List.countP_cons_of_neg hs]

/-- **The variables are those of the steps that keep their keys.** -/
theorem lookup_keyVariables {i : Nat} {name : String} :
    (b.keyVariables steps).lookup i = some name ↔
      (∃ step, steps[i]? = some step ∧ step.Captures) ∧ name = b.variableOf steps i := by
  have hlookup := lookup_keyVariablesFrom b.dialect steps 0 0 i
  rw [Nat.zero_add, Nat.zero_add] at hlookup
  rw [keyVariables, hlookup, Option.map_eq_some_iff]
  simp only [Option.filter_eq_some_iff, BatchStep.capturesKey_iff]
  rw [exists_and_right, eq_comm (a := name)]
  rfl

theorem names_keyVariablesFrom (d : Dialect) (step count : Nat) :
    (keyVariablesFrom d step count steps).map Prod.snd =
      (List.range' count (steps.countP BatchStep.capturesKey)).map d.batchVariable := by
  induction steps generalizing step count with
  | nil => rfl
  | cons s rest ih =>
    rw [keyVariablesFrom]
    split
    · next hs =>
      rw [List.countP_cons_of_pos hs, List.range'_succ, List.map_cons, List.map_cons, ih]
    · next hs => rw [List.countP_cons_of_neg hs, ih]

/-- The names of the variables, in the order that they are given out. -/
def variableNames (b : Builder) (steps : List BatchStep) : List String :=
  (List.range (steps.countP BatchStep.capturesKey)).map b.dialect.batchVariable

theorem names_keyVariables :
    (b.keyVariables steps).map Prod.snd = b.variableNames steps := by
  rw [keyVariables, names_keyVariablesFrom, variableNames, List.range_eq_range']

theorem nodup_variableNames : (b.variableNames steps).Nodup :=
  List.nodup_range.map b.dialect.batchVariable_injective

/-- Later steps have later numbers. -/
theorem countP_take_lt {i j : Nat} {step : BatchStep} (hi : steps[i]? = some step)
    (hs : step.Captures) (hij : i < j) :
    (steps.take i).countP BatchStep.capturesKey < (steps.take j).countP BatchStep.capturesKey := by
  have hmem : steps.take (i + 1) = steps.take i ++ [step] := by
    rw [List.take_add_one, hi]
    rfl
  calc (steps.take i).countP BatchStep.capturesKey
      < (steps.take (i + 1)).countP BatchStep.capturesKey := by
        rw [hmem, List.countP_append, List.countP_singleton,
          if_pos (BatchStep.capturesKey_iff.2 hs)]
        exact Nat.lt_succ_self _
    _ ≤ (steps.take j).countP BatchStep.capturesKey :=
        (List.take_sublist_take_left hij).countP_le

theorem variableOf_inj {i j : Nat} {step step' : BatchStep} (hi : steps[i]? = some step)
    (hj : steps[j]? = some step') (hs : step.Captures) (hs' : step'.Captures)
    (h : b.variableOf steps i = b.variableOf steps j) : i = j := by
  have hcount := b.dialect.batchVariable_injective h
  rcases Nat.lt_trichotomy i j with hlt | heq | hlt
  · exact absurd hcount (Nat.ne_of_lt (countP_take_lt hi hs hlt))
  · exact heq
  · exact absurd hcount.symm (Nat.ne_of_lt (countP_take_lt hj hs' hlt))

/-! ## Checking links -/

/-- A link of the step `i` leads back to a step that keeps its key. -/
def LeadsBack (steps : List BatchStep) (i : Nat) (link : KeyLink) : Prop :=
  link.step < i ∧ ∃ source, steps[link.step]? = some source ∧ source.Captures

/-- So does every link of every step. -/
def LinksBack (steps : List BatchStep) : Prop :=
  ∀ i step, steps[i]? = some step → ∀ link ∈ BatchStep.links step, LeadsBack steps i link

/-- **A link passes just when it leads back to a step that keeps its key.** -/
theorem checkLink_eq_ok {i : Nat} {link : KeyLink} :
    checkLink steps (b.keyVariables steps) i link = .ok () ↔ LeadsBack steps i link := by
  have hkept : ((b.keyVariables steps).lookup link.step).isSome = true ↔
      ∃ source, steps[link.step]? = some source ∧ source.Captures := by
    rw [Option.isSome_iff_exists]
    simp only [lookup_keyVariables, exists_and_left, exists_eq, and_true]
  unfold checkLink LeadsBack
  by_cases hlt : link.step < i
  · rw [if_neg (Nat.not_le.2 hlt), and_iff_right hlt]
    cases hsource : steps[link.step]? with
    | none => simp
    | some source =>
      rw [hsource] at hkept
      simp only [Option.some.injEq, exists_eq_left'] at hkept ⊢
      -- what is asked of the source before its variable is part of keeping a key
      by_cases hop : source.operation = .insert
      · rw [if_neg (not_not.2 hop)]
        cases hkey : source.entity.key? with
        | none =>
          refine iff_of_false (by simp) ?_
          rintro ⟨_, key, hsome, _⟩
          exact absurd (hkey.symm.trans hsome) (by simp)
        | some key =>
          show (if _ then _ else _) = _ ↔ _
          rw [← hkept]
          split
          · next hkeyed => exact iff_of_true rfl hkeyed
          · next hkeyed => exact iff_of_false (by simp) hkeyed
      · rw [if_pos hop]
        exact iff_of_false (by simp) fun h => hop h.1
  · rw [if_pos (Nat.not_lt.1 hlt)]
    simp [hlt]

theorem checkLinks_eq_ok :
    checkLinks steps (b.keyVariables steps) = .ok () ↔ LinksBack steps := by
  simp only [checkLinks, forM_eq_ok, checkLink_eq_ok, Prod.forall, LinksBack]
  constructor
  · intro h i step hi
    exact h step i (List.mem_zipIdx_iff_getElem?.2 hi)
  · intro h step i hm
    exact h i step (List.mem_zipIdx_iff_getElem?.1 hm)

/-- **A link to anything else refuses the batch**, before any step is written. -/
theorem batch_refused (h : ¬ LinksBack steps) :
    ∃ fault, b.batch steps = .error (.invalidEntity fault) := by
  unfold batch batchBody
  cases steps with
  | nil => exact ⟨_, rfl⟩
  | cons step rest =>
    cases hc : checkLinks (step :: rest) (b.keyVariables (step :: rest)) with
    | ok u => exact absurd (checkLinks_eq_ok.1 hc) h
    | error fault =>
      refine ⟨fault, ?_⟩
      simp only [List.isEmpty_cons, Bool.false_eq_true, if_false, hc]
      rfl

/-- A link that leads back finds its source: no other link is refused for leading forward. -/
theorem checkLink_notBackward {i : Nat} (hi : i < steps.length) (link : KeyLink) :
    checkLink steps (b.keyVariables steps) i link = .error (.linkNotBackward i link.step) ↔
      i ≤ link.step := by
  unfold checkLink
  by_cases hle : i ≤ link.step
  · rw [if_pos hle]
    exact iff_of_true rfl hle
  · obtain ⟨source, hsource⟩ : ∃ source, steps[link.step]? = some source :=
      ⟨_, List.getElem?_eq_getElem (Nat.lt_trans (Nat.not_le.1 hle) hi)⟩
    rw [if_neg hle, hsource]
    refine iff_of_false ?_ hle
    simp only
    split
    · simp
    · split
      · simp
      · split
        · simp
        · simp

/-! ## Writing steps -/

/-- How the words of the fragment of a step deal with variables. -/
structure UsesVariables (b : Builder) (steps : List BatchStep) (i : Nat) (step : BatchStep)
    (ws : List String) : Prop where
  /-- A step that keeps its key sets its variable, once, and no other. -/
  sets : step.Captures → b.dialect.assigned ws = [b.variableOf steps i]
  /-- Any other step sets none. -/
  sets_none : ¬ step.Captures → b.dialect.assigned ws = []
  /-- Besides its own variable a step mentions only those of its links. -/
  mentions : ∀ v ∈ b.dialect.mentioned ws, (step.Captures ∧ v = b.variableOf steps i) ∨
    ∃ link ∈ step.links, v = b.variableOf steps link.step

/-- The variables of the links of a step. -/
abbrev LinkedVariable (b : Builder) (steps : List BatchStep) (step : BatchStep) (name : String) :
    Prop :=
  ∃ link ∈ step.links, name = b.variableOf steps link.step

variable {i : Nat} {step : BatchStep} {ws : List String}

theorem UsesVariables.of_keeps (hc : step.Captures)
    (h : b.dialect.Keeps (b.LinkedVariable steps step) (b.variableOf steps i) ws) :
    b.UsesVariables steps i step ws where
  sets _ := h.assigns
  sets_none hn := absurd hc hn
  mentions v hm := by
    obtain ⟨hw, hvar⟩ := List.mem_filter.1 hm
    rcases h.allows v hw hvar with hown | hlinked
    · exact .inl ⟨hc, hown⟩
    · exact .inr hlinked

theorem UsesVariables.of_guarded (hc : ¬ step.Captures)
    (h : b.dialect.Guarded (b.LinkedVariable steps step) ws) : b.UsesVariables steps i step ws where
  sets hn := absurd hn hc
  sets_none _ := h.assigned
  mentions v hm := by
    obtain ⟨hw, hvar⟩ := List.mem_filter.1 hm
    exact .inr (h.allows v hw hvar)

/-- **What one step writes** sets its own variable and uses those of its links. -/
theorem usesVariables_stepBody (hi : steps[i]? = some step)
    (ha : step.entity.AvoidsVariables b.dialect)
    (h : b.stepBody (b.keyVariables steps) step i = .ok sql) :
    sql.Worded b.style (b.UsesVariables steps i step) := by
  obtain ⟨hcheck, links, hlinks, h⟩ := stepBody_eq_ok.1 h
  have hlinked : b.LinksAllowed (b.LinkedVariable steps step) links := by
    intro field name hlookup
    obtain ⟨_, _, hmem, _⟩ := List.lookup_eq_some_iff.1 hlookup
    obtain ⟨link, hlink, hname⟩ := linked_of_addLinks (P := b.LinkedVariable steps step) (by simp)
      (fun link hlink _ hkept => ⟨link, hlink, (lookup_keyVariables.1 hkept).2⟩) hlinks
      (field, name) (by rw [hmem]; simp)
    exact ⟨_, hname, link, hlink, hname⟩
  have hready : b.StepReady (b.LinkedVariable steps step) step.entity links := ⟨hcheck, ha, hlinked⟩
  have hother : step.operation ≠ .insert → ¬ step.Captures := fun hne hc => hne hc.1
  rcases h with ⟨_, h⟩ | ⟨hop, h⟩ | ⟨hop, h⟩
  · cases hkept : (b.keyVariables steps).lookup i with
    | some name =>
      obtain ⟨⟨step', hi', hc⟩, rfl⟩ := lookup_keyVariables.1 hkept
      obtain rfl := Option.some.inj (hi.symm.trans hi')
      obtain ⟨_, key, hkey, _⟩ := id hc
      rw [hkept] at h
      exact (hready.insertBody_capture hkey h).imp fun _ => .of_keeps hc
    | none =>
      have hc : ¬ step.Captures := by
        intro hc
        have hsome := lookup_keyVariables (b := b).2 ⟨⟨step, hi, hc⟩, rfl⟩
        exact absurd (hkept.symm.trans hsome) (by simp)
      rw [hkept] at h
      exact (hready.insertBody_omit h).imp fun _ => .of_guarded hc
  · exact (hready.updateBody h).imp fun _ => .of_guarded (hother (by simp [hop]))
  · exact (hready.deleteBody h).imp fun _ => .of_guarded (hother (by simp [hop]))

/-! ## The whole batch -/

/-- The fragment of a step is what is written for it. -/
theorem stepBody_of_getElem? {fragments : List Sql} {fragment : Sql}
    (h : steps.zipIdx.mapM (fun p => b.stepBody (b.keyVariables steps) p.1 p.2) = .ok fragments)
    (hi : steps[i]? = some step) (hf : fragments[i]? = some fragment) :
    b.stepBody (b.keyVariables steps) step i = .ok fragment := by
  have hpair : steps.zipIdx[i]? = some (step, i) := by
    rw [List.getElem?_zipIdx, hi]
    simp
  have hstep := related_of_getElem? (mapM_eq_ok.1 h) hpair hf
  exact hstep

theorem mentioned_lines {d : Dialect} {texts : List String}
    (h : ∀ text ∈ texts, Closed text.toList) :
    d.mentioned (words (lines (texts.map String.toList))) =
      texts.flatMap fun text => d.mentioned (words text.toList) := by
  induction texts with
  | nil => rfl
  | cons text rest ih =>
    obtain ⟨htext, hrest⟩ := List.forall_mem_cons.1 h
    rw [List.map_cons, lines, List.flatMap_cons, List.append_assoc, List.singleton_append,
      words_append_break htext (by decide), ← lines, List.flatMap_cons, ← ih hrest]
    exact List.filter_append _ _

/-- A line that declares a variable mentions no other. -/
theorem mentioned_declaration {d : Dialect} {opening closing : String} (k : Nat)
    (ho : Closed opening.toList ∧ endsApart opening.toList = true ∧
      d.mentioned (words opening.toList) = [])
    (hc : Closed closing.toList ∧ startsApart closing.toList = true ∧
      d.mentioned (words closing.toList) = []) :
    Closed (opening ++ d.batchVariable k ++ closing).toList ∧
      d.mentioned (words (opening ++ d.batchVariable k ++ closing).toList) =
        [d.batchVariable k] := by
  have hname := unbroken_batchVariable d k
  rw [String.toList_append, String.toList_append, List.append_assoc]
  refine ⟨ho.1.append (hname.closed.append hc.1), ?_⟩
  rw [words_append_endsApart ho.1 ho.2.1, words_append_startsApart hname.closed hc.2.1, hname.words,
    String.ofList_toList]
  unfold Dialect.mentioned at ho hc ⊢
  rw [List.filter_append, ho.2.2, List.nil_append, List.filter_append, hc.2.2, List.append_nil,
    List.filter_singleton, d.isVariable_batchVariable k]
  rfl

/-- So the lines that declare variables mention them in order. -/
theorem mentioned_declarations (d : Dialect) (opening closing : String) (ks : List Nat)
    (ho : Closed opening.toList ∧ endsApart opening.toList = true ∧
      d.mentioned (words opening.toList) = [])
    (hc : Closed closing.toList ∧ startsApart closing.toList = true ∧
      d.mentioned (words closing.toList) = []) :
    (∀ text ∈ (ks.map d.batchVariable).map fun name => opening ++ name ++ closing,
        Closed text.toList) ∧
      (((ks.map d.batchVariable).map fun name => opening ++ name ++ closing).flatMap fun text =>
        d.mentioned (words text.toList)) = ks.map d.batchVariable := by
  rw [List.map_map]
  constructor
  · exact List.forall_mem_map.2 fun k _ => (mentioned_declaration k ho hc).1
  · rw [List.flatMap_map, List.map_eq_flatMap]
    exact List.flatMap_congr fun k _ => (mentioned_declaration k ho hc).2

/-- **The header declares each variable once**, and mentions no others. -/
theorem mentioned_batchHeader (d : Dialect) (ks : List Nat) :
    d.mentioned (words (lines ((d.batchHeader (ks.map d.batchVariable)).map String.toList))) =
      ks.map d.batchVariable := by
  cases d with
  | sqlServer =>
    obtain ⟨hclosed, hdeclared⟩ := mentioned_declarations .sqlServer "DECLARE " " BIGINT;" ks
      (by decide) (by decide)
    rw [Dialect.batchHeader, mentioned_lines, List.flatMap_append, hdeclared]
    · rfl
    · exact List.forall_mem_append.2 ⟨by decide, hclosed⟩
  | oracle =>
    obtain ⟨hclosed, hdeclared⟩ := mentioned_declarations .oracle "  " " NUMBER;" ks
      (by decide) (by decide)
    rw [Dialect.batchHeader]
    split
    · next hnone =>
      rw [hnone]
      decide
    · rw [mentioned_lines, List.flatMap_append, List.flatMap_cons, hdeclared]
      · exact List.append_nil _
      · exact List.forall_mem_append.2
          ⟨List.forall_mem_cons.2 ⟨by decide, hclosed⟩, by decide⟩

/-- How the texts of the fragments of a batch, one for each step, deal with its variables. -/
structure SetsBeforeUse (b : Builder) (steps : List BatchStep) (texts : List (List Char)) :
    Prop where
  /-- Each fragment is one of a step. -/
  uses : ∀ (i : Nat) step text, steps[i]? = some step → texts[i]? = some text →
    b.UsesVariables steps i step (words text)
  /-- The variable of a step that keeps its key is set in the fragment of that step only. -/
  sets_once : ∀ (i : Nat) step, steps[i]? = some step → step.Captures →
    ∀ (j : Nat) text, texts[j]? = some text →
      (b.variableOf steps i ∈ b.dialect.assigned (words text) ↔ j = i)
  /-- Every variable that a fragment mentions is set in it or in one before it. -/
  sets_before : ∀ (i : Nat) text, texts[i]? = some text → ∀ v ∈ b.dialect.mentioned (words text),
    ∃ j ≤ i, ∃ text', texts[j]? = some text' ∧ v ∈ b.dialect.assigned (words text')

theorem setsBeforeUse_of_uses {texts : List (List Char)} (hlinks : LinksBack steps)
    (hlength : texts.length = steps.length)
    (huses : ∀ (i : Nat) step text, steps[i]? = some step → texts[i]? = some text →
      b.UsesVariables steps i step (words text)) :
    b.SetsBeforeUse steps texts := by
  have hstep : ∀ {i : Nat} {text}, texts[i]? = some text → ∃ step, steps[i]? = some step := by
    intro i text ht
    obtain ⟨hi, _⟩ := List.getElem?_eq_some_iff.1 ht
    exact ⟨_, List.getElem?_eq_getElem (hlength ▸ hi)⟩
  have htext : ∀ {i : Nat} {step}, steps[i]? = some step → ∃ text, texts[i]? = some text := by
    intro i step hs
    obtain ⟨hi, _⟩ := List.getElem?_eq_some_iff.1 hs
    exact ⟨_, List.getElem?_eq_getElem (hlength ▸ hi)⟩
  -- the variable of a step that keeps its key is set there
  have hset : ∀ {i : Nat} {step text}, steps[i]? = some step → texts[i]? = some text →
      step.Captures → b.variableOf steps i ∈ b.dialect.assigned (words text) := by
    intro i step text hs ht hc
    rw [(huses i step text hs ht).sets hc]
    exact List.mem_singleton_self _
  refine ⟨huses, ?_, ?_⟩
  · intro i step hs hc j text ht
    constructor
    · intro hm
      obtain ⟨step', hs'⟩ := hstep ht
      by_cases hc' : step'.Captures
      · rw [(huses j step' text hs' ht).sets hc', List.mem_singleton] at hm
        exact variableOf_inj hs' hs hc' hc hm.symm
      · rw [(huses j step' text hs' ht).sets_none hc'] at hm
        exact absurd hm List.not_mem_nil
    · rintro rfl
      exact hset hs ht hc
  · intro i text ht v hv
    obtain ⟨step, hs⟩ := hstep ht
    rcases (huses i step text hs ht).mentions v hv with ⟨hc, rfl⟩ | ⟨link, hlink, rfl⟩
    · exact ⟨i, Nat.le_refl i, text, ht, hset hs ht hc⟩
    · obtain ⟨hback, source, hsource, hc⟩ := hlinks i step hs link hlink
      obtain ⟨text', ht'⟩ := htext hsource
      exact ⟨link.step, Nat.le_of_lt hback, text', ht', hset hsource ht' hc⟩

/-- The text of a batch: its header, a line for each fragment, the commit and what follows it, with
the line that opens a key in front if there is one. -/
def Laid (b : Builder) (steps : List BatchStep) (texts : List (List Char)) (text : List Char) :
    Prop :=
  ∃ opening after,
    text = opening ++
      (lines ((b.dialect.batchHeader (b.variableNames steps)).map String.toList ++
        texts.map b.dialect.batchLine) ++ b.dialect.commitLine.toList ++ after) ∧
    (opening = [] ∨ ∃ keys, b.config.encryption = some keys ∧
      opening = (Dialect.keyOpening keys).toList)

/-- The text of a batch has the texts of its fragments. -/
theorem laid_finish {fragments : List Sql}
    (h : b.finish (b.dialect.batch ⟨b.templateVariables steps, fragments⟩) = .ok s) :
    b.Laid steps (Sql.textsFrom b.style 0 fragments) s.text.toList := by
  obtain ⟨rest, hrest⟩ := Dialect.exists_batch (d := b.dialect)
    ⟨b.templateVariables steps, fragments⟩
  obtain ⟨opening, after, htext, hopening⟩ := text_finish ((congrArg b.finish hrest).symm.trans h)
  have hnames : (b.templateVariables steps).map BatchVariable.name = b.variableNames steps := by
    rw [templateVariables, List.map_map, ← names_keyVariables]
    rfl
  rw [hnames, Dialect.charsFrom_batchLines] at htext
  exact ⟨opening, after, htext, hopening⟩

/-- **The variables of a batch are set before they are used.** A list with a link to anything but
an earlier step that keeps its key is refused, and no link that leads back misses its source. In
every other batch the names of the variables differ, the header declares them in the order of the
steps that keep their keys, and the fragments stand in the order of the steps between the header and
the commit. A variable of Oracle is spelled like a name, so there no table or column may be called
one. -/
theorem batch_variables (b : Builder) (steps : List BatchStep) :
    (¬ LinksBack steps → ∃ fault, b.batch steps = .error (.invalidEntity fault)) ∧
    (∀ i < steps.length, ∀ link,
      checkLink steps (b.keyVariables steps) i link = .error (.linkNotBackward i link.step) ↔
        i ≤ link.step) ∧
    ∀ s, b.batch steps = .ok s →
      LinksBack steps ∧
      (∀ i name, (b.keyVariables steps).lookup i = some name ↔
        (∃ step, steps[i]? = some step ∧ step.Captures) ∧ name = b.variableOf steps i) ∧
      (b.keyVariables steps).map Prod.snd = b.variableNames steps ∧
      (b.variableNames steps).Nodup ∧
      b.dialect.mentioned
        (words (lines ((b.dialect.batchHeader (b.variableNames steps)).map String.toList))) =
        b.variableNames steps ∧
      ∃ fragments,
        steps.zipIdx.mapM (fun p => b.stepBody (b.keyVariables steps) p.1 p.2) = .ok fragments ∧
        fragments.length = steps.length ∧
        b.Laid steps (Sql.textsFrom b.style 0 fragments) s.text.toList ∧
        ((b.dialect = .oracle → ∀ step ∈ steps, step.entity.AvoidsVariables .oracle) →
          b.SetsBeforeUse steps (Sql.textsFrom b.style 0 fragments)) := by
  refine ⟨batch_refused, fun i hi link => checkLink_notBackward hi link, ?_⟩
  intro s hs
  obtain ⟨sql, hbody, hfinish⟩ := batch_eq_ok.1 hs
  obtain ⟨_, hcheck, fragments, hfragments, rfl⟩ := batchBody_eq_ok.1 hbody
  have hlinks := checkLinks_eq_ok.1 hcheck
  have hlength : fragments.length = steps.length := by
    rw [← (mapM_eq_ok.1 hfragments).length_eq, List.length_zipIdx]
  have hlaid := laid_finish hfinish
  refine ⟨hlinks, fun i name => lookup_keyVariables, names_keyVariables, nodup_variableNames,
    mentioned_batchHeader _ _, fragments, hfragments, hlength, hlaid, fun havoids => ?_⟩
  refine setsBeforeUse_of_uses hlinks ((Sql.length_textsFrom 0).trans hlength) ?_
  intro i step text hi ht
  obtain ⟨fragment, n, hfragment, rfl⟩ := Sql.exists_of_getElem?_textsFrom ht
  have hstep := stepBody_of_getElem? hfragments hi hfragment
  have havoid : step.entity.AvoidsVariables b.dialect := by
    obtain ⟨d, hd⟩ : ∃ d, b.dialect = d := ⟨_, rfl⟩
    rw [hd]
    cases d with
    | sqlServer => exact Entity.avoidsVariables_sqlServer (stepBody_eq_ok.1 hstep).1
    | oracle => exact havoids hd step (List.mem_of_getElem? hi)
  exact (usesVariables_stepBody hi havoid hstep n).2

/-- An order, and a line of an order. -/
def order : BatchStep where
  operation := .insert
  entity :=
    ⟨"Orders", [{ Field.new "Id" .integer with isKey := true }, .new "Ref" .text],
      ⟨[("Ref", .string "A-1")], by decide⟩⟩
  links := []

/-- The order of a line is that of the first step. -/
def orderLine : BatchStep where
  operation := .insert
  entity :=
    ⟨"Lines", [{ Field.new "Id" .integer with isKey := true }, .new "OrderId" .integer,
      .new "Sku" .text], ⟨[("Sku", .string "S-7")], by decide⟩⟩
  links := [⟨"OrderId", 0⟩]

theorem batch_variables_orderLine :
    (∃ fault, (ofConfig (.new .oracle)).batch [orderLine, order] =
        .error (.invalidEntity fault)) ∧
      ∃ s texts, (ofConfig (.new .oracle)).batch [order, orderLine] = .ok s ∧
        (ofConfig (.new .oracle)).Laid [order, orderLine] texts s.text.toList ∧
        (ofConfig (.new .oracle)).SetsBeforeUse [order, orderLine] texts := by
  constructor
  · refine (batch_variables _ [orderLine, order]).1 fun hlinks => ?_
    have hback := (hlinks 0 orderLine rfl ⟨"OrderId", 0⟩ (List.mem_singleton_self _)).1
    exact Nat.lt_irrefl 0 hback
  · obtain ⟨s, hs⟩ : ∃ s, (ofConfig (.new .oracle)).batch [order, orderLine] = .ok s := ⟨_, rfl⟩
    obtain ⟨_, _, _, _, _, fragments, _, _, hlaid, hsets⟩ :=
      (batch_variables (ofConfig (.new .oracle)) [order, orderLine]).2.2 s hs
    refine ⟨s, _, hs, hlaid, hsets fun _ => ?_⟩
    unfold Entity.AvoidsVariables
    decide

end Builder

end RecordSql
