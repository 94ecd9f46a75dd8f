import Mathlib.Logic.Function.Basic
import Mathlib.Order.Bounds.Basic
import RecordSql.Aggregation

/-!
# The numbers of repeated aliases

An alias that is taken gets the least number, from one on, that makes it free. That is a rule about
one alias and the names before it, and it looks at every number anew. The names are given out in
another way: every alias has a counter, a search goes on from where the last one for the same alias
stopped, and no counter ever goes back.

* A name that was given stays taken. So whatever a counter has passed is still taken when the alias
  comes again, and the first free number from the counter on is the least of all.
* It does not matter which alias took a name: `A` with eleven and `A1` with one are the same name,
  and the counters of both only ever pass what is taken.

The search goes through one candidate after the other. A candidate that is taken can be struck off
the names, as no later number spells it again, so every search ends.
-/

namespace RecordSql.Aggregation

variable {label name : String} {taken labels names : List String} {k : Nat}

/-! ## The rule -/

/-- The name that an alias gets when some names are taken: the alias itself if it is free, or else
the alias with the least number, from one on, that makes it free. -/
inductive Gets (taken : List String) (label : String) : String → Prop where
  | own : label ∉ taken → Gets taken label label
  | suffixed {k : Nat} : label ∈ taken → IsLeast {k | 1 ≤ k ∧ numbered label k ∉ taken} k →
      Gets taken label (numbered label k)

/-- Names that aliases get by the rule, each from what the names before it leave free. -/
structure Numbering (labels names : List String) : Prop where
  length : names.length = labels.length
  gets : ∀ i label, labels[i]? = some label →
    ∃ name, names[i]? = some name ∧ Gets (names.take i) label name

theorem Gets.not_mem (h : Gets taken label name) : name ∉ taken := by
  cases h with
  | own hfree => exact hfree
  | suffixed _ hk => exact hk.1.2

/-- Only which names are taken matters. -/
theorem Gets.congr {taken' : List String} (h : Gets taken label name)
    (hsame : ∀ x, x ∈ taken ↔ x ∈ taken') : Gets taken' label name := by
  cases h with
  | own hfree => exact .own (mt (hsame _).2 hfree)
  | suffixed hlabel hk =>
    refine .suffixed ((hsame _).1 hlabel) ⟨⟨hk.1.1, mt (hsame _).2 hk.1.2⟩, ?_⟩
    intro j hj
    exact hk.2 ⟨hj.1, mt (hsame _).1 hj.2⟩

/-- The rule leaves no choice. -/
theorem Gets.unique {name' : String} (h : Gets taken label name) (h' : Gets taken label name') :
    name = name' := by
  cases h with
  | own hfree =>
    cases h' with
    | own _ => rfl
    | suffixed hlabel _ => exact absurd hlabel hfree
  | suffixed hlabel hk =>
    cases h' with
    | own hfree => exact absurd hlabel hfree
    | suffixed _ hk' => rw [hk.unique hk']

theorem Numbering.nodup (h : Numbering labels names) : names.Nodup := by
  refine List.pairwise_iff_getElem.2 fun i j hi hj hlt heq => ?_
  obtain ⟨name, hname, hgets⟩ := h.gets j _ (List.getElem?_eq_getElem (h.length ▸ hj))
  obtain rfl : names[j] = name := List.getElem_eq_iff hj |>.2 hname
  -- the name in the earlier place is one of those that were taken
  refine hgets.not_mem (List.mem_take_iff_getElem.2 ⟨i, ?_, heq⟩)
  omega

/-- The names before some place determine the next one, so all of them are determined. -/
theorem Numbering.unique {names' : List String} (h : Numbering labels names)
    (h' : Numbering labels names') : names = names' := by
  have htake : ∀ i, names.take i = names'.take i := by
    intro i
    induction i with
    | zero => rfl
    | succ i ih =>
      rw [List.take_add_one, List.take_add_one, ih]
      cases hlabel : labels[i]? with
      | none =>
        have hend := List.getElem?_eq_none_iff.1 hlabel
        rw [List.getElem?_eq_none (h.length ▸ hend), List.getElem?_eq_none (h'.length ▸ hend)]
      | some label =>
        obtain ⟨name, hname, hgets⟩ := h.gets i label hlabel
        obtain ⟨name', hname', hgets'⟩ := h'.gets i label hlabel
        rw [ih] at hgets
        rw [hname, hname', hgets.unique hgets']
  have hall := htake names.length
  rwa [List.take_length, h.length, ← h'.length, List.take_length] at hall

/-! ## Searches -/

/-- The search for a free name, from a candidate on and with the number to try next. It ends with a
candidate that is free, and with the number that would have come after it. -/
inductive Search (label : String) (taken : List String) : String → Nat → String → Nat → Prop where
  | found {name : String} {k : Nat} : name ∉ taken → Search label taken name k name k
  | retry {name found : String} {k last : Nat} : name ∈ taken →
      Search label taken (numbered label k) (k + 1) found last →
      Search label taken name k found last

/-- Names given out by one search after the other. Every alias has a counter of its own, which is
left where the search for the alias has ended. -/
inductive Searches : List String → (String → Nat) → List String → List String → Prop where
  | nil {taken : List String} {counter : String → Nat} : Searches taken counter [] []
  | cons {taken labels names : List String} {counter : String → Nat} {label name : String}
      {last : Nat} : Search label taken label (counter label) name last →
      Searches (name :: taken) (Function.update counter label last) labels names →
      Searches taken counter (label :: labels) (name :: names)

/-- Below the counter of an alias, every number of it is taken. -/
def Counted (taken : List String) (counter : String → Nat) : Prop :=
  ∀ label, 1 ≤ counter label ∧ ∀ j, 1 ≤ j → j < counter label → numbered label j ∈ taken

/-- A search stays with a free candidate, or goes to the first number that is free. -/
theorem Search.cases_free {found : String} {last : Nat} (h : Search label taken name k found last) :
    (name ∉ taken ∧ found = name ∧ last = k) ∨
      (name ∈ taken ∧ ∃ m, k ≤ m ∧ found = numbered label m ∧ last = m + 1 ∧
        numbered label m ∉ taken ∧ ∀ j, k ≤ j → j < m → numbered label j ∈ taken) := by
  induction h with
  | found hfree => exact .inl ⟨hfree, rfl, rfl⟩
  | @retry name found k last hname _ ih =>
    refine .inr ⟨hname, ?_⟩
    rcases ih with ⟨hfree, rfl, rfl⟩ | ⟨hk, m, hm, rfl, rfl, hfree, hbelow⟩
    · exact ⟨k, Nat.le_refl k, rfl, rfl, hfree, fun j hj hlt => by omega⟩
    · refine ⟨m, by omega, rfl, rfl, hfree, fun j hj hlt => ?_⟩
      by_cases hjk : j = k
      · exact hjk ▸ hk
      · exact hbelow j (by omega) hlt

/-- **A search from the counter on finds what the rule gives**, and leaves the counter where
everything below it is taken. -/
theorem Search.gets {counter : String → Nat} {last : Nat} (hc : Counted taken counter)
    (h : Search label taken label (counter label) name last) :
    Gets taken label name ∧ Counted (name :: taken) (Function.update counter label last) := by
  obtain ⟨hone, hbelow⟩ := hc label
  have hkeep : ∀ other, 1 ≤ counter other ∧
      ∀ j, 1 ≤ j → j < counter other → numbered other j ∈ name :: taken := fun other =>
    ⟨(hc other).1, fun j hj hlt => List.mem_cons_of_mem _ ((hc other).2 j hj hlt)⟩
  rcases h.cases_free with ⟨hfree, rfl, rfl⟩ | ⟨htaken, m, hm, rfl, rfl, hfree, hpassed⟩
  · refine ⟨.own hfree, ?_⟩
    rw [Function.update_eq_self]
    exact hkeep
  · have hall : ∀ j, 1 ≤ j → j < m → numbered label j ∈ taken := by
      intro j hj hlt
      by_cases hlow : j < counter label
      · exact hbelow j hj hlow
      · exact hpassed j (by omega) hlt
    refine ⟨.suffixed htaken ⟨⟨by omega, hfree⟩, ?_⟩, ?_⟩
    · -- a free number is not below the one that was found
      intro j hj
      by_contra hlt
      exact hj.2 (hall j hj.1 (by omega))
    · intro other
      by_cases hother : other = label
      · subst hother
        rw [Function.update_self]
        refine ⟨by omega, fun j hj hlt => ?_⟩
        by_cases hjm : j = m
        · exact hjm ▸ List.mem_cons_self
        · exact List.mem_cons_of_mem _ (hall j hj (by omega))
      · rw [Function.update_of_ne hother]
        exact hkeep other

/-- What searches give out obeys the rule, names that were taken before included. -/
theorem Searches.gets {counter : String → Nat} (hc : Counted taken counter)
    (h : Searches taken counter labels names) :
    names.length = labels.length ∧ ∀ i label, labels[i]? = some label →
      ∃ name, names[i]? = some name ∧ Gets (names.take i ++ taken) label name := by
  induction h with
  | nil => exact ⟨rfl, fun i label hlabel => absurd hlabel (by simp)⟩
  | @cons taken labels names counter label name last hsearch _ ih =>
    obtain ⟨hgets, hc'⟩ := hsearch.gets hc
    obtain ⟨hlength, hrest⟩ := ih hc'
    refine ⟨congrArg (· + 1) hlength, fun i label' hlabel => ?_⟩
    cases i with
    | zero =>
      obtain rfl : label = label' := Option.some.inj hlabel
      exact ⟨name, rfl, hgets⟩
    | succ i =>
      obtain ⟨name', hname', hgets'⟩ := hrest i label' hlabel
      refine ⟨name', hname', hgets'.congr fun x => ?_⟩
      simp only [List.take_succ_cons, List.cons_append, List.mem_append, List.mem_cons]
      tauto

theorem Searches.numbering (h : Searches [] (fun _ => 1) labels names) :
    Numbering labels names := by
  have hc : Counted [] fun _ => 1 :=
    fun _ => ⟨Nat.le_refl 1, fun _ hj hlt => absurd hlt (Nat.not_lt.2 hj)⟩
  obtain ⟨hlength, hgets⟩ := h.gets hc
  refine ⟨hlength, fun i label hlabel => ?_⟩
  obtain ⟨name, hname, hg⟩ := hgets i label hlabel
  exact ⟨name, hname, by rwa [List.append_nil] at hg⟩

/-! ## Giving out names -/

/-- Different numbers make different names of an alias. -/
theorem numbered_injective (label : String) : Function.Injective (numbered label) := by
  intro i j h
  have hlist : label.toList ++ Nat.toDigits 10 i = label.toList ++ Nat.toDigits 10 j := by
    have hchars := congrArg String.toList h
    simpa only [numbered, String.toList_append, Nat.toString_eq_repr, Nat.toList_repr] using hchars
  -- reading the digits gives the number back
  have hread := congrArg (fun digits => Nat.ofDigitChars 10 digits 0)
    (List.append_cancel_left hlist)
  rwa [Nat.ofDigitChars_ten_toDigits, Nat.ofDigitChars_ten_toDigits] at hread

/-- The first free number is free, and every number passed is taken. Striking off a name that was
passed changes nothing for the numbers behind it. -/
theorem firstFree_spec (label : String) (taken : List String) (k : Nat) :
    k ≤ firstFree label taken k ∧ numbered label (firstFree label taken k) ∉ taken ∧
      ∀ j, k ≤ j → j < firstFree label taken k → numbered label j ∈ taken := by
  fun_induction firstFree label taken k with
  | case1 taken k hk ih =>
    obtain ⟨hle, hfree, hbelow⟩ := ih
    have herase : ∀ j, k + 1 ≤ j →
        (numbered label j ∈ taken.erase (numbered label k) ↔ numbered label j ∈ taken) := by
      intro j hj
      refine List.mem_erase_of_ne fun he => ?_
      have := numbered_injective label he
      omega
    refine ⟨by omega, mt (herase _ hle).2 hfree, fun j hj hlt => ?_⟩
    by_cases hjk : j = k
    · exact hjk ▸ hk
    · exact (herase j (by omega)).1 (hbelow j (by omega) hlt)
  | case2 taken k hk => exact ⟨Nat.le_refl k, hk, fun j hj hlt => by omega⟩

/-- A search that finds its candidate taken goes through the numbers up to the first free one. -/
theorem search_of_first {m : Nat} (hname : name ∈ taken) (hle : k ≤ m)
    (hfree : numbered label m ∉ taken)
    (hbelow : ∀ j, k ≤ j → j < m → numbered label j ∈ taken) :
    Search label taken name k (numbered label m) (m + 1) := by
  obtain ⟨d, rfl⟩ := Nat.exists_eq_add_of_le hle
  induction d generalizing k name with
  | zero => exact .retry hname (.found hfree)
  | succ d ih =>
    have hk : numbered label k ∈ taken := hbelow k (Nat.le_refl k) (by omega)
    have hstep : k + (d + 1) = k + 1 + d := by omega
    rw [hstep] at hfree hbelow ⊢
    exact .retry hname (ih hk (by omega) hfree fun j hj hlt => hbelow j (by omega) hlt)

/-- The number that is tried first when the alias is taken. -/
def AliasState.counter (state : AliasState) (label : String) : Nat :=
  (state.next.lookup label).getD 1

/-- **An alias is given out by a search from its counter on.** -/
theorem AliasState.search_give (state : AliasState) (label : String) :
    ∃ last, Search label state.taken label (state.counter label) (state.give label).1 last ∧
      (state.give label).2.taken = (state.give label).1 :: state.taken ∧
      (state.give label).2.counter = Function.update state.counter label last := by
  unfold AliasState.give
  by_cases htaken : label ∈ state.taken
  · obtain ⟨hle, hfree, hbelow⟩ := firstFree_spec label state.taken (state.counter label)
    rw [if_pos htaken]
    refine ⟨_, search_of_first htaken hle hfree hbelow, rfl, ?_⟩
    funext other
    unfold AliasState.counter
    by_cases hother : other = label
    · subst hother
      rw [Function.update_self, List.lookup_cons_self, Option.getD_some]
    · rw [Function.update_of_ne hother, List.lookup_cons, beq_false_of_ne hother]
  · rw [if_neg htaken]
    exact ⟨_, .found htaken, rfl, (Function.update_eq_self label _).symm⟩

theorem searches_giveAll (state : AliasState) (labels : List String) :
    Searches state.taken state.counter labels (giveAll state labels) := by
  induction labels generalizing state with
  | nil => exact .nil
  | cons label labels ih =>
    obtain ⟨last, hsearch, htaken, hcounter⟩ := state.search_give label
    have hrest := ih (state.give label).2
    rw [htaken, hcounter] at hrest
    exact .cons hsearch hrest

/-- **A repeated alias gets its least free number.** The aliases of an aggregation are the one list
that gives every function a name, the alias itself or the alias with the least number that the names
before it leave free. No name comes twice, and the searches that find them all end. -/
theorem resolvedAliases_numbering (a : Aggregation) :
    (∀ names, names = a.resolvedAliases ↔
      Numbering (a.columns.map AggregateColumn.aliasOrDefault) names) ∧
    a.resolvedAliases.Nodup ∧
    Searches [] (fun _ => 1) (a.columns.map AggregateColumn.aliasOrDefault) a.resolvedAliases := by
  have hsearches := searches_giveAll ⟨[], []⟩ (a.columns.map AggregateColumn.aliasOrDefault)
  have hnumbering := hsearches.numbering
  refine ⟨fun names => ?_, hnumbering.nodup, hsearches⟩
  constructor
  · rintro rfl
    exact hnumbering
  · intro h
    exact h.unique hnumbering

example : giveAll ⟨[], []⟩ ["A", "A1", "A", "A1", "A"] = ["A", "A1", "A2", "A11", "A3"] := by cbv

end RecordSql.Aggregation
