import RecordSql.Proofs.Success

/-!
# Runs that agree

Two runs **agree** when both succeed, with results that are related, or both fail with the same
error. A chain of steps agrees with another when their steps do, one after the other, so two
builders are compared step by step and refusals never need a look of their own.

Runs on different values need not agree: one of them may be refused for its value. They still
**match**, when nothing is said but of two results. So matching has a parameter for whether runs may
part in this way, and agreeing is matching without it.

A list of results is refused with the error of the first member that is refused, and what is said of
the refusals of every step holds of those of the chain.
-/

namespace RecordSql

namespace Checked

variable {ε α α' β β' : Type}

/-- Both runs succeed, with related results, or both fail with the same error. **Loose** runs may
also fail one without the other, or with an error of their own. -/
inductive Matches (loose : Prop) (R : α → α' → Prop) : Except ε α → Except ε α' → Prop where
  | ok {a : α} {a' : α'} : R a a' → Matches loose R (.ok a) (.ok a')
  | error (fault : ε) : Matches loose R (.error fault) (.error fault)
  | left (hloose : loose) (fault : ε) (y : Except ε α') : Matches loose R (.error fault) y
  | right (hloose : loose) (x : Except ε α) (fault : ε) : Matches loose R x (.error fault)

/-- Both runs succeed, with related results, or both fail with the same error. -/
inductive Agree (R : α → α' → Prop) : Except ε α → Except ε α' → Prop where
  | ok {a : α} {a' : α'} : R a a' → Agree R (.ok a) (.ok a')
  | error (fault : ε) : Agree R (.error fault) (.error fault)

variable {loose : Prop} {R : α → α' → Prop} {S : β → β' → Prop} {x : Except ε α}
  {y : Except ε α'} {fault : ε}

theorem Agree.matches (h : Agree R x y) : Matches loose R x y := by
  cases h with
  | ok h => exact .ok h
  | error fault => exact .error fault

namespace Matches

/-- Runs that are not loose agree. -/
theorem agree (h : Matches loose R x y) (hstrict : ¬ loose) : Agree R x y := by
  cases h with
  | ok h => exact .ok h
  | error fault => exact .error fault
  | left hloose _ _ => exact absurd hloose hstrict
  | right hloose _ _ => exact absurd hloose hstrict

/-- Loose runs are compared only when both succeed. -/
theorem of_loose (hloose : loose) (h : ∀ a a', x = .ok a → y = .ok a' → R a a') :
    Matches loose R x y := by
  cases x with
  | error fault => exact .left hloose fault y
  | ok a =>
    cases y with
    | error fault => exact .right hloose _ fault
    | ok a' => exact .ok (h a a' rfl rfl)

/-- A run matches one that is the same, or that it may part from. -/
theorem of_eq {R : α → α → Prop} {y : Except ε α} (hxy : ¬ loose → x = y)
    (h : ∀ a a', x = .ok a → y = .ok a' → R a a') : Matches loose R x y := by
  by_cases hloose : loose
  · exact of_loose hloose h
  · obtain rfl := hxy hloose
    cases x with
    | ok a => exact .ok (h a a rfl rfl)
    | error fault => exact .error fault

theorem refl {R : α → α → Prop} (h : ∀ a, x = .ok a → R a a) : Matches loose R x x := by
  cases x with
  | ok a => exact .ok (h a rfl)
  | error fault => exact .error fault

theorem related (h : Matches loose R x y) {a : α} {a' : α'} (hx : x = .ok a) (hy : y = .ok a') :
    R a a' := by
  cases h with
  | ok h =>
    obtain rfl := Except.ok.inj hx
    obtain rfl := Except.ok.inj hy
    exact h
  | error fault => exact absurd hx (by simp)
  | left _ _ _ => exact absurd hx (by simp)
  | right _ _ _ => exact absurd hy (by simp)

theorem imp {R' : α → α' → Prop} (h : Matches loose R x y) (hR : ∀ a a', R a a' → R' a a') :
    Matches loose R' x y := by
  cases h with
  | ok h => exact .ok (hR _ _ h)
  | error fault => exact .error fault
  | left hloose fault y => exact .left hloose fault y
  | right hloose x fault => exact .right hloose x fault

/-- What is related comes from the runs. -/
theorem with_ok (h : Matches loose R x y) :
    Matches loose (fun a a' => R a a' ∧ x = .ok a ∧ y = .ok a') x y := by
  cases h with
  | ok h => exact .ok ⟨h, rfl, rfl⟩
  | error fault => exact .error fault
  | left hloose fault y => exact .left hloose fault y
  | right hloose x fault => exact .right hloose x fault

/-- **Chains match when their steps do.** -/
theorem bind {f : α → Except ε β} {g : α' → Except ε β'} (h : Matches loose R x y)
    (hf : ∀ a a', R a a' → Matches loose S (f a) (g a')) :
    Matches loose S (x >>= f) (y >>= g) := by
  cases h with
  | ok h => exact hf _ _ h
  | error fault => exact .error fault
  | left hloose fault y => exact .left hloose fault _
  | right hloose x fault => exact .right hloose _ fault

/-- Chains that begin with the same step. -/
theorem bind_same {f : α → Except ε β} {g : α → Except ε β'}
    (hf : ∀ a, x = .ok a → Matches loose S (f a) (g a)) :
    Matches loose S (x >>= f) (x >>= g) := by
  cases x with
  | ok a => exact hf a rfl
  | error fault => exact .error fault

/-- Lists of results match when their members do. -/
theorem mapM {f : α → Except ε β} {g : α' → Except ε β'} {xs : List α} {ys : List α'}
    (h : List.Forall₂ (fun a a' => Matches loose S (f a) (g a')) xs ys) :
    Matches loose (List.Forall₂ S) (xs.mapM f) (ys.mapM g) := by
  induction h with
  | nil => exact .ok .nil
  | cons hxy _ ih =>
    rw [List.mapM_cons, List.mapM_cons]
    exact hxy.bind fun _ _ hb => ih.bind fun _ _ hbs => .ok (.cons hb hbs)

theorem mapM_same {f : α → Except ε β} {g : α → Except ε β'} {xs : List α}
    (h : ∀ a ∈ xs, Matches loose S (f a) (g a)) :
    Matches loose (List.Forall₂ S) (xs.mapM f) (xs.mapM g) :=
  mapM (List.forall₂_same.2 h)

/-- Lists match when the members of one are those of the other, changed. -/
theorem mapM_map {u : α → α'} {f : α → Except ε β} {g : α' → Except ε β'} {xs : List α}
    (h : ∀ a ∈ xs, Matches loose S (f a) (g (u a))) :
    Matches loose (List.Forall₂ S) (xs.mapM f) ((xs.map u).mapM g) :=
  mapM (List.forall₂_map_right_iff.2 (List.forall₂_same.2 h))

/-- Two folds match when each of their steps does. -/
theorem foldlM {f : β → α → Except ε β} {g : β' → α → Except ε β'} {xs : List α}
    (h : ∀ a ∈ xs, ∀ b b', S b b' → Matches loose S (f b a) (g b' a)) {b : β} {b' : β'}
    (hb : S b b') : Matches loose S (xs.foldlM f b) (xs.foldlM g b') := by
  induction xs generalizing b b' with
  | nil => exact .ok hb
  | cons a rest ih =>
    obtain ⟨ha, hrest⟩ := List.forall_mem_cons.1 h
    rw [List.foldlM_cons, List.foldlM_cons]
    exact (ha b b' hb).bind fun _ _ => ih hrest

/-- Naming the cause in another way changes nothing. -/
theorem mapError {ε' : Type} (name : ε → ε') (h : Matches loose R x y) :
    Matches loose R (x.mapError name) (y.mapError name) := by
  cases h with
  | ok h => exact .ok h
  | error fault => exact .error _
  | left hloose fault y => exact .left hloose _ _
  | right hloose x fault => exact .right hloose _ _

theorem ofEntity {x : Except EntityFault α} {y : Except EntityFault α'} (h : Matches loose R x y) :
    Matches loose R (Checked.ofEntity x) (Checked.ofEntity y) := by
  cases h with
  | ok h => exact .ok h
  | error fault => exact .error _
  | left hloose fault y => exact .left hloose _ _
  | right hloose x fault => exact .right hloose _ _

theorem ofFilter {x : Except FilterFault α} {y : Except FilterFault α'} (h : Matches loose R x y) :
    Matches loose R (Checked.ofFilter x) (Checked.ofFilter y) := by
  cases h with
  | ok h => exact .ok h
  | error fault => exact .error _
  | left hloose fault y => exact .left hloose _ _
  | right hloose x fault => exact .right hloose _ _

end Matches

namespace Agree

theorem imp {R' : α → α' → Prop} (h : Agree R x y) (hR : ∀ a a', R a a' → R' a a') :
    Agree R' x y :=
  (h.matches.imp hR).agree not_false

/-- A run agrees with itself. -/
theorem refl {R : α → α → Prop} (h : ∀ a, x = .ok a → R a a) : Agree R x x :=
  (Matches.refl h).agree not_false

/-- Runs that agree on equal results are the same. -/
theorem eq {y : Except ε α} (h : Agree Eq x y) : x = y := by
  cases h with
  | ok h => exact congrArg _ h
  | error fault => rfl

theorem eq_of_forall₂ {x y : Except ε (List α)} (h : Agree (List.Forall₂ Eq) x y) : x = y := by
  rw [List.forall₂_eq_eq_eq] at h
  exact h.eq

theorem isOk_iff (h : Agree R x y) : (∃ a, x = .ok a) ↔ ∃ a', y = .ok a' := by
  cases h with
  | ok h => exact iff_of_true ⟨_, rfl⟩ ⟨_, rfl⟩
  | error fault => exact iff_of_false (by simp) (by simp)

theorem error_iff (h : Agree R x y) : x = .error fault ↔ y = .error fault := by
  cases h with
  | ok h => simp
  | error fault' => simp

theorem related (h : Agree R x y) {a : α} {a' : α'} (hx : x = .ok a) (hy : y = .ok a') :
    R a a' :=
  have hmatches : Matches False R x y := h.matches
  hmatches.related hx hy

/-- What is related comes from the runs. -/
theorem with_ok (h : Agree R x y) :
    Agree (fun a a' => R a a' ∧ x = .ok a ∧ y = .ok a') x y :=
  h.matches.with_ok.agree not_false

/-- **Chains agree when their steps do.** -/
theorem bind {f : α → Except ε β} {g : α' → Except ε β'} (h : Agree R x y)
    (hf : ∀ a a', R a a' → Agree S (f a) (g a')) : Agree S (x >>= f) (y >>= g) :=
  (h.matches.bind fun a a' ha => (hf a a' ha).matches).agree not_false

/-- Chains that begin with the same step. -/
theorem bind_same {f : α → Except ε β} {g : α → Except ε β'}
    (hf : ∀ a, x = .ok a → Agree S (f a) (g a)) : Agree S (x >>= f) (x >>= g) :=
  (Matches.bind_same fun a ha => (hf a ha).matches).agree not_false

/-- Lists of results agree when their members do. -/
theorem mapM {f : α → Except ε β} {g : α' → Except ε β'} {xs : List α} {ys : List α'}
    (h : List.Forall₂ (fun a a' => Agree S (f a) (g a')) xs ys) :
    Agree (List.Forall₂ S) (xs.mapM f) (ys.mapM g) :=
  (Matches.mapM (h.imp fun _ _ => Agree.matches)).agree not_false

theorem mapM_same {f : α → Except ε β} {g : α → Except ε β'} {xs : List α}
    (h : ∀ a ∈ xs, Agree S (f a) (g a)) : Agree (List.Forall₂ S) (xs.mapM f) (xs.mapM g) :=
  mapM (List.forall₂_same.2 h)

theorem ofEntity {x : Except EntityFault α} {y : Except EntityFault α'} (h : Agree R x y) :
    Agree R (Checked.ofEntity x) (Checked.ofEntity y) :=
  h.matches.ofEntity.agree not_false

theorem ofFilter {x : Except FilterFault α} {y : Except FilterFault α'} (h : Agree R x y) :
    Agree R (Checked.ofFilter x) (Checked.ofFilter y) :=
  h.matches.ofFilter.agree not_false

end Agree

/-! ## Lists that match -/

/-- Lists whose members give the same give the same. -/
theorem flatMap_eq_of_forall₂ {γ : Type} {f : α → List γ} {g : β → List γ} {xs : List α}
    {ys : List β} (h : List.Forall₂ (fun x y => f x = g y) xs ys) :
    xs.flatMap f = ys.flatMap g := by
  induction h with
  | nil => rfl
  | cons hxy _ ih => rw [List.flatMap_cons, List.flatMap_cons, hxy, ih]

/-- What may be missing matches itself. -/
theorem rel_refl {R : α → α → Prop} (h : ∀ a, R a a) (o : Option α) : Option.Rel R o o := by
  cases o with
  | none => exact .none
  | some a => exact .some (h a)

/-- The members in one place match, or there are none. -/
theorem getElem?_forall₂ {R : α → β → Prop} {xs : List α} {ys : List β} (h : List.Forall₂ R xs ys)
    (i : Nat) : Option.Rel R xs[i]? ys[i]? := by
  induction h generalizing i with
  | nil => exact .none
  | cons hxy _ ih =>
    cases i with
    | zero => exact .some hxy
    | succ i => exact ih i

/-- Members that match have the same number. -/
theorem zipIdx_forall₂ {R : α → β → Prop} {xs : List α} {ys : List β} (h : List.Forall₂ R xs ys)
    (n : Nat) :
    List.Forall₂ (fun x y => R x.1 y.1 ∧ x.2 = y.2) (xs.zipIdx n) (ys.zipIdx n) := by
  induction h generalizing n with
  | nil => exact .nil
  | cons hx _ ih => exact .cons ⟨hx, rfl⟩ (ih (n + 1))

/-- What looks the same in every pair looks the same in the lists. -/
theorem map_eq_of_forall₂ {γ : Type} {f : α → γ} {g : β → γ} {xs : List α} {ys : List β}
    (h : List.Forall₂ (fun x y => f x = g y) xs ys) : xs.map f = ys.map g := by
  rw [← List.forall₂_eq_eq_eq, List.forall₂_map_left_iff, List.forall₂_map_right_iff]
  exact h

/-! ## Runs that are the same -/

/-- Two lists of results are the same when their members are. -/
theorem mapM_congr_forall₂ {f : α → Except ε β} {g : α' → Except ε β} {xs : List α}
    {ys : List α'} (h : List.Forall₂ (fun a a' => f a = g a') xs ys) :
    xs.mapM f = ys.mapM g := by
  induction h with
  | nil => rfl
  | cons ha _ ih => rw [List.mapM_cons, List.mapM_cons, ha, ih]

theorem mapM_congr {f g : α → Except ε β} {xs : List α} (h : ∀ a ∈ xs, f a = g a) :
    xs.mapM f = xs.mapM g :=
  mapM_congr_forall₂ (List.forall₂_same.2 h)

/-- Going through two lists is the same when it is for their members. -/
theorem forM_congr_forall₂ {f : α → Except ε PUnit} {g : α' → Except ε PUnit} {xs : List α}
    {ys : List α'} (h : List.Forall₂ (fun a a' => f a = g a') xs ys) : xs.forM f = ys.forM g := by
  induction h with
  | nil => rfl
  | cons ha _ ih => rw [List.forM, List.forM, ha, ih]

/-! ## The first refusal -/

/-- A list of results can be given just when every member can. -/
theorem exists_mapM_eq_ok {f : α → Except ε β} {xs : List α} :
    (∃ ys, xs.mapM f = .ok ys) ↔ ∀ a ∈ xs, ∃ b, f a = .ok b := by
  simp only [mapM_eq_ok]
  constructor
  · rintro ⟨ys, h⟩ a ha
    obtain ⟨b, _, hb⟩ := exists_right_of_forall₂ h ha
    exact ⟨b, hb⟩
  · intro h
    induction xs with
    | nil => exact ⟨[], .nil⟩
    | cons a rest ih =>
      obtain ⟨⟨b, hb⟩, hrest⟩ := List.forall_mem_cons.1 h
      obtain ⟨ys, hys⟩ := ih hrest
      exact ⟨b :: ys, .cons hb hys⟩

/-- **A list of results is refused with the error of the first member that is refused.** -/
theorem mapM_eq_error {f : α → Except ε β} {xs : List α} {fault : ε} :
    xs.mapM f = .error fault ↔
      ∃ before a after, xs = before ++ a :: after ∧ (∀ earlier ∈ before, ∃ b, f earlier = .ok b) ∧
        f a = .error fault := by
  induction xs with
  | nil => simp [pure, Except.pure]
  | cons x rest ih =>
    rw [List.mapM_cons]
    cases hx : f x with
    | error fault' =>
      show Except.error fault' = .error fault ↔ _
      constructor
      · intro h
        exact ⟨[], x, rest, rfl, List.forall_mem_nil _, hx.trans (congrArg _ (Except.error.inj h))⟩
      · rintro ⟨before, a, after, hsplit, hbefore, ha⟩
        -- nothing stands in front of the first member, which is refused
        cases before with
        | nil =>
          obtain ⟨rfl, _⟩ := List.cons.inj hsplit
          exact congrArg _ (Except.error.inj (hx.symm.trans ha))
        | cons b before =>
          obtain ⟨rfl, _⟩ := List.cons.inj hsplit
          obtain ⟨y, hy⟩ := hbefore x List.mem_cons_self
          exact absurd (hx.symm.trans hy) (by simp)
    | ok y =>
      have hrest : (((Except.ok y : Except ε β) >>= fun y => rest.mapM f >>= fun ys =>
          pure (y :: ys)) = .error fault) ↔ rest.mapM f = .error fault := by
        cases rest.mapM f with
        | ok ys => simp [bind, Except.bind, pure, Except.pure]
        | error fault' => simp [bind, Except.bind]
      rw [hrest, ih]
      constructor
      · rintro ⟨before, a, after, rfl, hbefore, ha⟩
        exact ⟨x :: before, a, after, rfl, List.forall_mem_cons.2 ⟨⟨y, hx⟩, hbefore⟩, ha⟩
      · rintro ⟨before, a, after, hsplit, hbefore, ha⟩
        cases before with
        | nil =>
          obtain ⟨rfl, _⟩ := List.cons.inj hsplit
          exact absurd (hx.symm.trans ha) (by simp)
        | cons b before =>
          obtain ⟨_, rfl⟩ := List.cons.inj hsplit
          exact ⟨before, a, after, rfl, (List.forall_mem_cons.1 hbefore).2, ha⟩

/-! ## Why a run is refused -/

/-- Whatever the run is refused for, it is something of this kind. -/
def Refuses (P : ε → Prop) (x : Except ε α) : Prop := ∀ fault, x = .error fault → P fault

namespace Refuses

variable {P : ε → Prop}

theorem ok (a : α) : Refuses P (.ok a : Except ε α) := fun _ h => absurd h (by simp)

theorem error {fault : ε} (h : P fault) : Refuses P (.error fault : Except ε α) := fun _ he =>
  Except.error.inj he ▸ h

theorem bind {x : Except ε α} {f : α → Except ε β} (hx : Refuses P x)
    (hf : ∀ a, x = .ok a → Refuses P (f a)) : Refuses P (x >>= f) := by
  cases x with
  | ok a => exact hf a rfl
  | error fault => exact .error (hx fault rfl)

/-- A list of results is refused for what one of its members is refused for. -/
theorem mapM {f : α → Except ε β} {xs : List α} (h : ∀ a ∈ xs, Refuses P (f a)) :
    Refuses P (xs.mapM f) := by
  intro fault hx
  obtain ⟨before, a, after, rfl, _, ha⟩ := mapM_eq_error.1 hx
  exact h a (List.mem_append_right _ List.mem_cons_self) fault ha

theorem of_entity {P : QueryError → Prop} {x : Except EntityFault α}
    (h : ∀ fault, P (.invalidEntity fault)) : Refuses P (ofEntity x) := by
  cases x with
  | ok a => exact .ok a
  | error fault => exact .error (h fault)

theorem of_filter {P : QueryError → Prop} {x : Except FilterFault α}
    (h : ∀ fault, P (.invalidFilter fault)) : Refuses P (ofFilter x) := by
  cases x with
  | ok a => exact .ok a
  | error fault => exact .error (h fault)

end Refuses

end Checked

end RecordSql
