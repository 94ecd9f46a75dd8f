import RecordSql.Proofs.WireForm

/-!
# Searches in stored listings

A listing is stored as JSON, its predicates in their wire form. Everything else of a listing comes
back as it was: counts, flags, names and sorts have a JSON form of their own. So reading a stored
listing again comes down to reading its predicates again, the global one and that of each column.
-/

namespace RecordSql

open Checked

/-! ## Members of a stored record -/

namespace Json

/-- Members of different names are found by their names. -/
theorem record?_object {names : List String} {members : List (String × Json)}
    (h : (members.map Prod.fst).Nodup) :
    record? names (.object members) = some fun name => members.lookup name := by
  unfold record?
  refine if_neg ?_
  intro hany
  obtain ⟨name, _, hname⟩ := List.any_eq_true.1 hany
  have hone := List.nodup_iff_count.1 h name
  rw [List.count, List.countP_map] at hone
  exact Nat.not_lt.2 hone (of_decide_eq_true hname)

variable {α : Type} {write : α → Json}

theorem lookup_optionalMember (name key : String) (a : Option α) :
    (optionalMember name write a).lookup key = if key = name then a.map write else none := by
  cases a with
  | none => exact (ite_self none).symm
  | some a =>
    by_cases h : key = name
    · simp [optionalMember, h]
    · simp [optionalMember, List.lookup_cons, h, beq_false_of_ne h]

theorem optionalMember_names (name : String) (a : Option α) :
    ((optionalMember name write a).map Prod.fst).Sublist [name] := by
  cases a with
  | none => exact List.nil_sublist _
  | some a => exact List.Sublist.refl _

theorem uint64?_count (n : UInt64) : uint64? (Listing.countJson n) = some n := by
  have hn : (Number.ofUInt64 n).toNat? = some n.toNat := by simp [Number.ofUInt64, Number.toNat?]
  rw [Listing.countJson, uint64?, hn, Option.map_some, UInt64.ofNat_toNat]

theorem optional_count (n : Option UInt64) :
    optional (n.map Listing.countJson) uint64? = some n := by
  cases n with
  | none => rfl
  | some n => exact congrArg (Option.map some) (uint64?_count n)

end Json

/-! ## Reading back -/

namespace Predicate

/-- A search comes back just when it reads back from its wire form. -/
theorem member?_eq_self {search : Option Predicate} :
    member? (search.map toJson) = some search ↔
      ∀ p ∈ search.toList, parse p.wire = .ok (some p) := by
  cases search with
  | none => simp [member?]
  | some p =>
    rw [Option.toList_some, List.forall_mem_singleton]
    simp only [Option.map_some, toJson, member?]
    cases parse p.wire with
    | error fault => simp [Except.toOption]
    | ok q => simp [Except.toOption]

/-- A stored search is one that was read from a text. -/
theorem parse_of_member? {value : Option Json} {p : Predicate}
    (h : member? value = some (some p)) : ∃ text, parse text = .ok (some p) := by
  unfold member? at h
  split at h
  · simp at h
  · simp at h
  · next text =>
    cases hp : parse text with
    | error fault => simp [hp, Except.toOption] at h
    | ok q =>
      rw [hp] at h
      obtain rfl : q = some p := Option.some.inj h
      exact ⟨text, hp⟩
  · simp at h

end Predicate

/-- A column comes back with the search that its stored one reads as. -/
theorem ListColumn.ofJson?_toJson (c : ListColumn) :
    ListColumn.ofJson? c.toJson =
      (Predicate.member? (c.search.map Predicate.toJson)).map fun search =>
        { c with search } := by
  have hnames : (([("data", Json.string c.data), ("searchable", .bool c.searchable)] ++
      Json.optionalMember "search" Predicate.toJson c.search).map Prod.fst).Nodup := by
    rw [List.map_append]
    exact ((Json.optionalMember_names "search" c.search).append_left
      ["data", "searchable"]).nodup (by decide)
  rw [ofJson?, toJson, Json.record?_object hnames]
  simp only [List.lookup_append, Json.lookup_optionalMember, Option.bind_eq_bind]
  simp only [List.lookup_cons, List.lookup_nil, Option.map_eq_bind, Json.needed, Json.orElse,
    Json.bool?, Json.string?, Option.pure_def, Option.bind_some, BEq.rfl, String.reduceEq,
    String.reduceBEq, ↓reduceIte, Option.or_none, Option.none_or]
  rfl

/-- A column comes back with the search it had just when that reads back. -/
theorem ListColumn.readBack (c : ListColumn) {c' : ListColumn} :
    ListColumn.ofJson? c.toJson = some c' ∧ c'.search = c.search ↔
      c' = c ∧ ∀ p ∈ c.search.toList, Predicate.parse p.wire = .ok (some p) := by
  rw [c.ofJson?_toJson, ← Predicate.member?_eq_self, Option.map_eq_some_iff]
  constructor
  · rintro ⟨⟨search, hsearch, rfl⟩, rfl⟩
    exact ⟨rfl, hsearch⟩
  · rintro ⟨rfl, hsearch⟩
    exact ⟨⟨_, hsearch, rfl⟩, rfl⟩

/-- The search of a column that was read was read from a text. -/
theorem ListColumn.parse_of_ofJson? {value : Json} {c : ListColumn} {p : Predicate}
    (h : ofJson? value = some c) (hp : c.search = some p) :
    ∃ text, Predicate.parse text = .ok (some p) := by
  simp only [ofJson?, Option.bind_eq_bind, Option.bind_eq_some_iff] at h
  obtain ⟨member, _, data, _, searchable, _, search, hsearch, h⟩ := h
  obtain rfl := Option.some.inj h
  obtain rfl : search = some p := hp
  exact Predicate.parse_of_member? hsearch

theorem SortDirection.ofJson?_wireName (d : SortDirection) :
    ofJson? (.string d.wireName) = some d := by
  cases d with
  | asc => rfl
  | desc => rfl

/-- A sort comes back as it was. -/
theorem SortTerm.ofJson?_toJson (s : SortTerm) : SortTerm.ofJson? s.toJson = some s := by
  have hcolumn := Json.uint64?_count s.column
  rw [Listing.countJson] at hcolumn
  rw [ofJson?, toJson, Json.record?_object (by simp)]
  simp [List.lookup_cons, Json.needed, Json.orElse, hcolumn, SortDirection.ofJson?_wireName]

/-- Reading the items of an array is reading each. -/
theorem Json.list?_array {α β : Type} {write : β → Json} {read? : Json → Option α} {xs : List β}
    {ys : List α} :
    list? read? (.array (xs.map write)) = some ys ↔
      List.Forall₂ (fun x y => read? (write x) = some y) xs ys := by
  rw [list?]
  induction xs generalizing ys with
  | nil => cases ys <;> simp
  | cons x xs ih =>
    rw [List.map_cons, List.mapM_cons]
    cases ys with
    | nil => simp [Option.bind_eq_some_iff]
    | cons y ys => simp [Option.bind_eq_some_iff, ← ih]

/-- The items of a list that was read were read. -/
theorem Json.exists_of_mem_list? {α : Type} {read? : Json → Option α} {value : Json}
    {ys : List α} (h : list? read? value = some ys) {y : α} (hy : y ∈ ys) :
    ∃ item, read? item = some y := by
  cases value with
  | array items =>
    have hread : List.Forall₂ (fun item y => read? (id item) = some y) items ys :=
      list?_array.1 (by rw [List.map_id]; exact h)
    obtain ⟨item, _, hitem⟩ := exists_left_of_forall₂ hread hy
    exact ⟨item, hitem⟩
  | _ => simp [list?] at h

namespace Listing

/-- The predicates of a listing: the global one, and those of its columns. -/
def predicates (l : Listing) : List Predicate :=
  l.search.toList ++ l.columns.filterMap ListColumn.search

/-- The members of a stored listing. -/
def members (l : Listing) : List (String × Json) :=
  [("start", countJson l.start), ("length", countJson l.length)] ++
    Json.optionalMember "search" Predicate.toJson l.search ++
    [("columns", .array (l.columns.map ListColumn.toJson)),
     ("sort_columns", .array (l.sorts.map SortTerm.toJson))] ++
    Json.optionalMember "total" countJson l.total ++
    Json.optionalMember "filtered_records" countJson l.filteredRecords

theorem members_names (l : Listing) : (l.members.map Prod.fst).Nodup := by
  have hnames : memberNames =
      ["start", "length"] ++ ["search"] ++ ["columns", "sort_columns"] ++ ["total"] ++
        ["filtered_records"] := rfl
  refine List.Sublist.nodup ?_ (show memberNames.Nodup by decide)
  rw [hnames, members, List.map_append, List.map_append, List.map_append, List.map_append]
  refine List.Sublist.append ?_ (Json.optionalMember_names "filtered_records" _)
  refine List.Sublist.append ?_ (Json.optionalMember_names "total" _)
  refine List.Sublist.append ?_ (List.Sublist.refl _)
  exact List.Sublist.append (List.Sublist.refl _) (Json.optionalMember_names "search" _)

/-- A listing comes back with the searches that the stored ones read as. -/
theorem ofJson?_toJson (l : Listing) :
    ofJson? l.toJson = (do
      let search ← Predicate.member? (l.search.map Predicate.toJson)
      let columns ← Json.list? ListColumn.ofJson? (.array (l.columns.map ListColumn.toJson))
      pure { l with search, columns }) := by
  have hsorts : Json.list? SortTerm.ofJson? (.array (l.sorts.map SortTerm.toJson)) =
      some l.sorts := by
    rw [Json.list?_array, List.forall₂_same]
    exact fun s _ => s.ofJson?_toJson
  rw [ofJson?, show l.toJson = .object l.members from rfl, Json.record?_object l.members_names]
  simp only [members, List.lookup_append, Json.lookup_optionalMember, Option.bind_eq_bind]
  simp [List.lookup_cons, Json.orElse, Json.uint64?_count, Json.optional_count, hsorts]

/-- Columns come back with the searches they had just when each search reads back. -/
theorem columns_readBack {columns columns' : List ListColumn} :
    List.Forall₂ (fun c c' => ListColumn.ofJson? c.toJson = some c') columns columns' ∧
        columns'.map ListColumn.search = columns.map ListColumn.search ↔
      columns' = columns ∧
        ∀ p ∈ columns.filterMap ListColumn.search, Predicate.parse p.wire = .ok (some p) := by
  induction columns generalizing columns' with
  | nil => cases columns' <;> simp
  | cons c columns ih =>
    cases columns' with
    | nil => simp
    | cons c' columns' =>
      have hpredicates : (c :: columns).filterMap ListColumn.search =
          c.search.toList ++ columns.filterMap ListColumn.search := by
        cases hs : c.search with
        | none => rw [List.filterMap_cons_none hs, Option.toList_none, List.nil_append]
        | some p => rw [List.filterMap_cons_some hs, Option.toList_some, List.singleton_append]
      rw [List.forall₂_cons, List.map_cons, List.map_cons, List.cons.injEq, List.cons.injEq,
        and_and_and_comm, c.readBack, ih, hpredicates, List.forall_mem_append,
        and_and_and_comm]

/-- The predicates of a listing come back just when each reads back from its wire form. -/
theorem predicates_readBack (l : Listing) :
    (∃ l', ofJson? l.toJson = some l' ∧ l'.search = l.search ∧
        l'.columns.map ListColumn.search = l.columns.map ListColumn.search) ↔
      ∀ p ∈ l.predicates, Predicate.parse p.wire = .ok (some p) := by
  rw [predicates, List.forall_mem_append, ← Predicate.member?_eq_self, ofJson?_toJson]
  constructor
  · rintro ⟨l', hl', hsearch, hcolumns⟩
    obtain ⟨search, hs, hl'⟩ := Option.bind_eq_some_iff.1 hl'
    obtain ⟨columns, hc, hl'⟩ := Option.bind_eq_some_iff.1 hl'
    obtain rfl := Option.some.inj hl'
    obtain rfl : search = l.search := hsearch
    exact ⟨hs, (columns_readBack.1 ⟨Json.list?_array.1 hc, hcolumns⟩).2⟩
  · rintro ⟨hs, hc⟩
    obtain ⟨hc, _⟩ := columns_readBack.2 ⟨rfl, hc⟩
    rw [hs, Json.list?_array.2 hc]
    exact ⟨l, rfl, rfl, rfl⟩

/-- The predicates of a listing that was read were read from texts. -/
theorem parse_of_mem_predicates {value : Json} {l : Listing} (h : ofJson? value = some l)
    {p : Predicate} (hp : p ∈ l.predicates) : ∃ text, Predicate.parse text = .ok (some p) := by
  simp only [ofJson?, Option.bind_eq_bind, Option.bind_eq_some_iff] at h
  obtain ⟨member, _, start, _, length, _, search, hsearch, columns, hcolumns, sorts, _, total, _,
    filteredRecords, _, h⟩ := h
  obtain rfl := Option.some.inj h
  rcases List.mem_append.1 hp with hp | hp
  · obtain rfl : search = some p := Option.mem_toList.1 hp
    exact Predicate.parse_of_member? hsearch
  · obtain ⟨c, hc, hp⟩ := List.mem_filterMap.1 hp
    have hcolumn : ∃ item, ListColumn.ofJson? item = some c := by
      cases hm : member "columns" with
      | none =>
        rw [hm] at hcolumns
        obtain rfl := Option.some.inj hcolumns
        exact absurd hc (List.not_mem_nil)
      | some stored =>
        rw [hm] at hcolumns
        exact Json.exists_of_mem_list? hcolumns hc
    obtain ⟨item, hitem⟩ := hcolumn
    exact ListColumn.parse_of_ofJson? hitem hp

/-- **Predicates read from texts read back from their wire forms unless they are spoiled, and the
predicates of a stored listing come back unless one of them is.** -/
theorem searches_read_back (text : String) (value : Json) :
    (∀ p, Predicate.parse text = .ok (some p) →
      (Predicate.parse p.wire = .ok (some p) ↔ ¬ p.Spoiled)) ∧
    ∀ l, ofJson? value = some l →
      ((∃ l', ofJson? l.toJson = some l' ∧ l'.search = l.search ∧
          l'.columns.map ListColumn.search = l.columns.map ListColumn.search) ↔
        ∀ p ∈ l.predicates, ¬ p.Spoiled) := by
  refine ⟨fun _ => Predicate.parse_wire_of_parse, ?_⟩
  intro l hl
  rw [l.predicates_readBack]
  refine forall₂_congr fun p hp => ?_
  obtain ⟨text, htext⟩ := parse_of_mem_predicates hl hp
  exact Predicate.parse_wire_of_parse htext

/-- A listing that looks for a name in one column and for a range in another. -/
def namesInRange : Json :=
  .object
    [("search", .string "NOT_NULL"),
     ("columns", .array
       [.object [("data", .string "Name"), ("search", .string "LIST_ Berg , Ek")],
        .object [("data", .string "Floor"), ("search", .string "1_RANGE_ ")]])]

/-- Trimmed items and an open side come back. -/
theorem searches_read_back_namesInRange :
    Predicate.parse "LIST_ Berg , Ek" = .ok (some (.list ["Berg", "Ek"])) ∧
    Predicate.parse (Predicate.list ["Berg", "Ek"]).wire = .ok (some (.list ["Berg", "Ek"])) ∧
    ∃ l l', ofJson? namesInRange = some l ∧ ofJson? l.toJson = some l' ∧
      l'.search = some .isNotNull ∧
      l'.columns.map ListColumn.search =
        [some (.list ["Berg", "Ek"]), some (.range (some "1") none)] := by
  have hlist : Predicate.parse "LIST_ Berg , Ek" = .ok (some (.list ["Berg", "Ek"])) := by decide
  obtain ⟨hread, hstored⟩ := searches_read_back "LIST_ Berg , Ek" namesInRange
  refine ⟨hlist, (hread _ hlist).2 (by simp [Predicate.Spoiled]), ?_⟩
  obtain ⟨l, hl, hsearch, hcolumns⟩ : ∃ l, ofJson? namesInRange = some l ∧
      l.search = some .isNotNull ∧ l.columns.map ListColumn.search =
        [some (.list ["Berg", "Ek"]), some (.range (some "1") none)] :=
    ⟨_, rfl, by decide, by decide⟩
  have hsafe : ∀ p ∈ l.predicates, ¬ p.Spoiled := by
    have hfilter : l.columns.filterMap ListColumn.search =
        (l.columns.map ListColumn.search).filterMap id := by rw [List.filterMap_map]; rfl
    rw [predicates, hfilter, hsearch, hcolumns]
    simp [Predicate.Spoiled]
    decide
  obtain ⟨l', hl', hsearch', hcolumns'⟩ := (hstored l hl).2 hsafe
  exact ⟨l, l', hl, hl', hsearch'.trans hsearch, hcolumns'.trans hcolumns⟩

/-- A list whose first item begins with `RANGE_` is stored as a range: the blank in front of the
item, which kept the mark apart, is gone. -/
theorem listOfRange_spoiled :
    Predicate.parse "LIST_ RANGE_5" = .ok (some (.list ["RANGE_5"])) ∧
    (Predicate.list ["RANGE_5"]).wire = "LIST_RANGE_5" ∧
    Predicate.parse "LIST_RANGE_5" = .ok (some (.range (some "LIST") (some "5"))) := by
  decide

end Listing

end RecordSql
