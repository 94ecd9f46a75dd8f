import RecordSql.Window

/-!
# Windows have exact numbers

The numbers of a window are computed with sixty-four bits. An addition either gives the sum of the
natural numbers or nothing: a sum that does not fit wraps around, and is then below both of its
terms. So a window is there just when it has a row and the number of its last row fits; the number
of its first row fits with it.
-/

namespace RecordSql

/-- **A checked sum is the sum of the natural numbers.** -/
theorem checkedAdd?_eq_some {m n sum : UInt64} :
    checkedAdd? m n = some sum ↔ sum.toNat = m.toNat + n.toNat := by
  have hm := m.toNat_lt_size
  have hn := n.toNat_lt_size
  have hadd := UInt64.toNat_add m n
  unfold checkedAdd?
  dsimp only
  split
  · next hwrap =>
    -- a sum below its first term has lost a whole turn
    rw [UInt64.lt_iff_toNat_lt] at hwrap
    have hsum := sum.toNat_lt_size
    simp only [UInt64.size] at *
    refine iff_of_false (by simp) ?_
    omega
  · next hfits =>
    rw [UInt64.lt_iff_toNat_lt] at hfits
    rw [Option.some.injEq, ← UInt64.toNat_inj]
    simp only [UInt64.size] at *
    omega

namespace Window

/-- The numbers of the first and of the last row are those of the natural numbers. -/
structure Exact (w : Window) : Prop where
  firstRow : w.firstRow.toNat = w.start.toNat + 1
  lastRow : w.lastRow.toNat = w.start.toNat + w.length.toNat

variable {start length next : UInt64} {w w' : Window}

/-- **The numbers of a window are the exact ones.** -/
theorem of?_eq_some : of? start length = some w ↔
    0 < length.toNat ∧ w.start = start ∧ w.length = length ∧ w.Exact := by
  obtain ⟨s, l, first, last⟩ := w
  unfold of?
  by_cases hlength : length = 0
  · rw [if_pos hlength, hlength]
    exact iff_of_false (by simp) fun h => Nat.lt_irrefl 0 h.1
  · have hpos : 0 < length.toNat := by
      rw [← UInt64.toNat_inj] at hlength
      exact Nat.pos_of_ne_zero hlength
    simp only [if_neg hlength, Option.bind_eq_bind, Option.bind_eq_some_iff, checkedAdd?_eq_some,
      Option.some.injEq, mk.injEq, hpos, true_and]
    constructor
    · rintro ⟨_, hfirst, _, hlast, rfl, rfl, rfl, rfl⟩
      exact ⟨rfl, rfl, hfirst, hlast⟩
    · rintro ⟨rfl, rfl, hfirst, hlast⟩
      exact ⟨first, hfirst, last, hlast, rfl, rfl, rfl, rfl⟩

/-- A window is there just when it has a row and the number of its last row fits. -/
theorem exists_of? : (∃ w, of? start length = some w) ↔
    0 < length.toNat ∧ start.toNat + length.toNat < UInt64.size := by
  constructor
  · rintro ⟨w, hw⟩
    obtain ⟨hpos, rfl, rfl, hexact⟩ := of?_eq_some.1 hw
    exact ⟨hpos, hexact.lastRow ▸ w.lastRow.toNat_lt_size⟩
  · rintro ⟨hpos, hfits⟩
    -- the first row is not behind the last one
    have hfirst : start.toNat + 1 < UInt64.size := by omega
    exact ⟨⟨start, length, .ofNatLT _ hfirst, .ofNatLT _ hfits⟩,
      of?_eq_some.2 ⟨hpos, rfl, rfl, rfl, rfl⟩⟩

/-- Two windows that follow one another make up one. -/
theorem exists_of?_add (h : of? start length = some w) (h' : of? (start + length) next = some w') :
    ∃ whole, of? start (length + next) = some whole ∧ whole.start.toNat = w.start.toNat ∧
      w'.start.toNat = w.start.toNat + w.length.toNat ∧
      whole.length.toNat = w.length.toNat + w'.length.toNat := by
  obtain ⟨_, rfl, rfl, hexact⟩ := of?_eq_some.1 h
  obtain ⟨_, hs', rfl, hexact'⟩ := of?_eq_some.1 h'
  have hfits := w.lastRow.toNat_lt_size
  have hfits' := w'.lastRow.toNat_lt_size
  -- neither sum wraps, the second because the last window still fits
  have hstart : (w.start + w.length).toNat = w.start.toNat + w.length.toNat := by
    rw [UInt64.toNat_add]
    exact Nat.mod_eq_of_lt (hexact.lastRow ▸ hfits)
  rw [hexact'.lastRow, hs', hstart] at hfits'
  have hlength : (w.length + w'.length).toNat = w.length.toNat + w'.length.toNat := by
    rw [UInt64.toNat_add]
    exact Nat.mod_eq_of_lt (Nat.lt_of_le_of_lt (by omega) hfits')
  obtain ⟨whole, hwhole⟩ : ∃ whole, of? w.start (w.length + w'.length) = some whole :=
    exists_of?.2 (by omega)
  obtain ⟨_, hws, hwl, _⟩ := of?_eq_some.1 hwhole
  refine ⟨whole, hwhole, congrArg _ hws, ?_, ?_⟩
  · rw [hs', hstart]
  · rw [hwl, hlength]

end Window

end RecordSql
