import RecordSql.Listing

/-!
# Windows

The rows of one page of a listing, counted from the start of the listing. All numbers have
sixty-four bits. The numbers of the first and of the last row are stored next to the numbers that
they are computed from, by additions that give nothing where they would wrap.
-/

namespace RecordSql

/-- A number of sixty-four bits stands for a natural number. -/
scoped instance coeUInt64Nat : Coe UInt64 Nat := ⟨UInt64.toNat⟩

/-- The sum of two numbers of sixty-four bits. A sum that wraps is below either of them, and is
none. -/
def checkedAdd? (m n : UInt64) : Option UInt64 :=
  let sum := m + n
  if sum < m then none else some sum

/-- A page: how many rows to pass over and how many to take, and the numbers of the first and of
the last of them, counted from one. -/
structure Window where
  start : UInt64
  length : UInt64
  firstRow : UInt64
  lastRow : UInt64
  deriving DecidableEq, Repr

/-- The window of a start and a length. There is none without a row, and none whose rows have
numbers that do not fit. -/
def Window.of? (start length : UInt64) : Option Window :=
  if length = 0 then none
  else do
    let firstRow ← checkedAdd? start 1
    let lastRow ← checkedAdd? start length
    some { start, length, firstRow, lastRow }

end RecordSql
