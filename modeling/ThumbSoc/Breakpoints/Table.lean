import ThumbSoc.Breakpoints

/-!
# Breakpoint tables

A breakpoint set in storage of a fixed size: a row of entries, of which the first ones are in
use. Removing an address and clearing the table leave addresses behind in the rest of the row.
-/

namespace ThumbSoc

/-- A row of entries, of which the first `count` are in use. -/
structure BreakpointTable where
  entries : Vector UInt32 Breakpoints.capacity
  count : Nat
  deriving DecidableEq, Repr

namespace BreakpointTable

/-- The table with no entry in use. -/
def empty : BreakpointTable := ⟨Vector.replicate Breakpoints.capacity 0, 0⟩

/-- The entries in use. -/
def active (table : BreakpointTable) : Array UInt32 :=
  table.entries.toArray.extract 0 table.count

/-- Whether an address is among the entries in use. -/
def contains (table : BreakpointTable) (address : UInt32) : Bool :=
  table.active.contains address

/-- Whether all entries are in use. -/
def isFull (table : BreakpointTable) : Bool :=
  table.count = Breakpoints.capacity

/-- Writes an address to the first entry that is not in use. An address in the table is accepted
even when the table is full. -/
def add (table : BreakpointTable) (address : UInt32) :
    Except BreakpointError Unit × BreakpointTable :=
  if table.contains address then (.ok (), table)
  else if table.isFull then (.error .full, table)
  else (.ok (), ⟨table.entries.setIfInBounds table.count address, table.count + 1⟩)

/-- Swaps an address with the last entry in use, which is then in use no more, and says whether
it was there. -/
def remove (table : BreakpointTable) (address : UInt32) : Bool × BreakpointTable :=
  match table.active.finIdxOf? address with
  | none => (false, table)
  | some i =>
    let last := table.count - 1
    (true, ⟨table.entries.swapIfInBounds i last, last⟩)

/-- Puts all entries out of use. -/
def clear (table : BreakpointTable) : BreakpointTable :=
  { table with count := 0 }

end BreakpointTable

end ThumbSoc
