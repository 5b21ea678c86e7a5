/-!
# Breakpoints

A set of at most 32 addresses, held in the order in which they are reported.
-/

namespace ThumbSoc

/-- A set of breakpoint addresses. -/
structure Breakpoints where
  addresses : Array UInt32
  deriving DecidableEq, Repr

/-- The reason for which a breakpoint cannot be added. -/
inductive BreakpointError where
  | full
  deriving DecidableEq, Repr

namespace Breakpoints

/-- How many breakpoints fit. -/
def capacity : Nat := 32

/-- The empty set. -/
def empty : Breakpoints := ⟨#[]⟩

/-- Whether an address is in the set. -/
def contains (set : Breakpoints) (address : UInt32) : Bool :=
  set.addresses.contains address

/-- The number of addresses. -/
def size (set : Breakpoints) : Nat :=
  set.addresses.size

/-- Whether there is room for no further address. -/
def isFull (set : Breakpoints) : Bool :=
  set.size = capacity

/-- Adds an address at the end. An address in the set is accepted even when the set is
full. -/
def add (set : Breakpoints) (address : UInt32) : Except BreakpointError Breakpoints :=
  if set.contains address then .ok set
  else if set.isFull then .error .full
  else .ok ⟨set.addresses.push address⟩

/-- Removes an address and says whether it was there. The last address takes its place. -/
def remove (set : Breakpoints) (address : UInt32) : Bool × Breakpoints :=
  match set.addresses.finIdxOf? address with
  | none => (false, set)
  | some i => (true, ⟨(set.addresses.swapIfInBounds i (set.size - 1)).pop⟩)

end Breakpoints

/-- The wording of the error. -/
def BreakpointError.message : BreakpointError → String
  | full => s!"breakpoint set is full ({Breakpoints.capacity} entries)"

end ThumbSoc
