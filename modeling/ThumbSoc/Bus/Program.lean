import ThumbSoc.Bus
import ThumbSoc.Encoding
import ThumbSoc.Listing

/-!
# Programs in memory

What the bus holds, seen as instructions: the instruction at an address, and the listing of a
range of addresses.
-/

namespace ThumbSoc.Bus

/-- The encoding at `pc` and its length in bytes: one halfword, or two if the first one
begins a wide encoding. -/
def fetchEncoding (bus : Bus) (pc : Word) : Except BusFault (Word × Nat) := do
  let first ← bus.fetch pc
  if WideFormat.startsWith first then
    let second ← bus.fetch (pc + 2)
    return (WideFormat.join first second, 4)
  else return (first, 2)

/-- The instruction at `pc`. -/
def instructionAt (bus : Bus) (pc : Word) : Except CoreFault Instruction :=
  match bus.fetchEncoding pc with
  | .error fault => .error (.bus pc fault)
  | .ok (word, length) =>
    match Instruction.decode word length with
    | .error fault => .error (.decode pc fault)
    | .ok i => .ok i

/-- The line of a listing at `pc`, unless a fetch there is rejected. -/
def rowAt? (bus : Bus) (pc : Word) : Option Row :=
  match bus.fetchEncoding pc with
  | .error _ => none
  | .ok (word, length) =>
    match Instruction.decode word length with
    | .error fault => some (fault.instruction.row pc)
    | .ok i => some (i.row pc)

/-- Adds at most `count` further lines from `pc` on, as far as fetches are accepted. -/
def listFrom (bus : Bus) (pc : Word) (rows : Array Row) : Nat → Array Row
  | 0 => rows
  | count + 1 =>
    match bus.rowAt? pc with
    | none => rows
    | some row => bus.listFrom (pc + UInt32.ofNat row.length) (rows.push row) count

/-- The listing of at most `count` consecutive instructions from `start` on. -/
def listing (bus : Bus) (start : Word) (count : Nat) : Array Row :=
  bus.listFrom (Word.even start) #[] count

end ThumbSoc.Bus
