/-!
# Register names

The registers that a debugger can name, with their indices and assembler names, and the
register lists of the instructions that transfer several registers at once.
-/

namespace ThumbSoc

/-- A register of a Thumb core: the thirteen general registers, the stack pointer, the link
register, the program counter and the program status register. -/
inductive Register where
  | general (n : Fin 13)
  | sp
  | lr
  | pc
  | psr
  deriving DecidableEq, Repr

namespace Register

/-- The register with debug index `n`; the indices run from 0 to 16. -/
def ofIndex? (n : Nat) : Option Register :=
  if h : n < 13 then some (general ⟨n, h⟩)
  else match n with
    | 13 => some sp
    | 14 => some lr
    | 15 => some pc
    | 16 => some psr
    | _ => none

/-- The register that a number names in an instruction: its low four bits are the index. -/
def ofNumber (n : Nat) : Register :=
  let field := n % 16
  if h : field < 13 then general ⟨field, h⟩
  else if field = 13 then sp
  else if field = 14 then lr
  else pc

/-- The debug index. -/
def index : Register → Nat
  | general n => n
  | sp => 13
  | lr => 14
  | pc => 15
  | psr => 16

/-- The assembler name. -/
def name : Register → String
  | general n => "r" ++ toString n.val
  | sp => "sp"
  | lr => "lr"
  | pc => "pc"
  | psr => "psr"

/-- Every register in the order of the indices. -/
def all : List Register :=
  (List.finRange 13).map general ++ [sp, lr, pc, psr]

@[simp]
theorem ofIndex?_index (r : Register) :
  ofIndex? r.index = some r
  := by
  cases r with
  | general n => simp [index, ofIndex?]
  | _ => rfl

end Register

/-- A set of registers as a bitmap: bit `i` lists register number `i`. -/
structure RegisterList where
  bits : UInt16
  deriving DecidableEq, Repr

namespace RegisterList

/-- The list with no registers. -/
def empty : RegisterList := ⟨0⟩

/-- Whether register number `i` is listed. -/
def contains (list : RegisterList) (i : Nat) : Bool :=
  list.bits.toNat.testBit i

/-- The listed register numbers in ascending order. -/
def numbers (list : RegisterList) : List Nat :=
  (List.range 16).filter list.contains

/-- How many registers are listed. -/
def size (list : RegisterList) : Nat :=
  list.numbers.length

theorem mem_numbers {list : RegisterList} {i : Nat} :
  i ∈ list.numbers ↔ i < 16 ∧ list.contains i = true
  := by simp [numbers]

end RegisterList

end ThumbSoc
