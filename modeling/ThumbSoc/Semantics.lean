import ThumbSoc.Semantics.Exception
import ThumbSoc.Semantics.Operands

/-!
# Execution

What each operation does: its transfers on the bus and its effects on the core. The core is
only read. Loads, stores and exceptions can fault, and then the instruction has no effects;
data processing cannot.
-/

namespace ThumbSoc

namespace Instruction

variable (i : Instruction) (core : ThumbCore) (pc : Word)

/-- The effects before the operation has added its own: execution goes on behind the
instruction. -/
def continuing : Effects :=
  .goto (i.next pc)

/-! ### Data processing -/

/-- Adds a flag update if the instruction asks for one. -/
def updatingFlags (update : FlagsUpdate) (effects : Effects) : Effects :=
  if i.setFlags then { effects with flags := update } else effects

/-- The effects of a move. -/
def move : Effects :=
  let (value, carry) := i.secondValue core pc
  (i.updatingFlags (.ofLogical value carry) (i.continuing pc)).write? i.rd value

/-- The effects of an addition or subtraction, whose result may be dropped. -/
def arithmetic (operation : Word → Word → Sum) (destination : Option Nat) : Effects :=
  let sum := operation (i.firstValue core pc) (i.secondValue core pc).1
  (i.updatingFlags (.ofSum sum) (i.continuing pc)).write? destination sum.value

/-- The effects of a bitwise operation, whose result may be dropped. -/
def logical (operation : Word → Word → Word) (destination : Option Nat) : Effects :=
  let (second, carry) := i.secondValue core pc
  let result := operation (i.firstValue core pc) second
  (i.updatingFlags (.ofLogical result carry) (i.continuing pc)).write? destination result

/-! ### Loads and stores -/

/-- A load. One into the program counter is a branch. -/
def load : Transfer Effects :=
  match i.rd with
  | none => pure (i.continuing pc)
  | some rt => do
    let raw ← Bus.read (i.address core pc) i.width
    let value := if i.signed then i.width.signExtend raw else raw
    if rt = 15 then Exception.branch core value core.sp (i.continuing pc)
    else return (i.continuing pc).write rt value

/-- A store. -/
def store : Transfer Effects := do
  Bus.write (i.address core pc) i.width (core.operandOr pc i.rd 0)
  return i.continuing pc

/-- A load of several registers, lowest number first. The updated base wins over a loaded
one. -/
def loadMultiple : Transfer Effects :=
  match i.rn with
  | none => pure (i.continuing pc)
  | some rn => do
    let start := core.operand pc rn
    let values ← Bus.readWords start i.registers.size
    let effects := (i.continuing pc).writeAll (i.registers.numbers.zip values)
    let stop := start + 4 * UInt32.ofNat i.registers.size
    return if i.writeback then effects.write rn stop else effects

/-- The values of the listed registers, lowest number first. -/
def listedValues : List Word :=
  i.registers.numbers.map (core.operand pc)

/-- A store of several registers, lowest number first. -/
def storeMultiple : Transfer Effects :=
  match i.rn with
  | none => pure (i.continuing pc)
  | some rn => do
    let stop ← Bus.storeWords (core.operand pc rn) (i.listedValues core pc)
    return if i.writeback then (i.continuing pc).write rn stop else i.continuing pc

/-- A store of several registers below the stack pointer, which moves down over them. -/
def push : Transfer Effects := do
  let start := core.sp - 4 * UInt32.ofNat i.registers.size
  let _ ← Bus.storeWords start (i.listedValues core pc)
  return (i.continuing pc).write 13 start

/-- A load of several registers from the stack pointer on, which moves up over them. A loaded
program counter is a branch. -/
def pop : Transfer Effects := do
  let values ← Bus.readWords core.sp i.registers.size
  let loaded := i.registers.numbers.zip values
  let stop := core.sp + 4 * UInt32.ofNat i.registers.size
  let effects := ((i.continuing pc).writeAll (loaded.filter (·.1 ≠ 15))).write 13 stop
  match loaded.lookup 15 with
  | some target => Exception.branch core target stop effects
  | none => return effects

/-! ### All operations -/

/-- A fault of the bus becomes a fault of the instruction at `pc`. -/
def transferring (pc : Word) {α : Type} (transfer : Transfer α) : EStateM CoreFault Bus α :=
  fun bus =>
    match transfer bus with
    | .ok a bus => .ok a bus
    | .error fault bus => .error (.bus pc fault) bus

/-- Executes the instruction at `pc`, whatever its condition. -/
def execute : EStateM CoreFault Bus Effects :=
  match i.opcode with
  | .udf => throw (.decode pc ⟨i.raw, i.length⟩)
  | .mov => pure (i.move core pc)
  | .add => pure (i.arithmetic core pc (addWithCarry · · false) i.rd)
  | .sub => pure (i.arithmetic core pc subtract i.rd)
  | .cmp => pure (i.arithmetic core pc subtract none)
  | .and => pure (i.logical core pc (· &&& ·) i.rd)
  | .orr => pure (i.logical core pc (· ||| ·) i.rd)
  | .eor => pure (i.logical core pc (· ^^^ ·) i.rd)
  | .tst => pure (i.logical core pc (· &&& ·) none)
  | .b => pure { i.continuing pc with nextPc := i.branchTarget pc }
  | .bl =>
    pure { (i.continuing pc).write 14 ((pc + 4) ||| 1) with nextPc := i.branchTarget pc }
  | .bx =>
    transferring pc
      (Exception.branch core (core.operandOr pc i.rm 0) core.sp (i.continuing pc))
  | .blx =>
    pure (((i.continuing pc).write 14 ((pc + 2) ||| 1)).jump (core.operandOr pc i.rm 0))
  | .ldr => transferring pc (i.load core pc)
  | .str => transferring pc (i.store core pc)
  | .ldm => transferring pc (i.loadMultiple core pc)
  | .stm => transferring pc (i.storeMultiple core pc)
  | .push => transferring pc (i.push core pc)
  | .pop => transferring pc (i.pop core pc)
  | .mrs => pure ((i.continuing pc).write? i.rd (core.readSpecial i.selector))
  | .msr =>
    pure { i.continuing pc with
      special := some (i.selector, core.operandOr pc i.rn i.immediateWord) }
  | .nop => pure (i.continuing pc)
  | .wfi => pure { i.continuing pc with sleeps := true }
  | .svc => transferring pc (Exception.enter core Exception.supervisorCall (i.continuing pc))

end Instruction

end ThumbSoc
