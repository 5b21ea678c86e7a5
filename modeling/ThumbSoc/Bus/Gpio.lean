import ThumbSoc.Bus.Device
import ThumbSoc.Word

/-!
# Pins

The single-cycle block: the number of the core that accesses it, and thirty pins. Each pin
has an output latch and an output enable; an enabled pin shows its latch, any other shows the
level that the outside world drives onto it. The latches can be written whole, or changed
through aliases that set, clear or toggle the bits of a mask.
-/

namespace ThumbSoc

/-- The state of the block. -/
structure Gpio where
  /-- The number of the core whose accesses come next. -/
  core : Word
  /-- The output latches, one bit a pin. -/
  output : Word
  /-- Which pins are driven by their latch. -/
  enable : Word
  /-- The levels driven from outside. -/
  input : Word
  deriving DecidableEq, Repr

namespace Gpio

/-- The number of pins. -/
def pinCount : Nat := 30

/-- The bits that stand for pins. -/
def pinMask : Word := 0x3FFFFFFF

/-- All latches and inputs low, nothing enabled. -/
def initial : Gpio := ⟨0, 0, 0, 0⟩

/-- Notes which core makes the accesses that follow. -/
def select (gpio : Gpio) (core : Nat) : Gpio :=
  { gpio with core := UInt32.ofNat (min core 0xFFFFFFFF) }

/-- Drives a level onto a pin from outside. There is nothing to drive beyond the last pin. -/
def drive (gpio : Gpio) (pin : Nat) (high : Bool) : Gpio :=
  if pin < pinCount then
    let mask : Word := 1 <<< UInt32.ofNat pin
    { gpio with input := if high then gpio.input ||| mask else gpio.input &&& ~~~mask }
  else gpio

/-- The levels of the pins. -/
def levels (gpio : Gpio) : Word :=
  ((gpio.output &&& gpio.enable) ||| (gpio.input &&& ~~~gpio.enable)) &&& pinMask

/-- The level of a pin. -/
def level (gpio : Gpio) (pin : Nat) : Bool :=
  pin < pinCount && Word.bit gpio.levels pin

/-- The power-on state of the latches. What the outside world drives stays. -/
def reset (gpio : Gpio) : Gpio :=
  { gpio with output := 0, enable := 0 }

/-- How a write changes a latch. -/
inductive Change where
  | assign
  | set
  | clear
  | toggle
  deriving DecidableEq, Repr

/-- The value of a latch after a write of `value`. -/
def Change.apply (change : Change) (latch value : Word) : Word :=
  match change with
  | assign => value
  | set => latch ||| value
  | clear => latch &&& ~~~value
  | toggle => latch ^^^ value

/-- The registers of the block. -/
inductive Register where
  | coreNumber
  | input
  /-- The levels of pins that are not modelled, which are low. -/
  | inputHigh
  | output (change : Change)
  | enable (change : Change)
  deriving DecidableEq, Repr

/-- The register at an offset. -/
def register? (offset : Word) : Option Register :=
  match offset with
  | 0x00 => some .coreNumber
  | 0x04 => some .input
  | 0x08 => some .inputHigh
  | 0x10 => some (.output .assign)
  | 0x14 => some (.output .set)
  | 0x18 => some (.output .clear)
  | 0x1C => some (.output .toggle)
  | 0x20 => some (.enable .assign)
  | 0x24 => some (.enable .set)
  | 0x28 => some (.enable .clear)
  | 0x2C => some (.enable .toggle)
  | _ => none

/-- Reads the register at an offset. The aliases show the latch that they change. -/
def read (gpio : Gpio) (offset : Word) : Except DeviceError Word :=
  match register? offset with
  | none => .error .noRegister
  | some .coreNumber => .ok gpio.core
  | some .input => .ok gpio.levels
  | some .inputHigh => .ok 0
  | some (.output _) => .ok gpio.output
  | some (.enable _) => .ok gpio.enable

/-- Writes the register at an offset. Bits that stand for no pin are dropped. -/
def write (gpio : Gpio) (offset value : Word) : Except DeviceError Gpio :=
  let pins := value &&& pinMask
  match register? offset with
  | none => .error .noRegister
  | some .coreNumber | some .input | some .inputHigh => .error .readOnly
  | some (.output change) => .ok { gpio with output := change.apply gpio.output pins }
  | some (.enable change) => .ok { gpio with enable := change.apply gpio.enable pins }

/-- Whether a register answers at an offset. -/
def hasRegister (offset : Word) : Bool :=
  (register? offset).isSome

/-- The name of the device. -/
def name : String := "sio"

end Gpio

end ThumbSoc
