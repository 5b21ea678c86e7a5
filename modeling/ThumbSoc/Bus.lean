import ThumbSoc.AddressMap
import ThumbSoc.Bus.Gpio
import ThumbSoc.Bus.Serial
import ThumbSoc.Bus.Sram

/-!
# The bus

The bus carries the transfers of all cores to memory, the pins and the serial ports. A
transfer is first routed, which checks it without any effect; only then does the target
answer. Devices know whole registers only: a narrow read takes its lane out of the register,
and a narrow write presents its value on every lane.

A transfer is a computation over the state of the bus that yields a value or a fault.
-/

namespace ThumbSoc

/-- The state of everything that the cores share. -/
structure Bus where
  sram : Sram
  gpio : Gpio
  serial : Vector Serial 2
  deriving DecidableEq

/-- A computation over the state of the bus that may fault. -/
abbrev Transfer (α : Type) := EStateM BusFault Bus α

namespace Bus

/-- A bus with `size` zero bytes of memory and all devices in their power-on state. -/
def initial (size : Nat) : Bus where
  sram := .zeroed size
  gpio := .initial
  serial := Vector.replicate 2 .initial

/-- Clears memory and resets the devices. -/
def reset (bus : Bus) : Bus where
  sram := .zeroed bus.sram.size
  gpio := bus.gpio.reset
  serial := Vector.replicate 2 .initial

/-- Notes which core makes the transfers that follow. -/
def select (bus : Bus) (core : Nat) : Bus :=
  { bus with gpio := bus.gpio.select core }

/-- Places bytes in memory, if their span lies there. -/
def load? (bus : Bus) (address : Word) (data : List UInt8) : Option Bus :=
  match sramOffset? address data.length bus.sram.size with
  | none => none
  | some offset => some { bus with sram := bus.sram.setBytes offset data }

/-! ### Routing -/

/-- What answers a transfer. -/
inductive Target where
  /-- Memory, at an offset. -/
  | sram (offset : Nat)
  /-- The pins, at an offset into their block. -/
  | gpio (offset : Word)
  /-- A serial port, at an offset into its block. -/
  | serial (port : Fin 2) (offset : Word)
  deriving DecidableEq, Repr

/-- The offset of the register that holds the byte at `offset` of a device block. -/
def registerOffset (offset : Word) : Word :=
  offset &&& ~~~3

/-- The offset of an address into the device block at `base`, if it lies there. -/
def blockOffset? (base address : Word) : Option Word :=
  if base ≤ address ∧ address - base < deviceBlockSize then some (address - base) else none

/-- The device register at an address, if there is one. -/
def deviceAt? (address : Word) : Option Target :=
  match (blockOffset? sioBase address).filter fun o => Gpio.hasRegister (registerOffset o) with
  | some offset => some (.gpio offset)
  | none =>
    (List.finRange 2).findSome? fun port =>
      ((blockOffset? serialBase[port] address).filter fun o =>
        Serial.hasRegister (registerOffset o)).map (.serial port)

/-- What answers a transfer at an address. The checks come in a fixed order: alignment, the
rights of the region, and whether anything is there. -/
def route (bus : Bus) (address : Word) (width : Width) (purpose : Purpose) :
    Except BusFault Target := do
  checkAlignment address width
  checkRights address purpose
  match sramOffset? address width.bytes bus.sram.size with
  | some offset => .ok (.sram offset)
  | none =>
    match deviceAt? address with
    | some target => .ok target
    | none => .error (.unmapped address)

/-- Checks a transfer as far as routing does, without performing it. -/
def probe (bus : Bus) (address : Word) (width : Width) (purpose : Purpose) :
    Except BusFault Unit :=
  (bus.route address width purpose).map fun _ => ()

/-- The fault that the refusal of a device becomes. -/
def refusal (address : Word) : DeviceError → BusFault
  | .noRegister => .unmapped address
  | .readOnly => .readOnly address

/-! ### Single transfers -/

/-- The part of a register that a read of the given width at `offset` shows. -/
def lane (register offset : Word) (width : Width) : Word :=
  width.truncate (register >>> (8 * (offset &&& 3)))

/-- The register value that a write of the given width presents. -/
def replicate (value : Word) : Width → Word
  | .byte => (value &&& 0xFF) * 0x01010101
  | .halfword => (value &&& 0xFFFF) * 0x00010001
  | .word => value

/-- Reads from a routed target. -/
def readTarget (address : Word) (width : Width) (target : Target) : Transfer Word := fun bus =>
  match target with
  | .sram offset => .ok (bus.sram.value offset width.bytes) bus
  | .gpio offset =>
    match bus.gpio.read (registerOffset offset) with
    | .error e => .error (refusal address e) bus
    | .ok register => .ok (lane register offset width) bus
  | .serial port offset =>
    match bus.serial[port].read (registerOffset offset) with
    | .error e => .error (refusal address e) bus
    | .ok (register, device) =>
      .ok (lane register offset width) { bus with serial := bus.serial.set port device }

/-- Writes to a routed target. -/
def writeTarget (address : Word) (width : Width) (value : Word) (target : Target) :
    Transfer Unit := fun bus =>
  match target with
  | .sram offset => .ok () { bus with sram := bus.sram.setValue offset value width.bytes }
  | .gpio offset =>
    match bus.gpio.write (registerOffset offset) (replicate value width) with
    | .error e => .error (refusal address e) bus
    | .ok device => .ok () { bus with gpio := device }
  | .serial port offset =>
    match bus.serial[port].write (registerOffset offset) (replicate value width) with
    | .error e => .error (refusal address e) bus
    | .ok device => .ok () { bus with serial := bus.serial.set port device }

/-- Reads at an address, extended with zeros. -/
def read (address : Word) (width : Width) : Transfer Word := fun bus =>
  match bus.route address width .read with
  | .error fault => .error fault bus
  | .ok target => readTarget address width target bus

/-- Writes the low bytes of `value` at an address. -/
def write (address : Word) (width : Width) (value : Word) : Transfer Unit := fun bus =>
  match bus.route address width .write with
  | .error fault => .error fault bus
  | .ok target => writeTarget address width value target bus

/-- Fetches an instruction halfword. Only memory can be executed, so a fetch has no effect. -/
def fetch (bus : Bus) (address : Word) : Except BusFault Word :=
  match bus.route address .halfword .fetch with
  | .error fault => .error fault
  | .ok (.sram offset) => .ok (bus.sram.value offset 2)
  | .ok _ => .error (.unmapped address)

/-! ### Multiple transfers -/

/-- Reads `count` consecutive words in ascending order. -/
def readWords (start : Word) : Nat → Transfer (List Word)
  | 0 => pure []
  | count + 1 => do
    let first ← read start .word
    let rest ← readWords (start + 4) count
    return first :: rest

/-- Checks that `count` consecutive words would be accepted for writing. -/
def probeWords (start : Word) : Nat → Transfer Unit
  | 0 => pure ()
  | count + 1 => fun bus =>
      match bus.probe start .word .write with
      | .error fault => .error fault bus
      | .ok () => probeWords (start + 4) count bus

/-- Writes consecutive words in ascending order, without checking them all first. -/
def writeWords (start : Word) : List Word → Transfer Unit
  | [] => pure ()
  | value :: rest => do
    write start .word value
    writeWords (start + 4) rest

/-- Stores consecutive words and returns the address after the last one. Every address is
checked before the first word is written. -/
def storeWords (start : Word) (values : List Word) : Transfer Word := do
  probeWords start values.length
  writeWords start values
  return start + 4 * UInt32.ofNat values.length

/-- Reads `count` consecutive bytes in ascending order, after those already collected. -/
def readBytes (start : Word) (collected : Array UInt8) : Nat → Transfer (Array UInt8)
  | 0 => pure collected
  | count + 1 => do
    let value ← read start .byte
    readBytes (start + 1) (collected.push value.toUInt8) count

/-! ### Host access to the devices -/

/-- Queues bytes on a serial port, if there is such a port, and counts the accepted ones. -/
def hostWrite? (bus : Bus) (port : Nat) (data : List UInt8) : Option (Nat × Bus) :=
  if h : port < 2 then
    let (accepted, device) := bus.serial[port].hostWrite data
    some (accepted, { bus with serial := bus.serial.set port device })
  else none

/-- Drains up to `count` bytes from a serial port, if there is such a port. -/
def hostRead? (bus : Bus) (port count : Nat) : Option (List UInt8 × Bus) :=
  if h : port < 2 then
    let (data, device) := bus.serial[port].hostRead count
    some (data, { bus with serial := bus.serial.set port device })
  else none

/-- Drives a level onto a pin. -/
def drive (bus : Bus) (pin : Nat) (high : Bool) : Bus :=
  { bus with gpio := bus.gpio.drive pin high }

end Bus

end ThumbSoc
