import ThumbSoc.Fault

/-!
# The address map

The address space is divided into fixed regions, each with its rights. Which devices answer
inside a region is decided by the bus; this module says where the regions lie, what each
permits, and which spans of addresses lie in memory.
-/

namespace ThumbSoc

/-- What a region permits. Everything mapped can be read. -/
structure Rights where
  writable : Bool
  executable : Bool
  deriving DecidableEq, Repr

/-- The regions of the address space, in ascending order. -/
inductive Region where
  /-- The boot program. -/
  | bootRom
  /-- Flash that is executed in place. -/
  | flash
  /-- Working memory. -/
  | sram
  /-- Slow peripherals. -/
  | apb
  /-- Fast peripherals with transfers of their own. -/
  | ahbLite
  /-- Fast programmable peripherals. -/
  | ahb
  /-- The single-cycle block of a core: pins and core number. -/
  | sio
  deriving DecidableEq, Repr

/-- The first address of working memory. -/
def sramBase : Word := 0x20000000

/-- The size of the window for working memory, and so the most that a system can have. -/
def sramWindow : Nat := 0x42800

/-- The first address of the single-cycle block. -/
def sioBase : Word := 0xD0000000

/-- The first addresses of the two serial ports. -/
def serialBase : Vector Word 2 := #v[0x40034000, 0x40038000]

/-- The size of the register block of a device. -/
def deviceBlockSize : Word := 0x1000

namespace Region

/-- Every region, in ascending order. -/
def all : List Region := [bootRom, flash, sram, apb, ahbLite, ahb, sio]

/-- The first address. -/
def start : Region → Word
  | bootRom => 0
  | flash => 0x10000000
  | sram => sramBase
  | apb => 0x40000000
  | ahbLite => 0x50000000
  | ahb => 0x50400000
  | sio => sioBase

/-- The last address. -/
def last : Region → Word
  | bootRom => 0x3FFF
  | flash => 0x10FFFFFF
  | sram => 0x200427FF
  | apb => 0x4FFFFFFF
  | ahbLite => 0x503FFFFF
  | ahb => 0x5FFFFFFF
  | sio => 0xDFFFFFFF

/-- The name of the region in messages. -/
def name : Region → String
  | bootRom => "bootrom"
  | flash => "xip"
  | sram => "sram"
  | apb => "apb"
  | ahbLite => "ahb-lite"
  | ahb => "ahb"
  | sio => "sio"

/-- What the region permits. -/
def rights : Region → Rights
  | bootRom | flash => { writable := false, executable := true }
  | sram => { writable := true, executable := true }
  | apb | ahbLite | ahb | sio => { writable := true, executable := false }

/-- Whether an address lies in the region. -/
def contains (region : Region) (address : Word) : Bool :=
  region.start ≤ address && address ≤ region.last

/-- The region of an address, if it has one. -/
def of? (address : Word) : Option Region :=
  all.find? (·.contains address)

end Region

/-! ### Banks of memory -/

/-- The first addresses of the six banks that make up working memory. The last one takes the
rest of the window. -/
def bankBases : List Word :=
  [0x20000000, 0x20010000, 0x20020000, 0x20030000, 0x20040000, 0x20041000]

/-- The number of the bank that holds an address of working memory. -/
def bank? (address : Word) : Option Nat :=
  if Region.sram.contains address then
    some ((bankBases.filter (· ≤ address)).length - 1)
  else none

/-- The offset into a memory of `size` bytes of the span of `length` bytes at `address`, if
the whole span lies in that memory. An empty span at the very end does. -/
def sramOffset? (address : Word) (length size : Nat) : Option Nat :=
  let start := address.toNat
  let base := sramBase.toNat
  if base ≤ start ∧ start + length ≤ base + size then some (start - base) else none

/-! ### Checks made before a transfer -/

/-- What a transfer is for. -/
inductive Purpose where
  | read
  | write
  | fetch
  deriving DecidableEq, Repr

/-- Rejects an address that is no multiple of the width. -/
def checkAlignment (address : Word) (width : Width) : Except BusFault Unit :=
  if address.toNat % width.bytes = 0 then .ok () else .error (.misaligned address width)

/-- Rejects an address outside all regions and a purpose that its region does not permit. -/
def checkRights (address : Word) (purpose : Purpose) : Except BusFault Unit :=
  match Region.of? address with
  | none => .error (.unmapped address)
  | some region =>
    match purpose with
    | .read => .ok ()
    | .write => if region.rights.writable then .ok () else .error (.readOnly address)
    | .fetch => if region.rights.executable then .ok () else .error (.notExecutable address)

end ThumbSoc
