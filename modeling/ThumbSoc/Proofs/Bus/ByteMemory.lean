import ThumbSoc.Proofs.Bus.Acceptance
import ThumbSoc.Proofs.Bus.Memory

/-!
# The bus as a byte memory

Memory seen through the bus is a little-endian memory of bytes. A write of any width changes
the bytes of its span and no others. After any sequence of reads and writes, of mixed widths and
wherever they go, a read finds the bytes that were last written at its addresses, and leaves
everything as it is.

The byte last written at an address is looked up in the sequence from its end, without any
memory.
-/

namespace ThumbSoc

/-! ### Bytes of a number -/

/-- Byte `k` of a word, counted from the least significant one. -/
def Word.byteAt (value : Word) (k : Nat) : UInt8 :=
  UInt8.ofNat (value.toNat / Nat.pow 256 k)

/-- The number that `count` bytes spell, the least significant one first. -/
def littleEndian (byte : Nat → UInt8) (start : Nat) : Nat → Nat
  | 0 => 0
  | count + 1 => (byte start).toNat + 256 * littleEndian byte (start + 1) count

theorem littleEndian_lt (byte : Nat → UInt8) (start count : Nat) :
  littleEndian byte start count < Nat.pow 256 count
  := by
  induction count generalizing start with
  | zero => apply Nat.one_pos
  | succ count ih =>
    have hrest := ih (start + 1)
    have hbyte := (byte start).toNat_lt
    have hpow : Nat.pow 256 (count + 1) = Nat.pow 256 count * 256 := rfl
    rw [littleEndian, hpow]
    omega

theorem littleEndian_congr {byte byte' : Nat → UInt8} {start start' count : Nat}
    (h : ∀ k < count, byte (start + k) = byte' (start' + k)) :
  littleEndian byte start count = littleEndian byte' start' count
  := by
  induction count generalizing start start' with
  | zero => rfl
  | succ count ih =>
    have hfirst := h 0 (Nat.zero_lt_succ count)
    have hrest : ∀ k < count, byte (start + 1 + k) = byte' (start' + 1 + k) := by
      intro k hk
      rw [Nat.add_assoc, Nat.add_comm 1, Nat.add_assoc start', Nat.add_comm 1]
      apply h (k + 1) (Nat.succ_lt_succ hk)
    rw [littleEndian, littleEndian, ih hrest]
    simp only [Nat.add_zero] at hfirst
    rw [hfirst]

namespace Sram

variable {memory : Sram} {offset length i : Nat}

/-- A number in memory is the one that its bytes spell. -/
theorem toNat_value (hlength : length ≤ 4) :
  (memory.value offset length).toNat = littleEndian memory.byte offset length
  := by
  induction length generalizing offset with
  | zero => rfl
  | succ n ih =>
    have hrest : (memory.value (offset + 1) n).toNat = littleEndian memory.byte (offset + 1) n :=
      ih (by omega)
    have hroom : (memory.value (offset + 1) n).toNat < Nat.pow 2 24 := by
      rw [hrest]
      apply Nat.lt_of_lt_of_le (littleEndian_lt _ _ n)
      apply Nat.pow_le_pow_right (n := 256) (by decide) (Nat.le_of_succ_le_succ hlength)
    rw [value, toNat_or_shift _ hroom, hrest, littleEndian]

/-- A stored number changes the bytes of its span to its own. -/
theorem byte_setValue_inside (hlow : offset ≤ i) (hhigh : i < offset + length)
    (hfits : offset + length ≤ memory.size) (value : Word) :
  (memory.setValue offset value length).byte i = value.byteAt (i - offset)
  := by
  induction length generalizing memory offset value with
  | zero => omega
  | succ n ih =>
    rw [setValue]
    rcases Nat.eq_or_lt_of_le hlow with rfl | hlt
    · rw [byte_setValue (Or.inl (Nat.lt_succ_self _)), byte_setByte_self (by omega), Nat.sub_self]
      apply UInt8.toNat_inj.mp
      rw [UInt32.toNat_toUInt8, Word.byteAt, UInt8.toNat_ofNat']
      simp
    · have hfits' : offset + 1 + n ≤ (memory.setByte offset value.toUInt8).size := by
        rw [size_setByte]
        omega
      have hdigit : (value >>> 8).toNat = value.toNat / 256 := by
        rw [UInt32.toNat_shiftRight, Nat.shiftRight_eq_div_pow]
        rfl
      have hindex : i - offset = (i - (offset + 1)) + 1 := by omega
      rw [ih hlt (by omega) hfits', Word.byteAt, Word.byteAt, hdigit, hindex]
      change _ = UInt8.ofNat (value.toNat / 256 ^ (i - (offset + 1) + 1))
      rw [Nat.pow_succ, Nat.mul_comm, ← Nat.div_div_eq_div_mul]
      rfl

end Sram

/-! ### Transfers and their histories -/

/-- A single transfer. -/
inductive Access where
  | read (address : Word) (width : Width)
  | write (address : Word) (width : Width) (value : Word)
  deriving DecidableEq, Repr

namespace Bus

/-- The bus after a transfer, also when it is rejected. -/
def access (bus : Bus) : Access → Bus
  | .read address width => resultState (Bus.read address width bus)
  | .write address width value => resultState (Bus.write address width value bus)

/-- The bus after transfers, one after the other. -/
def accessAll (bus : Bus) (accesses : List Access) : Bus :=
  accesses.foldl access bus

/-- The byte of memory at an address. -/
def byteAt (bus : Bus) (a : Nat) : UInt8 :=
  bus.sram.byte (a - sramBase.toNat)

/-- The byte that a transfer writes at an address of memory, if it does: it is a write, it is
aligned, its span lies in memory, and the address is in the span. -/
def written? (bus : Bus) (a : Nat) : Access → Option UInt8
  | .read .. => none
  | .write address width value =>
    if (address.toNat % width.bytes = 0 ∧ bus.InMemory address width)
        ∧ address.toNat ≤ a ∧ a < address.toNat + width.bytes then
      some (value.byteAt (a - address.toNat))
    else none

/-- The byte last written at an address of memory, and the one it had at first if none was. -/
def lastByte (bus : Bus) (accesses : List Access) (a : Nat) : UInt8 :=
  (accesses.reverse.findSome? (bus.written? a)).getD (bus.byteAt a)

section

variable {bus : Bus} {address : Word} {width : Width}

theorem InMemory.congr {bus' : Bus} (hsize : bus'.sram.size = bus.sram.size) :
  bus'.InMemory address width ↔ bus.InMemory address width
  := by rw [InMemory, InMemory, hsize]

/-- A read changes no byte of memory. -/
theorem access_read_sram (bus : Bus) (address : Word) (width : Width) :
  (bus.access (.read address width)).sram = bus.sram
  := by
  rw [access]
  cases hread : Bus.read address width bus with
  | ok value after =>
    obtain ⟨target, _, rfl⟩ := read_ok hread
    apply afterRead_sram
  | error fault after =>
    rw [(read_error hread).1]
    rfl

/-- An aligned read in memory finds the number there and does nothing else. -/
theorem InSram.read_eq (h : bus.InSram address width) (halign : address.toNat % width.bytes = 0) :
  Bus.read address width bus
    = .ok (bus.sram.value (address.toNat - sramBase.toNat) width.bytes) bus
  := by
  have hroute := route_of_span halign (checkRights_read h.rights) h.1.offset.1
  simp only [Bus.read, hroute, readTarget]

/-- An aligned read finds the number that the bytes spell. -/
theorem InSram.read (h : bus.InSram address width) (halign : address.toNat % width.bytes = 0) :
  ∃ value, Bus.read address width bus = .ok value bus
    ∧ value.toNat = littleEndian bus.byteAt address.toNat width.bytes
  := by
  obtain ⟨_, hbase, _⟩ := h.1.offset
  use bus.sram.value (address.toNat - sramBase.toNat) width.bytes, h.read_eq halign
  rw [Sram.toNat_value width.bytes_le]
  apply littleEndian_congr
  intro k _
  rw [byteAt, Nat.sub_add_comm hbase]

/-- An aligned write leaves its own bytes, and all other bytes as they were. -/
theorem InSram.write (h : bus.InSram address width) (halign : address.toNat % width.bytes = 0)
    (value : Word) :
  ∃ sram, Bus.write address width value bus = .ok () { bus with sram }
    ∧ sram.size = bus.sram.size
    ∧ ∀ a, sramBase.toNat ≤ a → byteAt { bus with sram } a
      = if address.toNat ≤ a ∧ a < address.toNat + width.bytes then
          value.byteAt (a - address.toNat)
        else bus.byteAt a
  := by
  obtain ⟨hoffset, hbase, hfits⟩ := h.1.offset
  have hroute := route_of_span halign h.rights hoffset
  use bus.sram.setValue (address.toNat - sramBase.toNat) value width.bytes
  constructor
  · simp only [Bus.write, hroute, writeTarget]
  constructor
  · apply Sram.size_setValue
  · intro a ha
    rw [byteAt]
    split
    · have hindex : a - sramBase.toNat - (address.toNat - sramBase.toNat) = a - address.toNat := by
        omega
      rw [Sram.byte_setValue_inside (by omega) (by omega) hfits, hindex]
    · rw [Sram.byte_setValue (by omega), byteAt]

/-- Any other write changes no byte of memory. -/
theorem access_write_sram (value : Word)
    (h : ¬ (address.toNat % width.bytes = 0 ∧ bus.InMemory address width)) :
  (bus.access (.write address width value)).sram = bus.sram
  := by
  rw [access]
  cases hroute : bus.route address width .write with
  | error fault =>
    rw [write_unrouted hroute]
    rfl
  | ok target =>
    simp only [Bus.write, hroute]
    obtain ⟨halign, ⟨offset, _, hoffset⟩ | ⟨_, hdevice⟩⟩ := route_ok hroute
    · exact absurd ⟨halign, inMemory_iff.mpr ⟨offset, hoffset⟩⟩ h
    · rcases deviceAt?_some hdevice with ⟨offset, rfl, _⟩ | ⟨port, offset, rfl, _⟩
      · simp only [writeTarget]
        split <;> rfl
      · simp only [writeTarget]
        split <;> rfl

theorem access_size (bus : Bus) (access : Access) (hsize : bus.sram.size ≤ sramWindow) :
  (bus.access access).sram.size = bus.sram.size
  := by
  cases access with
  | read address width => rw [access_read_sram]
  | write address width value =>
    by_cases h : address.toNat % width.bytes = 0 ∧ bus.InMemory address width
    · obtain ⟨sram, hwrite, hkeeps, _⟩ := ((inSram_iff hsize).mpr h.2).write h.1 value
      rw [Bus.access, hwrite]
      exact hkeeps
    · rw [access_write_sram value h]

/-- A transfer leaves at each address of memory the byte that it writes there, and otherwise
the one that was there. -/
theorem byteAt_access {a : Nat} (hsize : bus.sram.size ≤ sramWindow) (ha : sramBase.toNat ≤ a)
    (access : Access) :
  (bus.access access).byteAt a = (bus.written? a access).getD (bus.byteAt a)
  := by
  cases access with
  | read address width => rw [byteAt, access_read_sram, written?, Option.getD_none, byteAt]
  | write address width value =>
    rw [written?]
    by_cases h : address.toNat % width.bytes = 0 ∧ bus.InMemory address width
    · obtain ⟨sram, hwrite, _, hbytes⟩ := ((inSram_iff hsize).mpr h.2).write h.1 value
      rw [Bus.access, hwrite, resultState, hbytes a ha]
      simp only [h, true_and]
      split
      · rw [Option.getD_some]
      · rw [Option.getD_none]
    · rw [byteAt, access_write_sram value h, if_neg (fun hspan => h hspan.1), Option.getD_none,
        byteAt]

theorem written?_congr {bus' : Bus} (hsize : bus'.sram.size = bus.sram.size) (a : Nat) :
  bus'.written? a = bus.written? a
  := by
  funext access
  cases access with
  | read => rfl
  | write => simp only [written?, InMemory.congr hsize]

/-- After any transfers each address of memory holds the byte last written there. -/
theorem byteAt_accessAll (hsize : bus.sram.size ≤ sramWindow) (accesses : List Access) :
  (bus.accessAll accesses).sram.size = bus.sram.size
    ∧ ∀ a, sramBase.toNat ≤ a → (bus.accessAll accesses).byteAt a = bus.lastByte accesses a
  := by
  -- What a transfer writes depends on the size of memory only, which stays.
  have hstep : ∀ a, sramBase.toNat ≤ a → ∀ mid : Bus, mid.sram.size = bus.sram.size →
      ∀ access ∈ accesses, (mid.access access).sram.size = bus.sram.size
        ∧ (mid.access access).byteAt a = (bus.written? a access).getD (mid.byteAt a) := by
    intro a ha mid hmid access _
    have hsize' : mid.sram.size ≤ sramWindow := hmid.trans_le hsize
    constructor
    · rw [access_size mid access hsize', hmid]
    · rw [byteAt_access hsize' ha, written?_congr hmid]
  have hlast : ∀ a, sramBase.toNat ≤ a → (bus.accessAll accesses).sram.size = bus.sram.size
      ∧ (bus.accessAll accesses).byteAt a = bus.lastByte accesses a := fun a ha =>
    foldl_last (P := fun mid : Bus => mid.sram.size = bus.sram.size)
      (f := fun mid : Bus => mid.byteAt a) (hstep a ha) rfl
  use (hlast _ (Nat.le_refl _)).1
  intro a ha
  exact (hlast a ha).2

end

/-! ### The byte memory -/

/-- The bus is a little-endian memory of bytes, and it decides exactly what it accepts. Reads
and writes succeed when they are accepted; otherwise they raise the fault of their rejection and
have no effect. A write in memory changes the bytes of its span to the low bytes of the value,
and nothing else. After any transfers a read in memory yields the number that the bytes last
written at its addresses spell, and changes nothing. -/
theorem decided_byteMemory (bus : Bus) (hsize : bus.sram.size ≤ sramWindow) (address : Word)
    (width : Width) :
  (if bus.Accepts address width false then
      ∃ value after, Bus.read address width bus = .ok value after
    else Bus.read address width bus = .error (rejection address width false) bus)
    ∧ (∀ value,
      if bus.Accepts address width true then
        ∃ after, Bus.write address width value bus = .ok () after
      else Bus.write address width value bus = .error (rejection address width true) bus)
    ∧ (address.toNat % width.bytes = 0 → bus.InMemory address width →
      (∀ value, ∃ sram, Bus.write address width value bus = .ok () { bus with sram }
          ∧ sram.size = bus.sram.size
          ∧ ∀ a, sramBase.toNat ≤ a → byteAt { bus with sram } a
            = if address.toNat ≤ a ∧ a < address.toNat + width.bytes then
                value.byteAt (a - address.toNat)
              else bus.byteAt a)
        ∧ ∀ accesses, ∃ value,
          Bus.read address width (bus.accessAll accesses) = .ok value (bus.accessAll accesses)
            ∧ value.toNat
              = littleEndian (bus.lastByte accesses) address.toNat width.bytes)
  := by
  constructor
  · apply read_decided hsize
  constructor
  · apply write_decided hsize
  intro halign hmemory
  constructor
  · exact ((inSram_iff hsize).mpr hmemory).write halign
  · intro accesses
    obtain ⟨hkeeps, hbytes⟩ := byteAt_accessAll hsize accesses
    have hspan : (bus.accessAll accesses).InSram address width :=
      (inSram_iff (hkeeps.symm ▸ hsize)).mpr ((InMemory.congr hkeeps).mpr hmemory)
    obtain ⟨value, hread, hvalue⟩ := hspan.read halign
    use value, hread
    rw [hvalue]
    apply littleEndian_congr
    intro k _
    exact hbytes _ (Nat.le_add_right_of_le hmemory.offset.2.1)

/-- Writes to the end of a memory of seven bytes. The second one sticks out and is rejected. -/
def tailWrites : List Access :=
  [.write 0x20000004 .halfword 0xBEEF, .write 0x20000004 .word 0, .write 0x20000005 .byte 0x12]

theorem tail_decided_byteMemory :
  (Bus.initial 7).sram.size ≤ sramWindow
    ∧ Bus.write 0x20000004 .word 0 (Bus.initial 7) = .error (.unmapped 0x20000004) (Bus.initial 7)
    ∧ ∃ value, Bus.read 0x20000004 .halfword ((Bus.initial 7).accessAll tailWrites)
        = .ok value ((Bus.initial 7).accessAll tailWrites)
      ∧ value.toNat = 0x12EF
  := by
  have hsize : (Bus.initial 7).sram.size ≤ sramWindow := by decide
  obtain ⟨_, hwrites, _⟩ := decided_byteMemory (Bus.initial 7) hsize 0x20000004 .word
  obtain ⟨_, _, hmemory⟩ := decided_byteMemory (Bus.initial 7) hsize 0x20000004 .halfword
  obtain ⟨_, hreads⟩ := hmemory (by decide) (by decide)
  obtain ⟨value, hread, hvalue⟩ := hreads tailWrites
  use hsize
  constructor
  · have hrejected := hwrites 0
    rw [if_neg (by decide)] at hrejected
    apply hrejected
  · use value, hread
    rw [hvalue]
    decide

end Bus

end ThumbSoc
