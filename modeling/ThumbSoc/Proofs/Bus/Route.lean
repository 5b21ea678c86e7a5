import Mathlib.Tactic.Use
import ThumbSoc.Bus
import ThumbSoc.Proofs.Word

/-!
# Where transfers go

What it means that a transfer is routed: its address is aligned, and its target is memory or,
outside memory, a device register. A word can reach a device only at one of a few addresses,
which are listed here; what follows a register in the map is read off the list.

Routing looks at nothing but the size of memory.
-/

namespace ThumbSoc

/-! ### Device registers -/

/-- The offsets of the registers of the pin block. -/
def Gpio.offsets : List Word :=
  [0x00, 0x04, 0x08, 0x10, 0x14, 0x18, 0x1C, 0x20, 0x24, 0x28, 0x2C]

/-- The offsets of the registers of a serial port. -/
def Serial.offsets : List Word :=
  [0x00, 0x04, 0x18, 0x24, 0x28, 0x2C, 0x30]

theorem Gpio.mem_offsets {offset : Word} (h : Gpio.hasRegister offset = true) :
  offset ∈ Gpio.offsets
  := by
  unfold Gpio.hasRegister Gpio.register? at h
  split at h
  all_goals first | decide | cases h

theorem Serial.mem_offsets {offset : Word} (h : Serial.hasRegister offset = true) :
  offset ∈ Serial.offsets
  := by
  unfold Serial.hasRegister Serial.register? at h
  split at h
  all_goals first | decide | cases h

/-! ### The two ports -/

section Ports

variable {α : Type} {xs : Vector α 2} {value : α}

theorem getElem_port (port : Fin 2) (h : port.val < 2) :
  xs[port.val] = xs.get port
  := rfl

theorem set_port (port : Fin 2) (h : port.val < 2) :
  xs.set port.val value = xs.setIfInBounds port.val value
  := by
  apply Vector.toArray_inj.mp
  rw [Vector.toArray_set, Vector.toArray_setIfInBounds, Array.setIfInBounds, dif_pos]

theorem get_set_self (port : Fin 2) :
  (xs.setIfInBounds port.val value).get port = value
  := Vector.getElem_setIfInBounds_self port.isLt

theorem get_set_ne {port other : Fin 2} (h : port ≠ other) :
  (xs.setIfInBounds port.val value).get other = xs.get other
  := Vector.getElem_setIfInBounds_ne other.isLt (fun heq => h (Fin.ext heq))

theorem setIfInBounds_get (port : Fin 2) :
  xs.setIfInBounds port.val (xs.get port) = xs
  := by
  apply Vector.ext
  intro i hi
  rw [Vector.getElem_setIfInBounds hi]
  split
  · next heq =>
    subst heq
    rfl
  · rfl

end Ports
namespace Bus

/-- The addresses at which a word reaches a device, with what answers there. -/
def deviceWords : List (Word × Target) :=
  (Gpio.offsets.map fun offset => (sioBase + offset, .gpio offset))
    ++ (List.finRange 2).flatMap fun port =>
      Serial.offsets.map fun offset => (serialBase.get port + offset, .serial port offset)

theorem serialBase_aligned (port : Fin 2) :
  (serialBase.get port).toNat % 4 = 0
  := by decide +revert

/-- The offset of a word-aligned address into a block is the offset of a register. -/
theorem blockOffset?_word {base address offset : Word}
    (h : blockOffset? base address = some offset) (hbase : base.toNat % 4 = 0)
    (haddress : address.toNat % 4 = 0) :
  address = base + offset ∧ registerOffset offset = offset
  := by
  rw [blockOffset?] at h
  split at h
  · next hle =>
    cases h
    have hsub := UInt32.toNat_sub_of_le _ _ hle.1
    constructor
    · rw [UInt32.add_comm, UInt32.sub_add_cancel]
    · apply UInt32.toNat_inj.mp
      rw [registerOffset, Word.toNat_and_not_three]
      omega
  · cases h

/-- A device answers only where it has a register. -/
theorem deviceAt?_some {address : Word} {target : Target} (h : deviceAt? address = some target) :
  (∃ offset, target = .gpio offset ∧ blockOffset? sioBase address = some offset
      ∧ Gpio.hasRegister (registerOffset offset) = true)
    ∨ ∃ port offset, target = .serial port offset
      ∧ blockOffset? (serialBase.get port) address = some offset
      ∧ Serial.hasRegister (registerOffset offset) = true
  := by
  rw [deviceAt?] at h
  split at h
  · next offset hoffset =>
    cases h
    obtain ⟨hblock, hregister⟩ := Option.filter_eq_some_iff.mp hoffset
    left
    use offset
  · obtain ⟨port, _, hport⟩ := List.exists_of_findSome?_eq_some h
    obtain ⟨offset, hoffset, rfl⟩ := Option.map_eq_some_iff.mp hport
    obtain ⟨hblock, hregister⟩ := Option.filter_eq_some_iff.mp hoffset
    right
    use port, offset, rfl, hblock

/-- A device that answers at a word-aligned address is in the list. -/
theorem deviceAt?_word {address : Word} {target : Target} (h : deviceAt? address = some target)
    (haddress : address.toNat % 4 = 0) :
  (address, target) ∈ deviceWords
  := by
  rcases deviceAt?_some h with ⟨offset, rfl, hblock, hregister⟩
    | ⟨port, offset, rfl, hblock, hregister⟩
  · obtain ⟨rfl, hword⟩ := blockOffset?_word hblock rfl haddress
    rw [hword] at hregister
    apply List.mem_append_left
    apply List.mem_map.mpr
    use offset, Gpio.mem_offsets hregister
  · obtain ⟨rfl, hword⟩ := blockOffset?_word hblock (serialBase_aligned port) haddress
    rw [hword] at hregister
    apply List.mem_append_right
    apply List.mem_flatMap.mpr
    use port, List.mem_finRange port
    apply List.mem_map.mpr
    use offset, Serial.mem_offsets hregister

/-! ### Routed transfers -/

/-- Routing looks at nothing but the size of memory. -/
theorem route_congr {bus bus' : Bus} (h : bus'.sram.size = bus.sram.size) :
  bus'.route = bus.route
  := by
  funext address width purpose
  simp only [route, h]

theorem checkAlignment_ok {address : Word} {width : Width} {u : Unit}
    (h : checkAlignment address width = .ok u) :
  address.toNat % width.bytes = 0
  := by
  rw [checkAlignment] at h
  split at h
  · next halign => apply halign
  · cases h

/-- A routed transfer is aligned, and goes to memory or else to a device. -/
theorem route_ok {bus : Bus} {address : Word} {width : Width} {purpose : Purpose}
    {target : Target} (h : bus.route address width purpose = .ok target) :
  address.toNat % width.bytes = 0
    ∧ ((∃ offset, target = .sram offset
          ∧ sramOffset? address width.bytes bus.sram.size = some offset)
      ∨ sramOffset? address width.bytes bus.sram.size = none ∧ deviceAt? address = some target)
  := by
  simp only [route, bind, Except.bind] at h
  split at h
  · cases h
  · next halign =>
    use checkAlignment_ok halign
    split at h
    · cases h
    · split at h
      · next offset hoffset =>
        cases h
        left
        use offset
      · next hnone =>
        split at h
        · next hdevice =>
          cases h
          right
          use hnone
        · cases h

theorem checkRights_of_route {bus : Bus} {address : Word} {width : Width} {purpose : Purpose}
    {target : Target} (h : bus.route address width purpose = .ok target) :
  checkRights address purpose = .ok ()
  := by
  simp only [route, bind, Except.bind] at h
  split at h
  · cases h
  · split at h
    · cases h
    · next hrights => apply hrights

/-- An aligned transfer for a permitted purpose goes to memory if its span lies there. -/
theorem route_of_span {bus : Bus} {address : Word} {width : Width} {purpose : Purpose}
    {offset : Nat} (halign : address.toNat % width.bytes = 0)
    (hrights : checkRights address purpose = .ok ())
    (hspan : sramOffset? address width.bytes bus.sram.size = some offset) :
  bus.route address width purpose = .ok (.sram offset)
  := by
  simp only [route, bind, Except.bind, checkAlignment, if_pos halign, hrights, hspan]

/-- What can be written can be read. -/
theorem checkRights_read {address : Word} (h : checkRights address .write = .ok ()) :
  checkRights address .read = .ok ()
  := by
  rw [checkRights] at h ⊢
  split at h
  · cases h
  · rfl

/-- Nothing below memory can be written. -/
theorem sramBase_le_of_write {address : Word} (h : checkRights address .write = .ok ()) :
  sramBase ≤ address
  := by
  rw [checkRights] at h
  split at h
  · cases h
  · next region hregion =>
    have hcontains := List.find?_some hregion
    simp only [Region.contains, Bool.and_eq_true, decide_eq_true_iff] at hcontains
    cases region with
    | bootRom | flash => cases h
    | sram | apb | ahbLite | ahb | sio => apply UInt32.le_trans (by decide) hcontains.1

/-- A span in memory lies between the ends of memory. -/
theorem sramOffset?_some {address : Word} {length size offset : Nat}
    (h : sramOffset? address length size = some offset) :
  sramBase.toNat ≤ address.toNat ∧ address.toNat + length ≤ sramBase.toNat + size
    ∧ offset = address.toNat - sramBase.toNat
  := by
  simp only [sramOffset?] at h
  split at h
  · next hspan =>
    obtain rfl := Option.some.inj h
    apply And.intro hspan.1
    apply And.intro hspan.2 rfl
  · cases h

/-- A span above one that sticks out of the end of memory is not in memory either. -/
theorem sramOffset?_none_of_le {low high : Word} {length size : Nat}
    (h : sramOffset? low length size = none) (hbase : sramBase.toNat ≤ low.toNat)
    (hle : low.toNat ≤ high.toNat) :
  sramOffset? high length size = none
  := by
  simp only [sramOffset?] at h ⊢
  split at h
  · cases h
  · next hout =>
    rw [if_neg]
    omega

/-! ### Consecutive words

Which registers can follow one another decides how far a transfer of several words can get
before it is rejected.
-/

/-- A word that reaches a serial port does so outside memory, at the address of a register. -/
theorem route_serial {bus : Bus} {address offset : Word} {purpose : Purpose} {port : Fin 2}
    (h : bus.route address .word purpose = .ok (.serial port offset)) :
  address = serialBase.get port + offset ∧ registerOffset offset = offset
    ∧ sramOffset? address 4 bus.sram.size = none
  := by
  obtain ⟨halign, ⟨_, htarget, _⟩ | ⟨hnone, hdevice⟩⟩ := route_ok h
  · cases htarget
  · rcases deviceAt?_some hdevice with ⟨_, htarget, _⟩ | ⟨_, _, htarget, hblock, _⟩
    · cases htarget
    · cases htarget
      obtain ⟨haddress, hword⟩ := blockOffset?_word hblock (serialBase_aligned port) halign
      use haddress, hword, hnone

theorem serialBase_ge (port : Fin 2) :
  sramBase.toNat ≤ (serialBase.get port).toNat
  := by decide +revert

/-- Above a data register that is reached there is no more memory. -/
theorem mem_deviceWords_above_data {bus : Bus} {purpose purpose' : Purpose} {port : Fin 2}
    {address : Word} {target : Target}
    (h : bus.route (serialBase.get port) .word purpose = .ok (.serial port 0))
    (hle : (serialBase.get port).toNat ≤ address.toNat)
    (habove : bus.route address .word purpose' = .ok target) :
  (address, target) ∈ deviceWords
  := by
  obtain ⟨_, _, hnone⟩ := route_serial h
  obtain ⟨halign, ⟨_, _, hsome⟩ | ⟨_, hdevice⟩⟩ := route_ok habove
  · rw [Width.bytes, sramOffset?_none_of_le hnone (serialBase_ge port) hle] at hsome
    cases hsome
  · apply deviceAt?_word hdevice halign

theorem deviceWords_data_succ (port : Fin 2) :
  ∀ entry ∈ deviceWords, entry.1 = serialBase.get port + 4 → entry.2 = .serial port 4
  := by decide +revert

theorem deviceWords_data_succ_succ (port : Fin 2) :
  ∀ entry ∈ deviceWords, entry.1 ≠ serialBase.get port + 4 + 4
  := by decide +revert

theorem serialBase_le_add (port : Fin 2) :
  (serialBase.get port).toNat ≤ (serialBase.get port + 4).toNat
    ∧ (serialBase.get port).toNat ≤ (serialBase.get port + 4 + 4).toNat
  := by decide +revert

/-- The data register is followed by the error register. -/
theorem route_data_succ {bus : Bus} {purpose purpose' : Purpose} {port : Fin 2} {target : Target}
    (h : bus.route (serialBase.get port) .word purpose = .ok (.serial port 0))
    (hnext : bus.route (serialBase.get port + 4) .word purpose' = .ok target) :
  target = .serial port 4
  := by
  have hmem := mem_deviceWords_above_data h (serialBase_le_add port).1 hnext
  apply deviceWords_data_succ port _ hmem rfl

/-- Nothing answers behind the error register. -/
theorem route_data_succ_succ {bus : Bus} {purpose purpose' : Purpose} {port : Fin 2}
    {target : Target} (h : bus.route (serialBase.get port) .word purpose = .ok (.serial port 0)) :
  bus.route (serialBase.get port + 4 + 4) .word purpose' ≠ .ok target
  := by
  intro hnext
  have hmem := mem_deviceWords_above_data h (serialBase_le_add port).2 hnext
  apply deviceWords_data_succ_succ port _ hmem rfl

end Bus

end ThumbSoc
