import ThumbSoc.Proofs.Bus.Access

/-!
# Checks before transfers

A check says how a transfer at an address would end, without making it. Checks of reads and of
fetches are exact. A check of a write asks whether a register answers and not whether it takes
writes, so it accepts five registers that every write is rejected by. Everywhere else it is
exact as well, whatever the value is.
-/

namespace ThumbSoc.Bus

/-- How a transfer ended, without what it did. -/
def verdict {α : Type} : EStateM.Result BusFault Bus α → Except BusFault Unit
  | .ok _ _ => .ok ()
  | .error fault _ => .error fault

/-- The addresses of the registers that can only be read: the number of the core and the two
levels of the pin block, and the status of each serial port. -/
def readOnlyRegisters : List Word :=
  [0xD0000000, 0xD0000004, 0xD0000008, 0x40034018, 0x40038018]

/-- A transfer at the address is aligned and reaches, outside memory, a register that can only
be read. -/
def Refuses (bus : Bus) (address : Word) (width : Width) : Prop :=
  address.toNat % width.bytes = 0
    ∧ sramOffset? address width.bytes bus.sram.size = none
    ∧ Word.align address 4 ∈ readOnlyRegisters

instance (bus : Bus) (address : Word) (width : Width) : Decidable (bus.Refuses address width) :=
  inferInstanceAs (Decidable (_ ∧ _ ∧ _))

/-! ### Registers that can only be read -/

theorem gpio_readOnly :
  ∀ offset ∈ Gpio.offsets, (Gpio.register? offset).any Gpio.Register.readOnly = true →
    sioBase + offset ∈ readOnlyRegisters
  := by
  apply forall_mem_of_all
  decide

theorem serial_readOnly (port : Fin 2) :
  ∀ offset ∈ Serial.offsets, (Serial.register? offset).any Serial.Register.readOnly = true →
    serialBase.get port + offset ∈ readOnlyRegisters
  := by
  apply forall_mem_of_all
  decide +revert

/-- The register that an address in a block belongs to. -/
theorem align_block {base address offset : Word} (h : blockOffset? base address = some offset)
    (hbase : base.toNat % 4 = 0) :
  Word.align address 4 = base + registerOffset offset
  := by
  rw [blockOffset?] at h
  split at h
  · next hle =>
    cases h
    have hsub := UInt32.toNat_sub_of_le _ _ hle.1
    have hlt := address.toNat_lt
    apply UInt32.toNat_inj.mp
    rw [registerOffset, UInt32.toNat_add, Word.toNat_and_not_three, hsub]
    change (address &&& ~~~3).toNat = _
    rw [Word.toNat_and_not_three]
    have hle := UInt32.le_iff_toNat_le.mp hle.1
    omega
  · cases h

/-- A device register that takes no writes is in the list. -/
theorem deviceAt?_readOnly {address : Word} {target : Target}
    (h : deviceAt? address = some target) (hreadOnly : target.readOnly = true) :
  Word.align address 4 ∈ readOnlyRegisters
  := by
  rcases deviceAt?_some h with ⟨offset, rfl, hblock, hregister⟩
    | ⟨port, offset, rfl, hblock, hregister⟩
  · rw [align_block hblock rfl]
    apply gpio_readOnly _ (Gpio.mem_offsets hregister) hreadOnly
  · rw [align_block hblock (serialBase_aligned port)]
    apply serial_readOnly port _ (Serial.mem_offsets hregister) hreadOnly

/-- Each byte of a register in the list lies in a region that can be written and is answered
by a device. -/
theorem readOnlyRegisters_answer :
  ∀ register ∈ readOnlyRegisters, ∀ k < 4,
    (Region.of? (register + UInt32.ofNat k)).any (·.rights.writable) = true
      ∧ (deviceAt? (register + UInt32.ofNat k)).any Target.readOnly = true
  := by
  apply forall_mem_of_all
  decide

/-- An address is that of its register and one of the four bytes in it. -/
theorem align_add (address : Word) :
  address = Word.align address 4 + UInt32.ofNat (address.toNat % 4)
  := by
  have hlt := address.toNat_lt
  apply UInt32.toNat_inj.mp
  rw [UInt32.toNat_add]
  change _ = ((address &&& ~~~3).toNat + _) % _
  rw [Word.toNat_and_not_three, UInt32.toNat_ofNat']
  omega

/-- Refused writes are those that are routed to a register that takes none. -/
theorem refuses_iff {bus : Bus} {address : Word} {width : Width} :
  bus.Refuses address width
    ↔ ∃ target, bus.route address width .write = .ok target ∧ target.readOnly = true
  := by
  constructor
  · rintro ⟨halign, hnone, hmem⟩
    have hanswer := readOnlyRegisters_answer _ hmem _ (Nat.mod_lt address.toNat (by decide))
    rw [← align_add] at hanswer
    obtain ⟨hregion, hdevice⟩ := hanswer
    obtain ⟨region, hregion, hwritable⟩ := (Option.any_eq_true _ _).mp hregion
    obtain ⟨target, htarget, hreadOnly⟩ := (Option.any_eq_true _ _).mp hdevice
    use target
    apply And.intro _ hreadOnly
    simp only [route, bind, Except.bind, checkAlignment, if_pos halign, checkRights, hregion,
      if_pos hwritable, hnone, htarget]
  · rintro ⟨target, hroute, hreadOnly⟩
    obtain ⟨halign, ⟨offset, rfl, _⟩ | ⟨hnone, hdevice⟩⟩ := route_ok hroute
    · cases hreadOnly
    · use halign, hnone, deviceAt?_readOnly hdevice hreadOnly

/-! ### Fetches -/

theorem serialBase_first (port : Fin 2) :
  serialBase[0] ≤ serialBase.get port
  := by decide +revert

/-- Devices answer above every region that can be executed. -/
theorem deviceAt?_above {address : Word} {target : Target} (h : deviceAt? address = some target) :
  serialBase[0] ≤ address
  := by
  have hblock {base offset : Word} (hbase : serialBase[0] ≤ base)
      (hblock : blockOffset? base address = some offset) : serialBase[0] ≤ address := by
    rw [blockOffset?] at hblock
    split at hblock
    · next hle => apply UInt32.le_trans hbase hle.1
    · cases hblock
  rcases deviceAt?_some h with ⟨_, _, hoffset, _⟩ | ⟨port, _, _, hoffset, _⟩
  · apply hblock (by decide) hoffset
  · apply hblock (serialBase_first port) hoffset

/-- What can be executed lies below the devices. -/
theorem checkRights_fetch {address : Word} {u : Unit} (h : checkRights address .fetch = .ok u) :
  address < serialBase[0]
  := by
  rw [checkRights] at h
  split at h
  · cases h
  · next region hregion =>
    have hcontains := List.find?_some hregion
    simp only [Region.contains, Bool.and_eq_true, decide_eq_true_iff] at hcontains
    cases region with
    | bootRom | flash | sram => apply UInt32.lt_of_le_of_lt hcontains.2 (by decide)
    | apb | ahbLite | ahb | sio => cases h

/-- A fetch that is routed goes to memory. -/
theorem route_fetch {bus : Bus} {address : Word} {width : Width} {target : Target}
    (h : bus.route address width .fetch = .ok target) :
  ∃ offset, target = .sram offset
  := by
  obtain ⟨_, ⟨offset, hoffset, _⟩ | ⟨_, hdevice⟩⟩ := route_ok h
  · use offset
  · have hbelow := checkRights_fetch (checkRights_of_route h)
    exact absurd (deviceAt?_above hdevice) (UInt32.not_le.mpr hbelow)

/-! ### Checks and transfers -/

theorem probe_read (bus : Bus) (address : Word) (width : Width) :
  bus.probe address width .read = verdict (Bus.read address width bus)
  := by
  rw [probe]
  cases hroute : bus.route address width .read with
  | error fault =>
    rw [read_unrouted hroute]
    rfl
  | ok target =>
    obtain ⟨value, hvalue⟩ := read_routed hroute
    rw [hvalue]
    rfl

theorem probe_fetch (bus : Bus) (address : Word) :
  bus.probe address .halfword .fetch = (bus.fetch address).map fun _ => ()
  := by
  rw [probe, fetch]
  cases hroute : bus.route address .halfword .fetch with
  | error fault => rfl
  | ok target =>
    obtain ⟨offset, rfl⟩ := route_fetch hroute
    rfl

theorem probe_write (bus : Bus) (address : Word) (width : Width) (value : Word) :
  verdict (Bus.write address width value bus)
    = if bus.Refuses address width then .error (.readOnly address)
      else bus.probe address width .write
  := by
  cases hroute : bus.route address width .write with
  | error fault =>
    rw [write_unrouted hroute, if_neg, probe, hroute]
    · rfl
    · rw [refuses_iff, hroute]
      rintro ⟨_, ⟨⟩, _⟩
  | ok target =>
    have hwrite := write_routed hroute value
    cases hreadOnly : target.readOnly with
    | true =>
      rw [hreadOnly, if_pos rfl] at hwrite
      rw [hwrite, if_pos (refuses_iff.mpr ⟨target, hroute, hreadOnly⟩)]
      rfl
    | false =>
      rw [hreadOnly] at hwrite
      obtain ⟨after, hafter⟩ := hwrite
      rw [hafter, if_neg, probe, hroute]
      · rfl
      · rw [refuses_iff, hroute]
        rintro ⟨_, ⟨⟩, hother⟩
        rw [hreadOnly] at hother
        cases hother

/-- A check of a read and a check of a fetch end as the read and the fetch do, with the same
fault if there is one. So does a check of a write, for every value, except at a register that
can only be read: the check accepts it, and the write is rejected because of it. -/
theorem probe_eq_verdict (bus : Bus) (address : Word) (width : Width) :
  bus.probe address width .read = verdict (Bus.read address width bus)
    ∧ bus.probe address .halfword .fetch = (bus.fetch address).map (fun _ => ())
    ∧ if bus.Refuses address width then
        bus.probe address width .write = .ok ()
          ∧ ∀ value, verdict (Bus.write address width value bus) = .error (.readOnly address)
      else ∀ value, bus.probe address width .write
        = verdict (Bus.write address width value bus)
  := by
  constructor
  · apply probe_read
  constructor
  · apply probe_fetch
  · split
    · next hrefuses =>
      constructor
      · obtain ⟨target, hroute, _⟩ := refuses_iff.mp hrefuses
        rw [probe, hroute]
        rfl
      · intro value
        rw [probe_write, if_pos hrefuses]
    · next haccepts =>
      intro value
      rw [probe_write, if_neg haccepts]

/-- The check of a write to the status register of a serial port does not predict its end. -/
theorem not_forall_probe_write :
  ¬ ∀ (bus : Bus) (address : Word) (width : Width) (value : Word),
      bus.probe address width .write = verdict (Bus.write address width value bus)
  := by
  intro h
  have hstatus := h (.initial 4) 0x40034018 .word 0
  rw [probe_write, if_pos (by decide)] at hstatus
  cases hstatus

end ThumbSoc.Bus
