import ThumbSoc.Proofs.Bus.Probe

/-!
# Accepted transfers

Which transfers the bus accepts, said without routing: they are aligned, and all their bytes
lie in memory or they reach a device register, which for a write must be one that takes writes.
And which fault a rejected transfer raises, with its order of precedence. A rejected transfer has
no effect, and its fault blames its address.

Memory of permitted size lies within its region, and every device register lies in a region
that can be written. This is what makes the separate checks of routing agree with the single
condition here.
-/

namespace ThumbSoc

/-! ### Regions -/

/-- An address lies in some region. -/
def Mapped (address : Word) : Prop :=
  ∃ region ∈ Region.all, region.contains address = true

/-- An address lies in a region that takes no writes. -/
def Protected (address : Word) : Prop :=
  ∃ region ∈ Region.all, region.contains address = true ∧ region.rights.writable = false

instance (address : Word) : Decidable (Mapped address) :=
  inferInstanceAs (Decidable (∃ region ∈ Region.all, _))

instance (address : Word) : Decidable (Protected address) :=
  inferInstanceAs (Decidable (∃ region ∈ Region.all, _))

theorem Region.contains_iff {region : Region} {address : Word} :
  region.contains address = true ↔ region.start ≤ address ∧ address ≤ region.last
  := by simp [Region.contains]

/-- No two regions overlap. -/
theorem Region.eq_of_contains {region region' : Region} {address : Word}
    (h : region.contains address = true) (h' : region'.contains address = true) :
  region = region'
  := by
  rw [contains_iff] at h h'
  have hle : region.start ≤ region'.last := UInt32.le_trans h.1 h'.2
  have hle' : region'.start ≤ region.last := UInt32.le_trans h'.1 h.2
  revert hle hle'
  clear h h'
  cases region
  all_goals cases region'
  all_goals decide

theorem Region.mem_all (region : Region) :
  region ∈ Region.all
  := by
  cases region
  all_goals decide

/-- The region of an address is the one that contains it. -/
theorem Region.of?_eq_some {region : Region} {address : Word} :
  Region.of? address = some region ↔ region.contains address = true
  := by
  rw [Region.of?]
  constructor
  · intro h
    have hcontains := List.find?_some h
    apply hcontains
  · intro h
    cases hfound : Region.all.find? (·.contains address) with
    | none =>
      have hout := List.find?_eq_none.mp hfound region region.mem_all
      exact absurd h hout
    | some found =>
      have hcontains := List.find?_some hfound
      rw [Region.eq_of_contains hcontains h]

theorem Region.of?_eq_none {address : Word} :
  Region.of? address = none ↔ ¬ Mapped address
  := by simp [Region.of?, Mapped]

/-- Reads are permitted in every region. -/
theorem checkRights_read_eq (address : Word) :
  checkRights address .read = if Mapped address then .ok () else .error (.unmapped address)
  := by
  rw [checkRights]
  split
  · next hnone => rw [if_neg (Region.of?_eq_none.mp hnone)]
  · next region hregion =>
    have hmapped : Mapped address := ⟨region, region.mem_all, Region.of?_eq_some.mp hregion⟩
    rw [if_pos hmapped]

/-- Writes are permitted in every region that is not protected. -/
theorem checkRights_write_eq (address : Word) :
  checkRights address .write
    = if ¬ Mapped address then .error (.unmapped address)
      else if Protected address then .error (.readOnly address)
      else .ok ()
  := by
  rw [checkRights]
  split
  · next hnone => rw [if_pos (Region.of?_eq_none.mp hnone)]
  · next region hregion =>
    have hcontains := Region.of?_eq_some.mp hregion
    have hmapped : Mapped address := ⟨region, region.mem_all, hcontains⟩
    have hprotected : Protected address ↔ region.rights.writable = false := by
      constructor
      · rintro ⟨other, _, hother, hwritable⟩
        rwa [Region.eq_of_contains hcontains hother]
      · intro hwritable
        use region, region.mem_all
    rw [if_neg (not_not_intro hmapped)]
    cases hwritable : region.rights.writable with
    | true => simp [hprotected, hwritable]
    | false => simp [hprotected, hwritable]

theorem Width.bytes_pos (width : Width) :
  0 < width.bytes
  := by
  cases width
  all_goals decide

theorem Width.bytes_le (width : Width) :
  width.bytes ≤ 4
  := by
  cases width
  all_goals decide

namespace Bus

/-! ### The conditions -/

/-- The addresses of the device registers. -/
def registers : List Word :=
  deviceWords.map (·.1)

/-- All bytes of a transfer lie in memory. -/
def InMemory (bus : Bus) (address : Word) (width : Width) : Prop :=
  ∀ k < width.bytes, sramBase.toNat ≤ address.toNat + k
    ∧ address.toNat + k < sramBase.toNat + bus.sram.size

/-- All bytes of a transfer lie in memory, and in the region of memory. -/
def InSram (bus : Bus) (address : Word) (width : Width) : Prop :=
  bus.InMemory address width ∧ address.toNat + width.bytes ≤ sramBase.toNat + sramWindow

/-- An address belongs to a device register, which for a write must be one that takes
writes. -/
def AtRegister (address : Word) (writes : Bool) : Prop :=
  Word.align address 4 ∈ registers
    ∧ (writes = true → Word.align address 4 ∉ readOnlyRegisters)

/-- The bus accepts a transfer. -/
def Accepts (bus : Bus) (address : Word) (width : Width) (writes : Bool) : Prop :=
  address.toNat % width.bytes = 0 ∧ (bus.InMemory address width ∨ AtRegister address writes)

instance (bus : Bus) (address : Word) (width : Width) : Decidable (bus.InMemory address width) :=
  inferInstanceAs (Decidable (∀ k < width.bytes, _))

instance (bus : Bus) (address : Word) (width : Width) : Decidable (bus.InSram address width) :=
  inferInstanceAs (Decidable (_ ∧ _))

instance (address : Word) (writes : Bool) : Decidable (AtRegister address writes) :=
  inferInstanceAs (Decidable (_ ∧ _))

instance (bus : Bus) (address : Word) (width : Width) (writes : Bool) :
    Decidable (bus.Accepts address width writes) :=
  inferInstanceAs (Decidable (_ ∧ _))

/-- The fault that a transfer raises if it is not accepted. -/
def rejection (address : Word) (width : Width) (writes : Bool) : BusFault :=
  if address.toNat % width.bytes ≠ 0 then .misaligned address width
  else if ¬ Mapped address then .unmapped address
  else if writes = true ∧ (Protected address ∨ Word.align address 4 ∈ readOnlyRegisters) then
    .readOnly address
  else .unmapped address

/-! ### Memory -/

section

variable {bus : Bus} {address : Word} {width : Width} {writes : Bool} {purpose : Purpose}

theorem inMemory_iff :
  bus.InMemory address width
    ↔ ∃ offset, sramOffset? address width.bytes bus.sram.size = some offset
  := by
  have hpos := width.bytes_pos
  constructor
  · intro h
    have hfirst := h 0 hpos
    have hlast := h (width.bytes - 1) (Nat.sub_lt hpos Nat.one_pos)
    use address.toNat - sramBase.toNat
    rw [sramOffset?, if_pos (by omega)]
  · rintro ⟨offset, hoffset⟩ k hk
    obtain ⟨hbase, hend, _⟩ := sramOffset?_some hoffset
    omega

/-- Where the span of a transfer in memory lies. -/
theorem InMemory.offset (h : bus.InMemory address width) :
  sramOffset? address width.bytes bus.sram.size = some (address.toNat - sramBase.toNat)
    ∧ sramBase.toNat ≤ address.toNat
    ∧ address.toNat - sramBase.toNat + width.bytes ≤ bus.sram.size
  := by
  obtain ⟨offset, hoffset⟩ := inMemory_iff.mp h
  obtain ⟨hbase, hend, hstart⟩ := sramOffset?_some hoffset
  rw [← hstart]
  use hoffset, hbase
  omega

/-- Memory of permitted size does not leave its region. -/
theorem inSram_iff (hsize : bus.sram.size ≤ sramWindow) :
  bus.InSram address width ↔ bus.InMemory address width
  := by
  constructor
  · apply And.left
  · intro h
    obtain ⟨_, hbase, hfits⟩ := h.offset
    use h
    omega

/-- The region of memory can be written. -/
theorem InSram.rights (h : bus.InSram address width) :
  checkRights address .write = .ok ()
  := by
  obtain ⟨hbase, _⟩ := h.1 0 width.bytes_pos
  have hend := h.2
  have hpos := width.bytes_pos
  have hcontains : Region.sram.contains address = true := by
    rw [Region.contains_iff, UInt32.le_iff_toNat_le, UInt32.le_iff_toNat_le]
    change 0x20000000 ≤ address.toNat ∧ address.toNat ≤ 0x200427FF
    change 0x20000000 ≤ address.toNat at hbase
    change address.toNat + width.bytes ≤ 0x20000000 + 0x42800 at hend
    omega
  simp only [checkRights, Region.of?_eq_some.mpr hcontains, Region.rights, if_true]

theorem InMemory.rights (h : bus.InMemory address width) (hsize : bus.sram.size ≤ sramWindow) :
  checkRights address .write = .ok ()
  := ((inSram_iff hsize).mpr h).rights

/-! ### Devices -/

/-- Every byte of a register lies in a region that can be written, and a device answers it. -/
theorem registers_answer :
  ∀ register ∈ registers, ∀ k < 4,
    checkRights (register + UInt32.ofNat k) .write = .ok ()
      ∧ (deviceAt? (register + UInt32.ofNat k)).isSome = true
  := by
  apply forall_mem_of_all
  decide

theorem readOnlyRegisters_subset :
  ∀ register ∈ readOnlyRegisters, register ∈ registers
  := by
  apply forall_mem_of_all
  decide

theorem mem_registers {target : Target} (h : (address, target) ∈ deviceWords) :
  address ∈ registers
  := List.mem_map_of_mem (f := (·.1)) h

/-- A device answers at the bytes of its registers. -/
theorem deviceAt?_iff :
  (∃ target, deviceAt? address = some target) ↔ Word.align address 4 ∈ registers
  := by
  constructor
  · rintro ⟨target, htarget⟩
    rcases deviceAt?_some htarget with ⟨offset, rfl, hblock, hregister⟩
      | ⟨port, offset, rfl, hblock, hregister⟩
    · rw [align_block hblock rfl]
      apply @mem_registers _ (.gpio (registerOffset offset))
      apply List.mem_append_left
      apply List.mem_map.mpr
      use registerOffset offset, Gpio.mem_offsets hregister
    · rw [align_block hblock (serialBase_aligned port)]
      apply @mem_registers _ (.serial port (registerOffset offset))
      apply List.mem_append_right
      apply List.mem_flatMap.mpr
      use port, List.mem_finRange port
      apply List.mem_map.mpr
      use registerOffset offset, Serial.mem_offsets hregister
  · intro h
    have hanswer := registers_answer _ h _ (Nat.mod_lt address.toNat (by decide))
    rw [← align_add] at hanswer
    apply Option.isSome_iff_exists.mp hanswer.2

theorem rights_of_mem_registers (h : Word.align address 4 ∈ registers) :
  checkRights address .write = .ok ()
  := by
  have hanswer := registers_answer _ h _ (Nat.mod_lt address.toNat (by decide))
  rw [← align_add] at hanswer
  apply hanswer.1

/-! ### Routing -/

/-- The three ways in which routing fails: alignment, rights, and nothing being there. -/
theorem route_error {fault : BusFault} (h : bus.route address width purpose = .error fault) :
  (address.toNat % width.bytes ≠ 0 ∧ fault = .misaligned address width)
    ∨ address.toNat % width.bytes = 0
      ∧ (checkRights address purpose = .error fault
        ∨ checkRights address purpose = .ok () ∧ fault = .unmapped address)
  := by
  simp only [route, bind, Except.bind, checkAlignment] at h
  by_cases halign : address.toNat % width.bytes = 0
  · rw [if_pos halign] at h
    right
    use halign
    cases hrights : checkRights address purpose with
    | error e =>
      simp only [hrights] at h
      cases h
      left
      rfl
    | ok u =>
      simp only [hrights] at h
      right
      use rfl
      split at h
      · cases h
      · split at h
        · cases h
        · cases h
          rfl
  · rw [if_neg halign] at h
    cases h
    left
    apply And.intro halign rfl

/-- What is routed, for reads and for writes alike. -/
theorem route_iff (hsize : bus.sram.size ≤ sramWindow) (purpose : Purpose)
    (hpurpose : purpose ≠ .fetch) :
  (∃ target, bus.route address width purpose = .ok target)
    ↔ address.toNat % width.bytes = 0
      ∧ (bus.InMemory address width ∨ Word.align address 4 ∈ registers)
  := by
  constructor
  · rintro ⟨target, hroute⟩
    obtain ⟨halign, ⟨offset, _, hoffset⟩ | ⟨_, hdevice⟩⟩ := route_ok hroute
    · use halign
      left
      apply inMemory_iff.mpr
      use offset
    · use halign
      right
      apply deviceAt?_iff.mp
      use target
  · rintro ⟨halign, hplace⟩
    have hwrite : checkRights address .write = .ok () := by
      rcases hplace with hmemory | hregister
      · apply hmemory.rights hsize
      · apply rights_of_mem_registers hregister
    have hrights : checkRights address purpose = .ok () := by
      cases purpose with
      | read => apply checkRights_read hwrite
      | write => apply hwrite
      | fetch => exact absurd rfl hpurpose
    by_cases hmemory : bus.InMemory address width
    · obtain ⟨offset, hoffset⟩ := inMemory_iff.mp hmemory
      use .sram offset
      apply route_of_span halign hrights hoffset
    · have hregister := hplace.resolve_left hmemory
      obtain ⟨target, htarget⟩ := deviceAt?_iff.mpr hregister
      have hnone : sramOffset? address width.bytes bus.sram.size = none := by
        apply Option.eq_none_iff_forall_ne_some.mpr
        intro offset hoffset
        apply hmemory
        apply inMemory_iff.mpr
        use offset
      use target
      simp only [route, bind, Except.bind, checkAlignment, if_pos halign, hrights, hnone, htarget]

/-! ### Reads and writes -/

theorem accepts_read_iff (hsize : bus.sram.size ≤ sramWindow) :
  bus.Accepts address width false ↔ ∃ target, bus.route address width .read = .ok target
  := by
  rw [route_iff hsize .read nofun]
  simp [Accepts, AtRegister]

/-- The writes that are accepted are those that are routed and not refused. -/
theorem accepts_write_iff (hsize : bus.sram.size ≤ sramWindow) :
  bus.Accepts address width true
    ↔ (∃ target, bus.route address width .write = .ok target) ∧ ¬ bus.Refuses address width
  := by
  rw [route_iff hsize .write nofun]
  constructor
  · rintro ⟨halign, hmemory | ⟨hregister, htakes⟩⟩
    · use ⟨halign, Or.inl hmemory⟩
      rintro ⟨_, hnone, _⟩
      obtain ⟨offset, hoffset⟩ := inMemory_iff.mp hmemory
      rw [hoffset] at hnone
      cases hnone
    · use ⟨halign, Or.inr hregister⟩
      rintro ⟨_, _, hreadOnly⟩
      apply htakes rfl hreadOnly
  · rintro ⟨⟨halign, hplace⟩, htakes⟩
    use halign
    by_cases hmemory : bus.InMemory address width
    · left
      apply hmemory
    · right
      use hplace.resolve_left hmemory
      intro _ hreadOnly
      apply htakes
      use halign
      apply And.intro _ hreadOnly
      apply Option.eq_none_iff_forall_ne_some.mpr
      intro offset hoffset
      apply hmemory
      apply inMemory_iff.mpr
      use offset

/-- A read that is not routed raises the fault of its rejection. -/
theorem route_read_error {fault : BusFault}
    (h : bus.route address width .read = .error fault) :
  fault = rejection address width false
  := by
  rw [rejection]
  rcases route_error h with ⟨halign, rfl⟩ | ⟨halign, hrights | ⟨_, rfl⟩⟩
  · rw [if_pos halign]
  · rw [checkRights_read_eq] at hrights
    split at hrights
    · cases hrights
    · cases hrights
      simp [halign]
  · simp [halign]

/-- So does a write. Nothing is there, and so no register that could refuse it. -/
theorem route_write_error {fault : BusFault} (hsize : bus.sram.size ≤ sramWindow)
    (h : bus.route address width .write = .error fault) :
  fault = rejection address width true
  := by
  rw [rejection]
  rcases route_error h with ⟨halign, rfl⟩ | ⟨halign, hrights | ⟨hrights, rfl⟩⟩
  · rw [if_pos halign]
  · rw [checkRights_write_eq] at hrights
    split at hrights
    · next hunmapped =>
      cases hrights
      simp [halign, hunmapped]
    · next hmapped =>
      split at hrights
      · next hprotected =>
        cases hrights
        simp [halign, not_not.mp hmapped, hprotected]
      · cases hrights
  · rw [checkRights_write_eq] at hrights
    split at hrights
    · cases hrights
    · next hmapped =>
      split at hrights
      · cases hrights
      · next hfree =>
        have habsent : Word.align address 4 ∉ readOnlyRegisters := by
          intro hreadOnly
          have hregister := readOnlyRegisters_subset _ hreadOnly
          obtain ⟨target, htarget⟩ :=
            (route_iff hsize .write nofun).mpr ⟨halign, Or.inr hregister⟩
          rw [h] at htarget
          cases htarget
        simp [halign, not_not.mp hmapped, hfree, habsent]

/-- A refused write raises the fault of its rejection. -/
theorem Refuses.rejection (h : bus.Refuses address width) :
  Bus.rejection address width true = .readOnly address
  := by
  obtain ⟨target, hroute, _⟩ := refuses_iff.mp h
  have hmapped : Mapped address := by
    have hrights := checkRights_of_route hroute
    rw [checkRights_write_eq] at hrights
    split at hrights
    · cases hrights
    · next hmapped => apply not_not.mp hmapped
  obtain ⟨halign, _, hreadOnly⟩ := h
  simp [Bus.rejection, halign, hmapped, hreadOnly]

/-- A read succeeds if it is accepted. Otherwise it raises the fault of its rejection and has no
effect. -/
theorem read_decided (hsize : bus.sram.size ≤ sramWindow) :
  if bus.Accepts address width false then
    ∃ value after, Bus.read address width bus = .ok value after
  else Bus.read address width bus = .error (rejection address width false) bus
  := by
  cases hroute : bus.route address width .read with
  | ok target =>
    rw [if_pos ((accepts_read_iff hsize).mpr ⟨target, hroute⟩)]
    obtain ⟨value, hvalue⟩ := read_routed hroute
    use value, bus.afterRead target
  | error fault =>
    rw [if_neg, read_unrouted hroute, route_read_error hroute]
    rw [accepts_read_iff hsize, hroute]
    rintro ⟨_, ⟨⟩⟩

/-- A write succeeds if it is accepted. Otherwise it raises the fault of its rejection and has no
effect. -/
theorem write_decided (hsize : bus.sram.size ≤ sramWindow) (value : Word) :
  if bus.Accepts address width true then
    ∃ after, Bus.write address width value bus = .ok () after
  else Bus.write address width value bus = .error (rejection address width true) bus
  := by
  cases hroute : bus.route address width .write with
  | ok target =>
    have hwrite := write_routed hroute value
    cases hreadOnly : target.readOnly with
    | true =>
      have hrefuses := refuses_iff.mpr ⟨target, hroute, hreadOnly⟩
      rw [hreadOnly, if_pos rfl] at hwrite
      rw [if_neg, hwrite, hrefuses.rejection]
      rw [accepts_write_iff hsize]
      intro haccepts
      apply haccepts.2 hrefuses
    | false =>
      rw [hreadOnly] at hwrite
      rw [if_pos]
      · apply hwrite
      · apply (accepts_write_iff hsize).mpr
        use ⟨target, hroute⟩
        intro hrefuses
        obtain ⟨other, hother, hrefused⟩ := refuses_iff.mp hrefuses
        rw [hroute] at hother
        cases hother
        rw [hreadOnly] at hrefused
        cases hrefused
  | error fault =>
    rw [if_neg, write_unrouted hroute, route_write_error hsize hroute]
    rw [accepts_write_iff hsize, hroute]
    rintro ⟨⟨_, ⟨⟩⟩, _⟩

end

/-! ### Rejected transfers -/

section

variable {bus bus' : Bus} {address value : Word} {width : Width} {purpose : Purpose}
  {fault : BusFault}

theorem checkRights_address (h : checkRights address purpose = .error fault) :
  fault.address = address
  := by
  rw [checkRights] at h
  repeat' split at h
  all_goals cases h
  all_goals rfl

theorem route_address (h : bus.route address width purpose = .error fault) :
  fault.address = address
  := by
  rcases route_error h with ⟨_, rfl⟩ | ⟨_, hrights | ⟨_, rfl⟩⟩
  · rfl
  · apply checkRights_address hrights
  · rfl

/-- A rejected read blames its address and has no effect. -/
theorem read_rejected (h : Bus.read address width bus = .error fault bus') :
  bus' = bus ∧ fault.address = address
  := by
  obtain ⟨hsame, hroute⟩ := read_error h
  use hsame
  apply route_address hroute

/-- A rejected write blames its address and has no effect. -/
theorem write_rejected (h : Bus.write address width value bus = .error fault bus') :
  bus' = bus ∧ fault.address = address
  := by
  obtain ⟨hsame, hunrouted | ⟨target, hroute, hreadOnly⟩⟩ := write_error h
  · use hsame
    apply route_address hunrouted
  · use hsame
    have hwrite := write_routed hroute value
    rw [hreadOnly, if_pos rfl, h] at hwrite
    cases hwrite
    rfl

end

end Bus

end ThumbSoc
