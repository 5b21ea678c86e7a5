import ThumbSoc.Proofs.Bus.Route

/-!
# Single transfers

What one transfer does. Once it is routed, a read succeeds, and a write is rejected only by a
register that takes no writes. A rejected transfer leaves the bus alone, and so does a read,
unless it takes a byte out of a receive queue.
-/

namespace ThumbSoc

/-! ### Answers of the devices -/

/-- Whether a register of the pin block takes no writes. -/
def Gpio.Register.readOnly : Gpio.Register → Bool
  | .coreNumber | .input | .inputHigh => true
  | _ => false

/-- Whether a register of a serial port takes no writes. -/
def Serial.Register.readOnly : Serial.Register → Bool
  | .status => true
  | _ => false

theorem Gpio.read_register (gpio : Gpio) {offset : Word} {register : Gpio.Register}
    (h : Gpio.register? offset = some register) :
  ∃ value, gpio.read offset = .ok value
  := by
  rw [Gpio.read, h]
  cases register
  all_goals apply Exists.intro; rfl

/-- A write to the pin block is rejected by the registers that take none. -/
theorem Gpio.write_register (gpio : Gpio) {offset : Word} (value : Word)
    {register : Gpio.Register} (h : Gpio.register? offset = some register) :
  if register.readOnly then gpio.write offset value = .error .readOnly
  else ∃ after, gpio.write offset value = .ok after
  := by
  rw [Gpio.write, h]
  cases register
  case output | enable => apply Exists.intro; rfl
  all_goals rfl

theorem Serial.receive_eq (port : Serial) :
  ∃ value, port.receive = (value, { port with received := port.received.tail })
  := by
  rw [Serial.receive]
  split
  · next hreceived =>
    use 0
    rw [hreceived, List.tail_nil, ← hreceived]
  · next b rest hreceived =>
    use b.toUInt32
    rw [hreceived, List.tail_cons]

/-- A read of a serial port changes it only at the data register, which gives up the oldest
received byte. -/
theorem Serial.read_register (port : Serial) {offset : Word} {register : Serial.Register}
    (h : Serial.register? offset = some register) :
  ∃ value, port.read offset = .ok (value,
    if register = .data then { port with received := port.received.tail } else port)
  := by
  rw [Serial.read, h]
  cases register with
  | data =>
    obtain ⟨value, hvalue⟩ := port.receive_eq
    use value
    apply congrArg Except.ok hvalue
  | _ => apply Exists.intro; rfl

/-- A write to a serial port is rejected by the registers that take none. It never changes the
receive queue, and the transmit queue only at the data register. -/
theorem Serial.write_register (port : Serial) {offset : Word} (value : Word)
    {register : Serial.Register} (h : Serial.register? offset = some register) :
  if register.readOnly then port.write offset value = .error .readOnly
  else ∃ after, port.write offset value = .ok after ∧ after.received = port.received
    ∧ after.transmitted
      = (if register = .data then port.transmit value.toUInt8 else port).transmitted
  := by
  rw [Serial.write, h]
  cases register with
  | data =>
    use port.transmit value.toUInt8, rfl
    rw [Serial.transmit]
    split
    · apply And.intro rfl rfl
    · apply And.intro rfl rfl
  | status => rfl
  | _ =>
    apply Exists.intro
    apply And.intro rfl
    apply And.intro rfl rfl

namespace Bus

/-! ### Targets -/

/-- Whether the register of a target takes no writes. -/
def Target.readOnly : Target → Bool
  | .sram _ => false
  | .gpio offset => (Gpio.register? (registerOffset offset)).any Gpio.Register.readOnly
  | .serial _ offset => (Serial.register? (registerOffset offset)).any Serial.Register.readOnly

/-- The port of whose data register a target is part. -/
def Target.data? : Target → Option (Fin 2)
  | .serial port offset =>
    if Serial.register? (registerOffset offset) = some .data then some port else none
  | _ => none

/-- The register of a device that a transfer is routed to exists. -/
theorem route_register {bus : Bus} {address : Word} {width : Width} {purpose : Purpose}
    {target : Target} (h : bus.route address width purpose = .ok target) :
  match target with
  | .sram _ => True
  | .gpio offset => ∃ register, Gpio.register? (registerOffset offset) = some register
  | .serial _ offset => ∃ register, Serial.register? (registerOffset offset) = some register
  := by
  obtain ⟨_, ⟨offset, rfl, _⟩ | ⟨_, hdevice⟩⟩ := route_ok h
  · trivial
  · rcases deviceAt?_some hdevice with ⟨_, rfl, _, hregister⟩ | ⟨_, _, rfl, _, hregister⟩
    · apply Option.isSome_iff_exists.mp hregister
    · apply Option.isSome_iff_exists.mp hregister

/-- The bus after the oldest byte was taken out of a receive queue. -/
def discard (bus : Bus) (port : Fin 2) : Bus :=
  { bus with
    serial := bus.serial.setIfInBounds port
      { bus.serial.get port with received := (bus.serial.get port).received.tail } }

/-- The bus after a read of a target. -/
def afterRead (bus : Bus) (target : Target) : Bus :=
  match target.data? with
  | some port => bus.discard port
  | none => bus

theorem afterRead_sram (bus : Bus) (target : Target) :
  (bus.afterRead target).sram = bus.sram
  := by
  rw [afterRead]
  split <;> rfl

/-- Discarding a byte is visible if there is one. -/
theorem discard_ne {bus : Bus} {port : Fin 2} (h : (bus.serial.get port).received ≠ []) :
  bus.discard port ≠ bus
  := by
  intro hsame
  have hlength := congrArg (fun b : Bus => (b.serial.get port).received.length) hsame
  have hpos := List.length_pos_iff.mpr h
  simp only [discard, get_set_self, List.length_tail] at hlength
  omega

theorem discard_of_empty {bus : Bus} {port : Fin 2} (h : (bus.serial.get port).received = []) :
  bus.discard port = bus
  := by
  have hsame : { bus.serial.get port with received := (bus.serial.get port).received.tail }
      = bus.serial.get port := by
    rw [h, List.tail_nil, ← h]
  rw [discard, hsame, setIfInBounds_get]

/-! ### Reads -/

/-- A routed read succeeds. -/
theorem read_routed {bus : Bus} {address : Word} {width : Width} {target : Target}
    (h : bus.route address width .read = .ok target) :
  ∃ value, Bus.read address width bus = .ok value (bus.afterRead target)
  := by
  have hregister := route_register h
  simp only [Bus.read, h]
  cases target with
  | sram offset =>
    apply Exists.intro
    rfl
  | gpio offset =>
    obtain ⟨register, hregister⟩ := hregister
    obtain ⟨value, hvalue⟩ := bus.gpio.read_register hregister
    apply Exists.intro
    simp only [readTarget, hvalue]
    rfl
  | serial port offset =>
    obtain ⟨register, hregister⟩ := hregister
    obtain ⟨value, hvalue⟩ := (bus.serial.get port).read_register hregister
    apply Exists.intro
    simp only [readTarget, Fin.getElem_fin, getElem_port, set_port, hvalue, afterRead,
      Target.data?, hregister, Option.some.injEq]
    by_cases hdata : register = .data
    · rw [if_pos hdata, if_pos hdata]
      rfl
    · rw [if_neg hdata, if_neg hdata, setIfInBounds_get]

/-- A read that is not routed is rejected and has no effect. -/
theorem read_unrouted {bus : Bus} {address : Word} {width : Width} {fault : BusFault}
    (h : bus.route address width .read = .error fault) :
  Bus.read address width bus = .error fault bus
  := by simp only [Bus.read, h]

/-- What a successful read says. -/
theorem read_ok {bus bus' : Bus} {address value : Word} {width : Width}
    (h : Bus.read address width bus = .ok value bus') :
  ∃ target, bus.route address width .read = .ok target ∧ bus' = bus.afterRead target
  := by
  cases hroute : bus.route address width .read with
  | error fault =>
    rw [read_unrouted hroute] at h
    cases h
  | ok target =>
    obtain ⟨value', hvalue⟩ := read_routed hroute
    rw [hvalue] at h
    cases h
    use target

/-- A rejected read has no effect. -/
theorem read_error {bus bus' : Bus} {address : Word} {width : Width} {fault : BusFault}
    (h : Bus.read address width bus = .error fault bus') :
  bus' = bus ∧ bus.route address width .read = .error fault
  := by
  cases hroute : bus.route address width .read with
  | error fault' =>
    rw [read_unrouted hroute] at h
    cases h
    apply And.intro rfl rfl
  | ok target =>
    obtain ⟨value, hvalue⟩ := read_routed hroute
    rw [hvalue] at h
    cases h

/-! ### Writes -/

/-- A routed write succeeds unless the register takes none. -/
theorem write_routed {bus : Bus} {address : Word} {width : Width} {target : Target}
    (h : bus.route address width .write = .ok target) (value : Word) :
  if target.readOnly then
    Bus.write address width value bus = .error (.readOnly address) bus
  else ∃ bus', Bus.write address width value bus = .ok () bus'
  := by
  have hregister := route_register h
  simp only [Bus.write, h]
  cases target with
  | sram offset => apply Exists.intro; rfl
  | gpio offset =>
    obtain ⟨register, hregister⟩ := hregister
    have hwrite := bus.gpio.write_register (replicate value width) hregister
    simp only [Target.readOnly, hregister, Option.any_some, writeTarget]
    cases hreadOnly : register.readOnly with
    | true =>
      rw [hreadOnly, if_pos rfl] at hwrite
      rw [if_pos rfl, hwrite]
      rfl
    | false =>
      rw [hreadOnly] at hwrite
      obtain ⟨after, hafter⟩ := hwrite
      apply Exists.intro
      rw [hafter]
  | serial port offset =>
    obtain ⟨register, hregister⟩ := hregister
    have hwrite := (bus.serial.get port).write_register (replicate value width) hregister
    simp only [Target.readOnly, hregister, Option.any_some, writeTarget, Fin.getElem_fin,
      getElem_port, set_port]
    cases hreadOnly : register.readOnly with
    | true =>
      rw [hreadOnly, if_pos rfl] at hwrite
      rw [if_pos rfl, hwrite]
      rfl
    | false =>
      rw [hreadOnly] at hwrite
      obtain ⟨after, hafter, _⟩ := hwrite
      apply Exists.intro
      rw [hafter]

/-- A write that is not routed is rejected and has no effect. -/
theorem write_unrouted {bus : Bus} {address value : Word} {width : Width} {fault : BusFault}
    (h : bus.route address width .write = .error fault) :
  Bus.write address width value bus = .error fault bus
  := by simp only [Bus.write, h]

/-- A rejected write has no effect. It was not routed, or its register takes no writes. -/
theorem write_error {bus bus' : Bus} {address value : Word} {width : Width} {fault : BusFault}
    (h : Bus.write address width value bus = .error fault bus') :
  bus' = bus ∧ (bus.route address width .write = .error fault
    ∨ ∃ target, bus.route address width .write = .ok target ∧ target.readOnly = true)
  := by
  cases hroute : bus.route address width .write with
  | error fault' =>
    rw [write_unrouted hroute] at h
    cases h
    apply And.intro rfl (Or.inl rfl)
  | ok target =>
    have hwrite := write_routed hroute value
    cases hreadOnly : target.readOnly with
    | true =>
      rw [hreadOnly, if_pos rfl, h] at hwrite
      cases hwrite
      constructor
      · rfl
      · right
        use target
    | false =>
      rw [hreadOnly] at hwrite
      obtain ⟨_, hok⟩ := hwrite
      rw [h] at hok
      cases hok

/-- The low byte of what a device is shown is the low byte of the value, whatever the width. -/
theorem replicate_toUInt8 (value : Word) (width : Width) :
  (replicate value width).toUInt8 = value.toUInt8
  := by
  have hpow : (256 : Nat) ∣ UInt32.size := by decide
  apply UInt8.toNat_inj.mp
  cases width with
  | word => rfl
  | byte =>
    have hmask : (value &&& 0xFF).toNat = value.toNat % 256 :=
      (UInt32.toNat_and _ _).trans (Nat.and_two_pow_sub_one_eq_mod value.toNat 8)
    have hmul : ((value &&& 0xFF) * 0x01010101).toNat
        = (value &&& 0xFF).toNat * 0x01010101 % UInt32.size :=
      UInt32.toNat_mul _ _
    rw [replicate, UInt32.toNat_toUInt8, UInt32.toNat_toUInt8, hmul, hmask]
    change _ % 256 = value.toNat % 256
    rw [Nat.mod_mod_of_dvd _ hpow]
    omega
  | halfword =>
    have hmask : (value &&& 0xFFFF).toNat = value.toNat % 65536 :=
      (UInt32.toNat_and _ _).trans (Nat.and_two_pow_sub_one_eq_mod value.toNat 16)
    have hmul : ((value &&& 0xFFFF) * 0x00010001).toNat
        = (value &&& 0xFFFF).toNat * 0x00010001 % UInt32.size :=
      UInt32.toNat_mul _ _
    rw [replicate, UInt32.toNat_toUInt8, UInt32.toNat_toUInt8, hmul, hmask]
    change _ % 256 = value.toNat % 256
    rw [Nat.mod_mod_of_dvd _ hpow]
    omega

/-- What a successful write says. Of the queues it changes only the transmit queue of a port
whose data register it reaches, and that gets the low byte of the value. -/
theorem write_ok {bus bus' : Bus} {address value : Word} {width : Width} {u : Unit}
    (h : Bus.write address width value bus = .ok u bus') :
  ∃ target, bus.route address width .write = .ok target ∧ target.readOnly = false
    ∧ bus'.sram.size = bus.sram.size
    ∧ ∀ port : Fin 2, (bus'.serial.get port).received = (bus.serial.get port).received
      ∧ (bus'.serial.get port).transmitted
        = (if target.data? = some port then (bus.serial.get port).transmit value.toUInt8
            else bus.serial.get port).transmitted
  := by
  cases hroute : bus.route address width .write with
  | error fault =>
    rw [write_unrouted hroute] at h
    cases h
  | ok target =>
    use target, rfl
    have hreadOnly : target.readOnly = false := by
      have hwrite := write_routed hroute value
      cases hreadOnly : target.readOnly with
      | false => rfl
      | true =>
        rw [hreadOnly, if_pos rfl, h] at hwrite
        cases hwrite
    use hreadOnly
    have hregister := route_register hroute
    simp only [Bus.write, hroute] at h
    cases target with
    | sram offset =>
      cases h
      constructor
      · apply Sram.size_setValue
      · intro port
        apply And.intro rfl rfl
    | gpio offset =>
      simp only [writeTarget] at h
      split at h
      · cases h
      · cases h
        apply And.intro rfl
        intro port
        apply And.intro rfl rfl
    | serial port offset =>
      obtain ⟨register, hregister⟩ := hregister
      have hwrite := (bus.serial.get port).write_register (replicate value width) hregister
      simp only [Target.readOnly, hregister, Option.any_some] at hreadOnly
      rw [hreadOnly] at hwrite
      obtain ⟨after, hafter, hreceived, htransmitted⟩ := hwrite
      rw [replicate_toUInt8] at htransmitted
      simp only [writeTarget, Fin.getElem_fin, getElem_port, set_port, hafter] at h
      cases h
      apply And.intro rfl
      intro other
      simp only [Target.data?, hregister, Option.some.injEq]
      by_cases hport : port = other
      · subst hport
        simp only [get_set_self]
        use hreceived
        rw [htransmitted]
        by_cases hdata : register = .data
        · simp [hdata]
        · simp [hdata]
      · have hdata : (if register = .data then some port else none) ≠ some other := by
          split
          · simpa using hport
          · simp
        rw [if_neg hdata]
        simp only [get_set_ne hport, true_and]

end Bus

end ThumbSoc
