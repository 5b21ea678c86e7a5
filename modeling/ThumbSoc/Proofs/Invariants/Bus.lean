import ThumbSoc.Proofs.CoreStep
import ThumbSoc.Proofs.Loads

/-!
# A sound bus

The bus is sound if memory has its size, no queue of a serial port holds more bytes than it has
places, and the bits of the latches and inputs that stand for no pin are clear. Whatever is
done over the bus keeps it sound, whether it succeeds or is rejected. A step of a core is, as
far as the bus is concerned, some reads followed by some stores.
-/

namespace ThumbSoc

/-! ### Devices -/

/-- Bits 30 and 31 of the latches and of the inputs are clear. -/
structure Gpio.Sound (gpio : Gpio) : Prop where
  output : Word.Clear 0xC0000000 gpio.output
  enable : Word.Clear 0xC0000000 gpio.enable
  input : Word.Clear 0xC0000000 gpio.input

/-- Neither queue is overfull. -/
structure Serial.Sound (port : Serial) : Prop where
  received : port.received.length ≤ Serial.depth
  transmitted : port.transmitted.length ≤ Serial.depth

/-- The mask of a pin has the bit of that pin and no other. -/
theorem Gpio.bit_shifted {pin : Nat} (hpin : pin < pinCount) (i : Nat) :
  Word.bit (1 <<< UInt32.ofNat pin) i = decide (pin = i)
  := by
  have hpowers : ∀ pin < pinCount, (1 <<< UInt32.ofNat pin : Word).toNat = 2 ^ pin := by decide
  rw [Word.bit, hpowers pin hpin, Nat.testBit_two_pow]

namespace Gpio.Sound

variable {gpio : Gpio}

theorem initial :
  Gpio.initial.Sound
  where
  output := rfl
  enable := rfl
  input := rfl

/-- What the outside world drives stays, and the latches are cleared. -/
theorem reset (h : gpio.Sound) :
  gpio.reset.Sound
  where
  output := UInt32.zero_and
  enable := UInt32.zero_and
  input := h.input

theorem drive (h : gpio.Sound) (pin : Nat) (high : Bool) :
  (gpio.drive pin high).Sound
  := by
  rw [Gpio.drive]
  split
  · next hpin =>
    have hmask : Word.Clear 0xC0000000 (1 <<< UInt32.ofNat pin) := by
      have hpins : ∀ pin < pinCount, Word.Clear 0xC0000000 (1 <<< UInt32.ofNat pin) := by decide
      apply hpins pin hpin
    cases high with
    | true => exact { h with input := h.input.or hmask }
    | false => exact { h with input := h.input.and _ }
  · apply h

theorem change {latch : Word} (h : Word.Clear 0xC0000000 latch) (change : Change)
    (value : Word) :
  Word.Clear 0xC0000000 (change.apply latch (value &&& pinMask))
  := by
  have hpins : Word.Clear 0xC0000000 (value &&& pinMask) := Word.Clear.and_right _ (by decide)
  cases change with
  | assign => apply hpins
  | set => apply h.or hpins
  | clear => apply h.and
  | toggle => apply h.xor hpins

theorem write (h : gpio.Sound) {offset value : Word} {after : Gpio}
    (hwrite : gpio.write offset value = .ok after) :
  after.Sound
  := by
  unfold Gpio.write at hwrite
  simp only at hwrite
  split at hwrite
  case h_5 op _ =>
    cases hwrite
    exact { h with output := change h.output op value }
  case h_6 op _ =>
    cases hwrite
    exact { h with enable := change h.enable op value }
  all_goals cases hwrite

end Gpio.Sound

namespace Serial.Sound

variable {port : Serial}

theorem initial :
  Serial.initial.Sound
  where
  received := Nat.zero_le _
  transmitted := Nat.zero_le _

/-- Bytes taken out of the receive queue leave it within its capacity. -/
theorem taken (h : port.Sound) (count : Nat) :
  { port with received := port.received.drop count }.Sound
  := by
  have hdrop : (port.received.drop count).length ≤ port.received.length := by
    rw [List.length_drop]
    apply Nat.sub_le
  exact { h with received := Nat.le_trans hdrop h.received }

theorem hostRead (h : port.Sound) (count : Nat) :
  (port.hostRead count).2.Sound
  := by
  have hdrop : (port.transmitted.drop count).length ≤ port.transmitted.length := by
    rw [List.length_drop]
    apply Nat.sub_le
  exact { h with transmitted := Nat.le_trans hdrop h.transmitted }

theorem hostWrite (h : port.Sound) (data : List UInt8) :
  (port.hostWrite data).2.Sound
  := by
  have hroom : (port.received ++ data.take (depth - port.received.length)).length ≤ depth := by
    rw [List.length_append, List.length_take]
    have hreceived := h.received
    omega
  exact { h with received := hroom }

theorem transmit (h : port.Sound) (b : UInt8) :
  (port.transmit b).Sound
  := by
  rw [Serial.transmit]
  split
  · next hroom =>
    have hlength : (port.transmitted ++ [b]).length ≤ depth := by
      rw [List.length_append]
      apply hroom
    exact { h with transmitted := hlength }
  · apply h

theorem write (h : port.Sound) {offset value : Word} {after : Serial}
    (hwrite : port.write offset value = .ok after) :
  after.Sound
  := by
  rw [Serial.write] at hwrite
  split at hwrite
  · cases hwrite
  · cases hwrite
    apply h.transmit
  · cases hwrite
    apply h
  · cases hwrite
  all_goals
    cases hwrite
    exact { h with }

end Serial.Sound

/-! ### The bus -/

/-- Memory has `size` bytes, and all devices are sound. -/
structure Bus.Sound (size : Nat) (bus : Bus) : Prop where
  sram : bus.sram.size = size
  gpio : bus.gpio.Sound
  serial : ∀ port : Fin 2, (bus.serial.get port).Sound

namespace Bus.Sound

variable {size : Nat} {bus : Bus}

theorem powerOn (port : Fin 2) :
  ((Vector.replicate 2 Serial.initial).get port).Sound
  := by
  have hget : (Vector.replicate 2 Serial.initial).get port = Serial.initial :=
    Vector.getElem_replicate port.isLt
  rw [hget]
  apply Serial.Sound.initial

theorem initial (size : Nat) :
  (Bus.initial size).Sound size
  where
  sram := Sram.size_zeroed size
  gpio := Gpio.Sound.initial
  serial := powerOn

theorem reset (h : bus.Sound size) :
  bus.reset.Sound size
  where
  sram := (Sram.size_zeroed _).trans h.sram
  gpio := h.gpio.reset
  serial := powerOn

theorem select (h : bus.Sound size) (core : Nat) :
  (bus.select core).Sound size
  := { h with gpio := { h.gpio with } }

theorem drive (h : bus.Sound size) (pin : Nat) (high : Bool) :
  (bus.drive pin high).Sound size
  := { h with gpio := h.gpio.drive pin high }

theorem load? (h : bus.Sound size) {address : Word} {data : List UInt8} {after : Bus}
    (hload : bus.load? address data = some after) :
  after.Sound size
  := by
  rw [Bus.load?] at hload
  split at hload
  · cases hload
  · cases hload
    exact { h with sram := (Sram.size_setBytes _ _ _).trans h.sram }

/-- One of the ports is replaced. -/
theorem setSerial (h : bus.Sound size) {port : Nat} (hport : port < 2) {device : Serial}
    (hdevice : device.Sound) :
  { bus with serial := bus.serial.set port device }.Sound size
  where
  sram := h.sram
  gpio := h.gpio
  serial other := by
    have hset : bus.serial.set port device = bus.serial.setIfInBounds port device :=
      set_port ⟨port, hport⟩ hport
    rw [hset]
    by_cases hsame : ⟨port, hport⟩ = other
    · subst hsame
      rw [get_set_self ⟨port, hport⟩]
      apply hdevice
    · rw [get_set_ne hsame]
      apply h.serial other

theorem hostWrite? (h : bus.Sound size) {port accepted : Nat} {data : List UInt8} {after : Bus}
    (hwrite : bus.hostWrite? port data = some (accepted, after)) :
  after.Sound size
  := by
  rw [Bus.hostWrite?] at hwrite
  split at hwrite
  · next hport =>
    cases hwrite
    apply h.setSerial hport
    apply (h.serial ⟨port, hport⟩).hostWrite
  · cases hwrite

theorem hostRead? (h : bus.Sound size) {port count : Nat} {data : List UInt8} {after : Bus}
    (hread : bus.hostRead? port count = some (data, after)) :
  after.Sound size
  := by
  rw [Bus.hostRead?] at hread
  split at hread
  · next hport =>
    cases hread
    apply h.setSerial hport
    apply (h.serial ⟨port, hport⟩).hostRead
  · cases hread

theorem drained (h : bus.Sound size) {after : Bus} (hdrained : bus.Drained after) :
  after.Sound size
  where
  sram := (congrArg Sram.size hdrained.sram).trans h.sram
  gpio := hdrained.gpio ▸ h.gpio
  serial port := by
    obtain ⟨taken, hserial⟩ := hdrained.serial port
    rw [hserial]
    apply (h.serial port).taken

end Bus.Sound

/-! ### Transfers -/

namespace Bus

variable {size : Nat}

/-- If the first bus is sound, then so is the second. -/
def KeepsSound (size : Nat) (bus bus' : Bus) : Prop :=
  bus.Sound size → bus'.Sound size

theorem writeTarget_sound (address : Word) (width : Width) (value : Word) (target : Target) :
  Keeps (KeepsSound size) (writeTarget address width value target)
  := by
  intro bus h
  cases target with
  | sram offset => exact { h with sram := (Sram.size_setValue _ _ _ _).trans h.sram }
  | gpio offset =>
    unfold writeTarget
    simp only
    split
    · apply h
    · next hwrite => exact { h with gpio := h.gpio.write hwrite }
  | serial port offset =>
    unfold writeTarget
    simp only
    split
    · apply h
    · next hwrite =>
      apply h.setSerial port.isLt
      apply (h.serial port).write hwrite

theorem write_sound (address : Word) (width : Width) (value : Word) :
  Keeps (KeepsSound size) (write address width value)
  := by
  intro bus h
  rw [write]
  split
  · apply h
  · next target _ => apply writeTarget_sound address width value target bus h

theorem keepsSound_of_drained {ε α : Type} {x : EStateM ε Bus α} (h : Keeps Drained x) :
  Keeps (KeepsSound size) x
  := by
  intro bus hbus
  apply hbus.drained (h bus)

theorem readBytes_drained (start : Word) (collected : Array UInt8) (count : Nat) :
  Keeps Drained (readBytes start collected count)
  := by
  induction count generalizing start collected with
  | zero => apply Keeps.pure Drained.refl
  | succ count ih =>
    apply bind_drained (read_drained start .byte)
    intro value
    apply ih

end Bus

/-! ### Steps -/

/-- Executing an instruction keeps the bus sound. -/
theorem Instruction.execute_sound {size : Nat} (i : Instruction) (core : ThumbCore) (pc : Word) :
  Keeps (Bus.KeepsSound size) (i.execute core pc)
  := by
  apply execute_keeps
  · intro bus mid bus' hfirst hrest h
    exact hrest (hfirst h)
  · intro bus bus' hdrained h
    exact h.drained hdrained
  · exact Bus.write_sound

/-- A step of a core keeps the bus sound. -/
theorem ThumbCore.step_sound {size : Nat} (core : ThumbCore) (breakpoints : Breakpoints)
    (armed : Option Word) :
  Keeps (Bus.KeepsSound size) (core.step breakpoints armed)
  := core.step_keeps (fun _ => id) (fun i => i.execute_sound core core.pc) breakpoints armed

end ThumbSoc
