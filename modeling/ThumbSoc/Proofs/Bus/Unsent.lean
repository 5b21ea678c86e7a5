import ThumbSoc.Proofs.Agreement
import ThumbSoc.Proofs.Loads

/-!
# Buses up to unsent bytes

The bytes that wait in the transmit queue of a serial port are seen by a program in one place
only, the status register of the port. Transfers on two buses that differ in the transmit queue of
the first port agree: the same ones are rejected, the buses differ in nothing else afterwards, and
the same values are read, unless it is the status register of the first port that is read. That
one shows less than a byte.
-/

namespace ThumbSoc

/-! ### Serial ports -/

namespace Serial

/-- The port with an empty transmit queue. -/
def flushed (port : Serial) : Serial :=
  { port with transmitted := [] }

/-- The same port, where the first one may differ in its transmit queue. -/
def UpToUnsent (number : Fin 2) (port other : Serial) : Prop :=
  port.flushed = other.flushed ∧ (number ≠ 0 → port = other)

theorem status_lt (port : Serial) :
  port.status.toNat < 256
  := by
  rw [status]
  split <;> split <;> split <;> split <;> decide

theorem transmit_flushed (port : Serial) (b : UInt8) :
  (port.transmit b).flushed = port.flushed
  := by
  rw [transmit]
  split <;> rfl

theorem receive_unsent (port : Serial) (queue : List UInt8) :
  { port with transmitted := queue }.receive
    = (port.receive.1, { port.receive.2 with transmitted := queue })
  := by
  obtain ⟨received, _⟩ := port
  cases received <;> rfl

namespace UpToUnsent

variable {number : Fin 2} {port other : Serial} {offset : Word} {register : Serial.Register}

theorem refl (number : Fin 2) (port : Serial) :
  UpToUnsent number port port
  := ⟨rfl, fun _ => rfl⟩

/-- The other port has the transmit queue as its only own part. -/
theorem eq_of_flushed (h : port.flushed = other.flushed) :
  other = { port with transmitted := other.transmitted }
  := by
  cases port
  cases other
  simp only [flushed, Serial.mk.injEq] at h ⊢
  simp only [h, and_self]

theorem read (h : UpToUnsent number port other) (hregister : register? offset = some register) :
  ∃ value value' after after', port.read offset = .ok (value, after)
    ∧ other.read offset = .ok (value', after') ∧ UpToUnsent number after after'
    ∧ (value = value'
      ∨ (number = 0 ∧ register = .status) ∧ value.toNat < 256 ∧ value'.toNat < 256)
  := by
  by_cases hnumber : number = 0
  · obtain ⟨queue, rfl⟩ : ∃ queue, other = { port with transmitted := queue } :=
      ⟨_, eq_of_flushed h.1⟩
    have hfirst (after : Serial) : UpToUnsent number after { after with transmitted := queue } :=
      ⟨rfl, fun hne => absurd hnumber hne⟩
    cases register with
    | data =>
      simp only [Serial.read, hregister, receive_unsent]
      exact ⟨_, _, _, _, rfl, rfl, hfirst _, .inl rfl⟩
    | status =>
      simp only [Serial.read, hregister]
      exact ⟨_, _, _, _, rfl, rfl, hfirst _, .inr ⟨⟨hnumber, trivial⟩, status_lt _, status_lt _⟩⟩
    | errors | divisor | fraction | lineControl | control =>
      simp only [Serial.read, hregister]
      exact ⟨_, _, _, _, rfl, rfl, hfirst _, .inl rfl⟩
  · obtain rfl := h.2 hnumber
    obtain ⟨value, hvalue⟩ := port.read_register hregister
    exact ⟨value, value, _, _, hvalue, hvalue, refl _ _, .inl rfl⟩

theorem write (h : UpToUnsent number port other) (hregister : register? offset = some register)
    (value : Word) :
  (∃ e, port.write offset value = .error e ∧ other.write offset value = .error e)
    ∨ ∃ after after', port.write offset value = .ok after
      ∧ other.write offset value = .ok after' ∧ UpToUnsent number after after'
  := by
  by_cases hnumber : number = 0
  · obtain ⟨queue, rfl⟩ : ∃ queue, other = { port with transmitted := queue } :=
      ⟨_, eq_of_flushed h.1⟩
    have hfirst {after after' : Serial} (hflushed : after.flushed = after'.flushed) :
        UpToUnsent number after after' :=
      ⟨hflushed, fun hne => absurd hnumber hne⟩
    simp only [Serial.write, hregister]
    cases register with
    | data =>
      right
      refine ⟨_, _, rfl, rfl, hfirst ?_⟩
      rw [transmit_flushed, transmit_flushed]
      rfl
    | status =>
      left
      exact ⟨_, rfl, rfl⟩
    | errors | divisor | fraction | lineControl | control =>
      right
      exact ⟨_, _, rfl, rfl, hfirst rfl⟩
  · obtain rfl := h.2 hnumber
    cases hwrite : port.write offset value with
    | error e => exact .inl ⟨e, rfl, rfl⟩
    | ok after => exact .inr ⟨after, after, rfl, rfl, refl _ _⟩

end UpToUnsent

end Serial

/-! ### Buses -/

/-- The same bus up to the bytes that wait in the transmit queue of the first serial port. -/
structure Bus.UpToUnsent (bus other : Bus) : Prop where
  sram : bus.sram = other.sram
  gpio : bus.gpio = other.gpio
  first : (bus.serial.get 0).flushed = (other.serial.get 0).flushed
  second : bus.serial.get 1 = other.serial.get 1

namespace Bus

/-- Whether a load is answered by the status register of the first serial port. -/
def showsStatus (bus : Bus) (load : Load) : Bool :=
  match bus.route load.address load.width .read with
  | .ok (.serial port offset) =>
    port = 0 ∧ Serial.register? (registerOffset offset) = some .status
  | _ => false

theorem showsStatus_congr {bus bus' : Bus} (h : bus'.sram.size = bus.sram.size) :
  bus'.showsStatus = bus.showsStatus
  := by
  funext load
  rw [showsStatus, showsStatus, route_congr h]

theorem showsStatus_read {bus bus' : Bus} {address value : Word} {width : Width}
    (h : Bus.read address width bus = .ok value bus') :
  bus'.showsStatus = bus.showsStatus
  := by
  have hdrained := read_drained address width bus
  rw [h] at hdrained
  exact showsStatus_congr (congrArg Sram.size hdrained.sram)

theorem showsStatus_readWords {bus bus' : Bus} {start : Word} {count : Nat} {values : List Word}
    (h : Bus.readWords start count bus = .ok values bus') :
  bus'.showsStatus = bus.showsStatus
  := by
  have hdrained := readWords_drained start count bus
  rw [h] at hdrained
  exact showsStatus_congr (congrArg Sram.size hdrained.sram)

/-- The same value, or two values that are less than a byte. -/
def Close (value value' : Word) : Prop :=
  value = value' ∨ value.toNat < 256 ∧ value'.toNat < 256

/-- The same results, unless one of the loads shows the status register. -/
def SameUnlessShown {α : Type} (bus : Bus) (loads : List Load) (a a' : α) : Prop :=
  a = a' ∨ ∃ load ∈ loads, bus.showsStatus load = true

namespace SameUnlessShown

variable {α β : Type} {bus : Bus} {first second : List Load} {a a' : α}

theorem congr {b b' : β} (h : bus.SameUnlessShown first a a') (hsame : a = a' → b = b') :
  bus.SameUnlessShown first b b'
  := h.imp_left hsame

/-- What depends on results that are the same unless a load shows the status register. -/
theorem append {b b' : β} (h : bus.SameUnlessShown first a a')
    (hsame : a = a' → bus.SameUnlessShown second b b') :
  bus.SameUnlessShown (first ++ second) b b'
  := by
  rcases h with heq | ⟨load, hmem, hload⟩
  · rcases hsame heq with heq' | ⟨load, hmem, hload⟩
    · exact .inl heq'
    · exact .inr ⟨load, List.mem_append_right _ hmem, hload⟩
  · exact .inr ⟨load, List.mem_append_left _ hmem, hload⟩

end SameUnlessShown

namespace UpToUnsent

variable {bus other : Bus}

theorem refl (bus : Bus) :
  bus.UpToUnsent bus
  := ⟨rfl, rfl, rfl, rfl⟩

theorem trans {last : Bus} (h : bus.UpToUnsent other) (h' : other.UpToUnsent last) :
  bus.UpToUnsent last
  := ⟨h.sram.trans h'.sram, h.gpio.trans h'.gpio, h.first.trans h'.first,
    h.second.trans h'.second⟩

theorem select (h : bus.UpToUnsent other) (index : Nat) :
  (bus.select index).UpToUnsent (other.select index)
  where
  sram := h.sram
  gpio := by rw [Bus.select, Bus.select, h.gpio]
  first := h.first
  second := h.second

theorem serial (h : bus.UpToUnsent other) (port : Fin 2) :
  Serial.UpToUnsent port (bus.serial.get port) (other.serial.get port)
  := by
  match port with
  | 0 => exact ⟨h.first, fun hne => absurd rfl hne⟩
  | 1 => exact ⟨congrArg Serial.flushed h.second, fun _ => h.second⟩

theorem setSerial (h : bus.UpToUnsent other) {port : Fin 2} {device device' : Serial}
    (hdevice : Serial.UpToUnsent port device device') :
  UpToUnsent { bus with serial := bus.serial.setIfInBounds port device }
    { other with serial := other.serial.setIfInBounds port device' }
  where
  sram := h.sram
  gpio := h.gpio
  first := by
    match port with
    | 0 =>
      simp only [get_set_self]
      exact hdevice.1
    | 1 =>
      simp only [get_set_ne (show (1 : Fin 2) ≠ 0 by decide)]
      exact h.first
  second := by
    match port with
    | 0 =>
      simp only [get_set_ne (show (0 : Fin 2) ≠ 1 by decide)]
      exact h.second
    | 1 =>
      simp only [get_set_self]
      exact hdevice.2 (by decide)

/-- The transmit queue of the first port may be replaced. -/
theorem requeue (h : bus.UpToUnsent other) (queue : List UInt8) :
  UpToUnsent
    { bus with
      serial := bus.serial.setIfInBounds (0 : Fin 2).val
        { bus.serial.get 0 with transmitted := queue } }
    other
  where
  sram := h.sram
  gpio := h.gpio
  first := by
    simp only [get_set_self]
    exact h.first
  second := by
    simp only [get_set_ne (show (0 : Fin 2) ≠ 1 by decide)]
    exact h.second

theorem route (h : bus.UpToUnsent other) :
  other.route = bus.route
  := route_congr (congrArg Sram.size h.sram.symm)

/-! ### Single transfers -/

/-- Reads show values that are close, and the same one unless it is the status register that they
show. -/
theorem read (h : bus.UpToUnsent other) (address : Word) (width : Width) :
  Agree (fun value value' => Close value value'
      ∧ bus.SameUnlessShown [⟨address, width⟩] value value')
    UpToUnsent (Bus.read address width bus) (Bus.read address width other)
  := by
  simp only [Bus.read, SameUnlessShown, List.mem_singleton, exists_eq_left, showsStatus, h.route]
  cases hroute : bus.route address width .read with
  | error fault => exact .error fault h
  | ok target =>
    have hregister := route_register hroute
    cases target with
    | sram offset =>
      simp only [readTarget, h.sram]
      exact .ok ⟨.inl rfl, .inl rfl⟩ h
    | gpio offset =>
      obtain ⟨register, hregister⟩ := hregister
      obtain ⟨value, hvalue⟩ := other.gpio.read_register hregister
      simp only [readTarget, h.gpio, hvalue]
      exact .ok ⟨.inl rfl, .inl rfl⟩ h
    | serial port offset =>
      obtain ⟨register, hregister⟩ := hregister
      obtain ⟨value, value', after, after', hread, hread', hafter, hvalues⟩ :=
        (h.serial port).read hregister
      simp only [readTarget, Fin.getElem_fin, getElem_port, set_port, hread, hread']
      apply Agree.ok _ (h.setSerial hafter)
      rcases hvalues with rfl | ⟨⟨rfl, rfl⟩, hlt, hlt'⟩
      · exact ⟨.inl rfl, .inl rfl⟩
      · use .inr ⟨lane_lt hlt offset width, lane_lt hlt' offset width⟩
        right
        simp only [hregister, decide_true, and_self]

theorem write (h : bus.UpToUnsent other) (address : Word) (width : Width) (value : Word) :
  Agree Eq UpToUnsent (Bus.write address width value bus) (Bus.write address width value other)
  := by
  simp only [Bus.write, h.route]
  cases hroute : bus.route address width .write with
  | error fault => exact .error fault h
  | ok target =>
    have hregister := route_register hroute
    cases target with
    | sram offset =>
      simp only [writeTarget, h.sram]
      exact .ok rfl { h with sram := rfl }
    | gpio offset =>
      simp only [writeTarget, h.gpio]
      cases other.gpio.write (registerOffset offset) (replicate value width) with
      | error e => exact .error _ h
      | ok device => exact .ok rfl { h with gpio := rfl }
    | serial port offset =>
      obtain ⟨register, hregister⟩ := hregister
      simp only [writeTarget, Fin.getElem_fin, getElem_port, set_port]
      rcases (h.serial port).write hregister (replicate value width) with
        ⟨e, hwrite, hwrite'⟩ | ⟨after, after', hwrite, hwrite', hafter⟩
      · simp only [hwrite, hwrite']
        exact .error _ h
      · simp only [hwrite, hwrite']
        exact .ok rfl (h.setSerial hafter)

/-! ### Bursts -/

theorem probeWords (h : bus.UpToUnsent other) (start : Word) (count : Nat) :
  Agree Eq UpToUnsent (Bus.probeWords start count bus) (Bus.probeWords start count other)
  := by
  induction count generalizing start with
  | zero => exact .ok rfl h
  | succ count ih =>
    simp only [Bus.probeWords, probe, h.route]
    cases bus.route start .word .write with
    | error fault => exact .error fault h
    | ok target => exact ih (start + 4)

theorem writeWords (h : bus.UpToUnsent other) (start : Word) (values : List Word) :
  Agree Eq UpToUnsent (Bus.writeWords start values bus) (Bus.writeWords start values other)
  := by
  induction values generalizing bus other start with
  | nil => exact .ok rfl h
  | cons value rest ih =>
    apply (h.write start .word value).bind
    intro _ _ mid mid' _ _ hmid
    exact ih hmid (start + 4)

theorem storeWords (h : bus.UpToUnsent other) (start : Word) (values : List Word) :
  Agree Eq UpToUnsent (Bus.storeWords start values bus) (Bus.storeWords start values other)
  := by
  apply (h.probeWords start values.length).bind
  intro _ _ mid mid' _ _ hmid
  apply (hmid.writeWords start values).bind
  intro _ _ last last' _ _ hlast
  exact .ok rfl hlast

/-- Bursts of reads show words that are close, and the same ones unless one of the loads shows the
status register. -/
theorem readWords (h : bus.UpToUnsent other) (start : Word) (count : Nat) :
  Agree (fun values values' => List.Forall₂ Close values values'
      ∧ bus.SameUnlessShown (wordLoads start count) values values')
    UpToUnsent (Bus.readWords start count bus) (Bus.readWords start count other)
  := by
  induction count generalizing bus other start with
  | zero => exact .ok ⟨.nil, .inl rfl⟩ h
  | succ count ih =>
    apply (h.read start .word).bind
    intro value value' mid mid' hread ⟨hclose, hvalues⟩ hmid
    apply (ih hmid (start + 4)).bind
    intro rest rest' last last' _ ⟨hclose', hrest⟩ hlast
    apply Agree.ok _ hlast
    use .cons hclose hclose'
    rw [SameUnlessShown, showsStatus_read hread] at hrest
    apply hvalues.append
    rintro rfl
    exact hrest.imp_left (congrArg (value :: ·))

end UpToUnsent

end Bus

end ThumbSoc
