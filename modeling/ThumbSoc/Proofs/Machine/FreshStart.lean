import ThumbSoc.Proofs.Invariants.Machine
import ThumbSoc.Proofs.Machine.Reset
import ThumbSoc.Proofs.Machine.Session

/-!
# A reset is a fresh start

A machine that is reset is the new machine of its configuration again, but for what a reset keeps:
the cycle counter, the breakpoints, the recorder, the levels that the outside world drives onto the
pins, and the core that made the last transfer. In a session it cannot be told from a new machine
that was given the same breakpoints and the same levels.
-/

namespace ThumbSoc

/-- Whether an operation sets or removes breakpoints or drives a pin. -/
def Operation.prepares : Operation → Bool
  | .addBreakpoint _ | .removeBreakpoint _ | .clearBreakpoints | .setPin .. => true
  | _ => false

namespace Machine

variable {config : Config} {P : Core → Prop} {machine : Machine}

/-! ### The machine after a reset -/

/-- The new machine of the same configuration, with what a reset keeps. The recorder goes on. -/
def renewed (machine : Machine) : Machine :=
  { fresh machine.config with
    bus :=
      { Bus.initial machine.config.sramSize with
        gpio := { Gpio.initial with core := machine.bus.gpio.core, input := machine.bus.gpio.input } }
    breakpoints := machine.breakpoints
    cycles := machine.cycles
    recorder := machine.recorded (machine.changes (fresh machine.config)) }

namespace Sound

theorem coreCount (h : machine.Sound config P) :
  machine.config.coreCount = machine.slots.size
  := by rw [h.configured, h.slots]

theorem sramSize (h : machine.Sound config P) :
  machine.bus.sram.size = machine.config.sramSize
  := by rw [h.configured, h.bus.sram]

theorem reset_eq_renewed (h : machine.Sound config P) :
  machine.reset = machine.renewed
  := by
  have hslots : machine.reset.slots = (fresh machine.config).slots := by
    rw [reset_slots, fresh_slots, h.coreCount]
  have hchanges : machine.changes machine.reset = machine.changes (fresh machine.config) := by
    apply changes_congr rfl
    rw [states, states, hslots]
  rw [reset_eq, reset_recorder, hchanges, hslots, Bus.reset, h.sramSize]
  rfl

/-- The configuration of a machine still has no defect. -/
theorem create_config (h : machine.Sound config P) (hcheck : config.check = .ok ()) :
  Machine.create machine.config = .ok (fresh machine.config)
  := by
  have hsame : machine.config.check = .ok () := by
    rw [h.configured]
    exact hcheck
  rw [create_eq, hsame]
  rfl

end Sound

theorem check_of_create (h : create config = .ok machine) :
  config.check = .ok ()
  := by
  rw [create_eq] at h
  cases hcheck : config.check with
  | error e =>
    rw [hcheck] at h
    cases h
  | ok _ => rfl

/-! ### Preparing a machine -/

theorem perform_prepared (machine : Machine) {operation : Operation}
    (h : operation.prepares = true) :
  machine.perform operation
    = { machine with
        breakpoints := (machine.perform operation).breakpoints
        bus :=
          { machine.bus with
            gpio := { machine.bus.gpio with
              input := (machine.perform operation).bus.gpio.input } } }
  := by
  cases operation with
  | removeBreakpoint | clearBreakpoints => rfl
  | addBreakpoint address =>
    simp only [perform, addBreakpoint]
    cases machine.breakpoints.add address <;> rfl
  | setPin pin high =>
    simp only [perform, setPin]
    split
    · next hpin =>
      simp only [orElse, Bus.drive, Gpio.drive, hpin, if_true]
    · rfl
  | _ => cases h

/-- Setting and removing breakpoints and driving pins changes nothing else. -/
theorem performAll_prepared (machine : Machine) {setup : List Operation}
    (h : ∀ operation ∈ setup, operation.prepares = true) :
  machine.performAll setup
    = { machine with
        breakpoints := (machine.performAll setup).breakpoints
        bus :=
          { machine.bus with
            gpio := { machine.bus.gpio with
              input := (machine.performAll setup).bus.gpio.input } } }
  := by
  induction setup generalizing machine with
  | nil => rfl
  | cons operation rest ih =>
    have hrest := ih (machine.perform operation) fun operation hmem =>
      h operation (List.mem_cons_of_mem _ hmem)
    have hfirst := machine.perform_prepared (h operation List.mem_cons_self)
    have hcons : machine.performAll (operation :: rest)
        = (machine.perform operation).performAll rest := rfl
    rw [hcons, hrest, hfirst]

/-- A machine that is reset is like a new one that was prepared with the same breakpoints and
levels, but for the time that it has been running. -/
theorem renewed_alike {setup : List Operation}
    (hprepares : ∀ operation ∈ setup, operation.prepares = true)
    (hbreakpoints : ((fresh machine.config).performAll setup).breakpoints.contains
      = machine.breakpoints.contains)
    (hinput : ((fresh machine.config).performAll setup).bus.gpio.input
      = machine.bus.gpio.input) :
  machine.renewed.Alike Bus.Same machine.cycles ((fresh machine.config).performAll setup)
  := by
  have hprepared := (fresh machine.config).performAll_prepared hprepares
  rw [hinput] at hprepared
  constructor
  case breakpoints => exact hbreakpoints.symm
  case config => rw [hprepared]; rfl
  case slots => rw [hprepared]; rfl
  case bus => rw [hprepared]; rfl
  case cycles => rw [hprepared]; exact (Nat.zero_add _).symm
  case halted => rw [hprepared]; rfl
  case breakpointHit => rw [hprepared]; rfl
  case cursor => rw [hprepared]; rfl

/-! ### A preparation -/

/-- The word with the bits at the given places set as well. -/
def raise (levels : Word) (pins : List Nat) : Word :=
  pins.foldl (fun levels pin => levels ||| 1 <<< UInt32.ofNat pin) levels

theorem testBit_raise {levels : Word} {pins : List Nat} (hpins : ∀ pin ∈ pins, pin < Gpio.pinCount)
    (i : Nat) :
  (raise levels pins).toNat.testBit i = (levels.toNat.testBit i || decide (i ∈ pins))
  := by
  induction pins generalizing levels with
  | nil => simp [raise]
  | cons pin rest ih =>
    have hmask : (1 <<< UInt32.ofNat pin : Word).toNat.testBit i = decide (pin = i) :=
      Gpio.bit_shifted (hpins pin List.mem_cons_self) i
    have hrest : ∀ pin ∈ rest, pin < Gpio.pinCount := fun pin hmem =>
      hpins pin (List.mem_cons_of_mem _ hmem)
    have hraise : raise levels (pin :: rest) = raise (levels ||| 1 <<< UInt32.ofNat pin) rest := rfl
    rw [hraise, ih hrest, UInt32.toNat_or, Nat.testBit_or, hmask]
    simp only [List.mem_cons, Bool.decide_or, Bool.or_assoc, eq_comm]

/-- Driving pins high raises their levels. -/
theorem performAll_setPin (machine : Machine) {pins : List Nat}
    (hpins : ∀ pin ∈ pins, pin < Gpio.pinCount) :
  machine.performAll (pins.map (.setPin · true))
    = { machine with
        bus :=
          { machine.bus with
            gpio := { machine.bus.gpio with input := raise machine.bus.gpio.input pins } } }
  := by
  induction pins generalizing machine with
  | nil => rfl
  | cons pin rest ih =>
    have hpin := hpins pin List.mem_cons_self
    have hrest := ih (machine.perform (.setPin pin true)) fun pin hmem =>
      hpins pin (List.mem_cons_of_mem _ hmem)
    have hcons : machine.performAll ((pin :: rest).map (.setPin · true))
        = (machine.perform (.setPin pin true)).performAll (rest.map (.setPin · true)) := rfl
    rw [hcons, hrest]
    simp only [perform, setPin, hpin, if_true, orElse, Bus.drive, Gpio.drive]
    rfl

/-- Adding breakpoints that a set does not have, but has room for. -/
theorem performAll_addBreakpoint (machine : Machine) {addresses : List Word}
    (hdistinct : (machine.breakpoints.addresses.toList ++ addresses).Nodup)
    (hbounded : machine.breakpoints.size + addresses.length ≤ Breakpoints.capacity) :
  machine.performAll (addresses.map .addBreakpoint)
    = { machine with
        breakpoints := ⟨(machine.breakpoints.addresses.toList ++ addresses).toArray⟩ }
  := by
  induction addresses generalizing machine with
  | nil =>
    rw [List.append_nil]
    rfl
  | cons address rest ih =>
    have hnew : machine.breakpoints.contains address = false := by
      rw [Breakpoints.contains, ← Array.contains_toList, ← Bool.not_eq_true, List.contains_iff_mem]
      intro hmem
      apply (List.nodup_append.mp hdistinct).2.2 address hmem address List.mem_cons_self rfl
    have hroom : machine.breakpoints.isFull = false := by
      rw [List.length_cons] at hbounded
      rw [Breakpoints.isFull, decide_eq_false_iff_not]
      omega
    have hperform : machine.perform (.addBreakpoint address)
        = { machine with breakpoints := ⟨machine.breakpoints.addresses.push address⟩ } := by
      simp only [perform, addBreakpoint, Breakpoints.add, hnew, hroom]
      rfl
    have hcons : machine.performAll ((address :: rest).map .addBreakpoint)
        = (machine.perform (.addBreakpoint address)).performAll (rest.map .addBreakpoint) := rfl
    have hsplit : machine.breakpoints.addresses.toList ++ address :: rest
        = (machine.breakpoints.addresses.push address).toList ++ rest := by
      rw [Array.toList_push, List.append_assoc]
      rfl
    rw [hcons, hperform, ih, hsplit]
    · rw [hsplit] at hdistinct
      exact hdistinct
    · rw [List.length_cons] at hbounded
      simp only [Breakpoints.size, Array.size_push] at hbounded ⊢
      omega

/-- The operations that give a new machine the breakpoints and levels of another one. -/
def preparation (machine : Machine) : List Operation :=
  machine.breakpoints.addresses.toList.map .addBreakpoint
    ++ ((List.range Gpio.pinCount).filter (Word.bit machine.bus.gpio.input)).map (.setPin · true)

theorem preparation_prepares (machine : Machine) :
  ∀ operation ∈ machine.preparation, operation.prepares = true
  := by
  intro operation hmem
  rw [preparation, List.mem_append] at hmem
  rcases hmem with hmem | hmem
  · obtain ⟨address, _, rfl⟩ := List.mem_map.mp hmem
    rfl
  · obtain ⟨pin, _, rfl⟩ := List.mem_map.mp hmem
    rfl

/-- The levels of a word are those of its bits that stand for pins. -/
theorem raise_filter {levels : Word} (h : Word.Clear 0xC0000000 levels) :
  raise 0 ((List.range Gpio.pinCount).filter (Word.bit levels)) = levels
  := by
  rw [← UInt32.toNat_inj]
  apply Nat.eq_of_testBit_eq
  intro i
  have hbits : ∀ i, Gpio.pinCount ≤ i → levels.toNat.testBit i = false := by
    intro i hi
    by_cases hhigh : i < 32
    · apply Word.clear_iff.mp h i
      have hmask : ∀ i < 32, 30 ≤ i → (0xC0000000 : Word).toNat.testBit i = true := by decide
      exact hmask i hhigh hi
    · apply Nat.testBit_lt_two_pow
      apply Nat.lt_of_lt_of_le levels.toNat_lt
      exact Nat.pow_le_pow_right (by decide) (Nat.le_of_not_lt hhigh)
  rw [testBit_raise (by simp +contextual)]
  by_cases hi : i < Gpio.pinCount
  · simp [Word.bit, hi]
  · simp [hbits i (Nat.le_of_not_lt hi), hi]

/-- The preparation gives a new machine the breakpoints and the levels. -/
theorem Sound.performAll_preparation (h : machine.Sound config P) :
  ((fresh machine.config).performAll machine.preparation).breakpoints = machine.breakpoints
    ∧ ((fresh machine.config).performAll machine.preparation).bus.gpio.input
      = machine.bus.gpio.input
  := by
  have hsplit : (fresh machine.config).performAll machine.preparation
      = ((fresh machine.config).performAll
          (machine.breakpoints.addresses.toList.map .addBreakpoint)).performAll
        (((List.range Gpio.pinCount).filter (Word.bit machine.bus.gpio.input)).map
          (.setPin · true)) := by
    rw [Machine.performAll, preparation, List.foldl_append]
    rfl
  rw [hsplit, performAll_addBreakpoint, performAll_setPin]
  · use rfl
    exact raise_filter h.bus.gpio.input
  · simp +contextual
  · exact h.breakpoints.distinct
  · simp only [Array.length_toList]
    apply (Nat.zero_add _).trans_le h.breakpoints.bounded

/-! ### Fresh starts -/

/-- A reset makes a machine as good as new. -/
structure FreshStart (machine : Machine) : Prop where
  create : Machine.create machine.config = .ok (fresh machine.config)
  /-- The machine after the reset is the new one with what a reset keeps. -/
  reset : machine.reset = machine.renewed
  /-- A new machine can be given the same breakpoints and levels. -/
  prepared : ∃ setup, (∀ operation ∈ setup, operation.prepares = true)
    ∧ ((fresh machine.config).performAll setup).breakpoints = machine.breakpoints
    ∧ ((fresh machine.config).performAll setup).bus.gpio.input = machine.bus.gpio.input
  /-- However it was given the same ones, it gives the same replies in every session. -/
  replies : ∀ setup session,
    (∀ operation ∈ setup, operation.prepares = true) →
    ((fresh machine.config).performAll setup).breakpoints.contains
      = machine.breakpoints.contains →
    ((fresh machine.config).performAll setup).bus.gpio.input = machine.bus.gpio.input →
    (∀ operation ∈ session, operation.inSession = true) →
    machine.reset.HasRoom session →
    machine.reset.replies session = ((fresh machine.config).performAll setup).replies session

/-- Whatever was done to a machine, a reset is a fresh start. -/
theorem performAll_freshStart (hcreate : create config = .ok machine)
    (operations : List Operation) :
  (machine.performAll operations).FreshStart
  := by
  have hstable := Core.Sound.stable config
  have hsound := (Sound.create hstable hcreate).performAll hstable
    fun operation (_ : operation ∈ operations) => operation.respects_sound _
  constructor
  case create => exact hsound.create_config (check_of_create hcreate)
  case reset => exact hsound.reset_eq_renewed
  case prepared => exact ⟨_, preparation_prepares _, hsound.performAll_preparation⟩
  case replies =>
    intro setup session hprepares hbreakpoints hinput hsession hroom
    have halike := renewed_alike hprepares hbreakpoints hinput
    rw [← hsound.reset_eq_renewed] at halike
    exact halike.replies hsession hroom

/-- A core has taken a step, stands on a breakpoint, and sees a pin that is driven high. -/
def wornSession : List Operation :=
  [.writeMemory sramBase 0xE7FE, .launch 0 sramBase 0, .step, .setPin 3 true,
    .addBreakpoint sramBase, .setRegister 0 0 1]

/-- The core runs from the beginning of memory, stops at the breakpoint, and is let go. -/
def newSession : List Operation :=
  [.launch 0 sramBase 8, .runCycles 5, .resume, .stepCore 0, .getRegister 0 0]

theorem worn_freshStart :
  ∃ machine, create tiny = .ok machine ∧ (machine.performAll wornSession).FreshStart
    ∧ (machine.performAll wornSession).reset.replies newSession
      = (machine.performAll [.setPin 3 true, .addBreakpoint sramBase]).replies newSession
  := by
  obtain ⟨machine, hcreate⟩ : ∃ machine, create tiny = .ok machine := ⟨_, rfl⟩
  have hfresh := performAll_freshStart hcreate wornSession
  use machine, hcreate, hfresh
  cases eq_fresh hcreate
  have hconfig : ((fresh tiny).performAll wornSession).config = tiny := by with_unfolding_all rfl
  have hcycles : (((fresh tiny).performAll wornSession).reset.perform
      (.launch 0 sramBase 8)).cycles = 1 := by with_unfolding_all rfl
  have hreplies := hfresh.replies [.setPin 3 true, .addBreakpoint sramBase] newSession
  rw [hconfig] at hreplies
  apply hreplies
  · simp [Operation.prepares]
  · with_unfolding_all rfl
  · with_unfolding_all rfl
  · simp [newSession, Operation.inSession]
  · use nofun
    refine ⟨?_, nofun, nofun, nofun, trivial⟩
    intro budget hbudget
    cases hbudget
    left
    rw [hcycles]
    decide

end Machine

end ThumbSoc
