import ThumbSoc.Console
import ThumbSoc.Proofs.CoreStep
import ThumbSoc.Proofs.Machine.Turns
import ThumbSoc.Proofs.Transmission

/-!
# Serial output

The console writes out exactly what the program sends to the first serial port. A turn of the
machine sends at most one byte, and only if it takes a cycle; so within a slice of the run,
which has no more cycles than the transmit queue has places, every byte finds room, and the
drain behind the slice takes them all. The last slice is drained as well, however it ends.
-/

namespace ThumbSoc

/-! ### What a turn sends -/

/-- The bytes that a step of a core sends over a serial port: those of the instruction that it
executes, if it executes one. -/
def ThumbCore.sent (core : ThumbCore) (breakpoints : Breakpoints) (armed : Option Word) (bus : Bus)
    (port : Fin 2) : List UInt8 :=
  match core.step breakpoints armed bus with
  | .ok (.executed i _ _) _ => i.sent core core.pc bus port
  | _ => []

theorem ThumbCore.step_ok_transmitted {core : ThumbCore} {breakpoints : Breakpoints}
    {armed : Option Word} {bus bus' : Bus} {result : CoreStep} (port : Fin 2)
    (h : core.step breakpoints armed bus = .ok result bus') :
  (core.sent breakpoints armed bus port).length ≤ result.takesCycle.toNat
    ∧ ((bus.serial.get port).transmitted.length + result.takesCycle.toNat ≤ Serial.depth →
      (bus'.serial.get port).transmitted
        = (bus.serial.get port).transmitted ++ core.sent breakpoints armed bus port)
  := by
  rw [sent, h]
  rcases step_ok h with ⟨rfl, rfl⟩ | ⟨i, _, _, rfl, rfl⟩ | ⟨i, effects, _, hexecute, rfl⟩
  · simp
  · simp
  · obtain ⟨hone, hqueued⟩ := Instruction.execute_ok_transmitted port hexecute
    apply And.intro hone
    intro hroom
    apply hqueued
    apply Nat.le_trans _ hroom
    apply Nat.add_le_add_left hone

theorem ThumbCore.step_error_transmitted {core : ThumbCore} {breakpoints : Breakpoints}
    {armed : Option Word} {bus bus' : Bus} {fault : CoreFault} (port : Fin 2)
    (h : core.step breakpoints armed bus = .error fault bus') :
  core.sent breakpoints armed bus port = []
    ∧ (bus'.serial.get port).transmitted = (bus.serial.get port).transmitted
  := by
  rw [sent, h]
  apply And.intro rfl
  rcases step_error h with ⟨_, rfl⟩ | ⟨i, _, hexecute⟩
  · rfl
  · apply Instruction.execute_error_transmitted port hexecute

namespace Machine

/-- The bytes that the next turn of a machine sends over a serial port. -/
def sent (machine : Machine) (port : Fin 2) : List UInt8 :=
  match machine.slots[machine.cursor]? with
  | none => []
  | some slot =>
    match slot.state.isRunning, slot.core with
    | true, .thumb core =>
      core.sent machine.breakpoints slot.armed (machine.bus.select machine.cursor) port
    | _, _ => []

/-- The bytes that wait in the transmit queue of a serial port. -/
def queued (machine : Machine) (port : Fin 2) : List UInt8 :=
  (machine.bus.serial.get port).transmitted

variable {machine after : Machine}

theorem queued_haltIfIdle (machine : Machine) (port : Fin 2) :
  machine.haltIfIdle.queued port = machine.queued port
  := by rw [haltIfIdle_eq, queued, queued]

/-- A core that faults has sent nothing. -/
theorem faults_queued {slot : Slot} {fault : CoreFault} {bus : Bus} (port : Fin 2)
    (hslot : machine.slots[machine.cursor]? = some slot)
    (hruns : slot.state.isRunning = true)
    (hfaults : slot.Faults machine.cursor machine.breakpoints (machine.bus.select machine.cursor)
      fault bus) :
  machine.sent port = [] ∧ (bus.serial.get port).transmitted = machine.queued port
  := by
  cases hfaults with
  | noEngine hart =>
    simp only [sent, hslot, hruns, hart]
    apply And.intro trivial rfl
  | failed thumb failure =>
    simp only [sent, hslot, hruns, thumb]
    apply ThumbCore.step_error_transmitted port failure

/-- A turn that succeeds sends at most as many bytes as it takes cycles, and queues them if
there is room. -/
theorem step_ok_queued {outcome : StepOutcome} (port : Fin 2)
    (h : machine.step = .ok outcome after) :
  (machine.sent port).length ≤ outcome.takesCycle.toNat
    ∧ ((machine.queued port).length + outcome.takesCycle.toNat ≤ Serial.depth →
      after.queued port = machine.queued port ++ machine.sent port)
  := by
  have hstepped := machine.step_stepped
  rw [h] at hstepped
  cases hstepped with
  | @idle slot present waits =>
    have present : machine.slots[machine.cursor]? = some slot := present
    rw [queued_haltIfIdle]
    simp only [sent, present, waits]
    simp [queued, advance]
  | @settled slot core result bus recorder present runs thumb success =>
    have present : machine.slots[machine.cursor]? = some slot := present
    rw [queued_haltIfIdle, CoreStep.outcome_takesCycle]
    simp only [sent, present, runs, thumb]
    apply ThumbCore.step_ok_transmitted port success
  | @parked slot fault bus recorder present runs faults policy =>
    obtain ⟨hnothing, hsame⟩ := faults_queued port present runs faults
    rw [queued_haltIfIdle, hnothing, List.append_nil]
    apply And.intro (Nat.zero_le _)
    intro _
    apply hsame

/-- A turn that fails sends nothing. -/
theorem step_error_queued {e : MachineError} (port : Fin 2)
    (h : machine.step = .error e after) :
  machine.sent port = [] ∧ after.queued port = machine.queued port
  := by
  have hstepped := machine.step_stepped
  rw [h] at hstepped
  cases hstepped with
  | noCore absent =>
    have absent : machine.slots[machine.cursor]? = none := absent
    simp only [sent, absent]
    apply And.intro trivial rfl
  | @halted slot fault bus recorder present runs faults policy =>
    apply faults_queued port present runs faults

/-! ### What a run sends -/

/-- The machines that take the turns of a run towards `goal`, a failing turn included. -/
def turns (goal : Nat) (machine : Machine) : List Machine :=
  if _hstop : machine.stopped goal then []
  else
    match _hturn : machine.step with
    | .error _ _ => [machine]
    | .ok _ after => machine :: turns goal after
termination_by machine.progress goal
decreasing_by exact step_falls (by simpa using _hstop) _hturn

theorem turns_error {goal : Nat} {e : MachineError} (hgoes : ¬ machine.stopped goal = true)
    (h : machine.step = .error e after) :
  turns goal machine = [machine]
  := by
  rw [turns, dif_neg hgoes]
  split
  · rfl
  · next h' =>
    rw [h] at h'
    cases h'

theorem turns_ok {goal : Nat} {outcome : StepOutcome} (hgoes : ¬ machine.stopped goal = true)
    (h : machine.step = .ok outcome after) :
  turns goal machine = machine :: turns goal after
  := by
  rw [turns, dif_neg hgoes]
  split
  · next h' =>
    rw [h] at h'
    cases h'
  · next h' =>
    rw [h] at h'
    cases h'
    rfl

/-- A run that has no more cycles than there are places in the transmit queue queues all bytes
that its turns send. -/
theorem runTo_queued (port : Fin 2) (goal : Nat) (machine : Machine) (steps : Nat)
    (hroom : (machine.queued port).length + (goal - machine.cycles) ≤ Serial.depth) :
  (resultState (runTo goal machine steps)).queued port
      = machine.queued port ++ (turns goal machine).flatMap (·.sent port)
    ∧ ((resultState (runTo goal machine steps)).queued port).length ≤ Serial.depth
  := by
  induction machine, steps using runTo.induct goal with
  | case1 machine steps hstop =>
    rw [runTo_stopped steps hstop, turns, dif_pos hstop, List.flatMap_nil, List.append_nil]
    apply And.intro rfl
    apply Nat.le_trans (Nat.le_add_right _ _) hroom
  | case2 machine steps hgoes e after hfails =>
    obtain ⟨hnothing, hsame⟩ := step_error_queued port hfails
    rw [runTo_error steps (Bool.eq_false_iff.mpr hgoes) hfails, turns_error hgoes hfails,
      List.flatMap_singleton, hnothing, List.append_nil, resultState, hsame]
    apply And.intro rfl
    apply Nat.le_trans (Nat.le_add_right _ _) hroom
  | case3 machine steps hgoes outcome after hturn ih =>
    obtain ⟨hone, hqueued⟩ := step_ok_queued port hturn
    have hcycles := (step_keeps hturn).2
    have hlt := (missing_of_not_stopped (Bool.eq_false_iff.mpr hgoes)).2
    have hcycle := outcome.takesCycle.toNat_le
    -- A cycle of the slice pays for the place that the byte of the turn takes.
    have hfirst := hqueued (by omega)
    rw [runTo_ok steps (Bool.eq_false_iff.mpr hgoes) hturn, turns_ok hgoes hturn,
      List.flatMap_cons, ← List.append_assoc, ← hfirst]
    apply ih
    rw [hfirst, List.length_append, hcycles]
    omega

end Machine

namespace Console

open Machine

/-! ### What a slice sends -/

/-- Draining a queue that is not overfull takes all bytes out of it. -/
theorem drain_queued {machine : Machine} (hroom : (machine.queued 0).length ≤ Serial.depth) :
  (drain machine).1 = machine.queued 0 ∧ (drain machine).2.queued 0 = []
  := by
  have hdrain : drain machine = ((machine.queued 0).take Serial.depth,
      { machine with
        bus := { machine.bus with
          serial := machine.bus.serial.set 0
            { machine.bus.serial.get 0 with
              transmitted := (machine.queued 0).drop Serial.depth } } }) := rfl
  rw [hdrain]
  constructor
  · apply List.take_of_length_le hroom
  · have hset (device : Serial) (hzero : 0 < 2) :
        (machine.bus.serial.set 0 device hzero).get 0 = device := by
      apply Eq.trans (congrArg (·.get 0) (set_port 0 hzero)) (get_set_self 0)
    simp only [queued, hset]
    apply List.drop_of_length_le hroom

/-- A slice that starts with an empty queue hands out exactly what its turns send, and leaves
the queue empty, whether it fails or not. -/
theorem runSlice_queued {machine : Machine} {cycles : Nat} (hslice : cycles ≤ Serial.depth)
    (hempty : machine.queued 0 = []) :
  (runSlice machine cycles).2.1
      = (machine.turns (min (machine.cycles + cycles) cycleLimit)).flatMap (·.sent 0)
    ∧ (runSlice machine cycles).2.2.queued 0 = []
  := by
  have hroom : (machine.queued 0).length
      + (min (machine.cycles + cycles) cycleLimit - machine.cycles) ≤ Serial.depth := by
    rw [hempty, List.length_nil]
    omega
  obtain ⟨hsent, hlength⟩ := runTo_queued 0 _ machine 0 hroom
  rw [hempty, List.nil_append] at hsent
  cases hrun : runTo (min (machine.cycles + cycles) cycleLimit) machine 0 with
  | ok steps after =>
    rw [hrun] at hsent hlength
    obtain ⟨hdata, hleft⟩ := drain_queued hlength
    simp only [runSlice, runCycles, hrun]
    apply And.intro (hdata.trans hsent) hleft
  | error e after =>
    rw [hrun] at hsent hlength
    obtain ⟨hdata, hleft⟩ := drain_queued hlength
    simp only [runSlice, runCycles, hrun]
    apply And.intro (hdata.trans hsent) hleft

/-! ### What the console writes -/

/-- A world that records what is written to standard output. -/
def recording : World (StateM (List UInt8)) where
  contentOf _ := pure (.error "")
  output data := modify (· ++ data)
  diagnose _ := pure ()

theorem publish_recording (data : List UInt8) (machine : Machine) (written : List UInt8) :
  (publish recording data machine).run written = pure (machine.takeEvents.2, written ++ data)
  := by
  rw [publish]
  obtain ⟨events, after⟩ := machine.takeEvents
  cases data with
  | nil =>
    rw [List.append_nil]
    simp [recording]
  | cons b rest =>
    simp [recording]

theorem takeEvents_queued (machine : Machine) (port : Fin 2) :
  machine.takeEvents.2.queued port = machine.queued port
  := by
  rw [takeEvents]
  split <;> rfl

/-- The machines that take the turns of a sliced run. -/
def turns (machine : Machine) (budget : Nat) : List Machine :=
  let slice := runSlice machine (min budget sliceCycles)
  machine.turns (min (machine.cycles + min budget sliceCycles) cycleLimit) ++
    if _h : sliceCycles < budget then
      match slice.1 with
      | .ok .cycleBudget => turns slice.2.2.takeEvents.2 (budget - sliceCycles)
      | _ => []
    else []
termination_by budget
decreasing_by
  have : 0 < sliceCycles := by decide
  omega

/-- A sliced run that starts with an empty queue writes what its turns send, and leaves the
queue empty. -/
theorem runFor_written (machine : Machine) (budget : Nat) (hempty : machine.queued 0 = [])
    (written : List UInt8) :
  ∃ result after, (runFor recording machine budget).run written
      = pure ((result, after), written ++ (turns machine budget).flatMap (·.sent 0))
    ∧ after.queued 0 = []
  := by
  induction budget using Nat.strongRecOn generalizing machine written with
  | _ budget ih =>
    obtain ⟨hdata, hleft⟩ := runSlice_queued (Nat.min_le_right budget sliceCycles) hempty
    rw [turns, List.flatMap_append, ← hdata, ← List.append_assoc, runFor]
    clear hdata hempty
    cases hslice : runSlice machine (min budget sliceCycles) with
    | mk result rest =>
      obtain ⟨data, drained⟩ := rest
      rw [hslice] at hleft
      have hempty : drained.takeEvents.2.queued 0 = [] := (takeEvents_queued _ _).trans hleft
      -- Every way to end the run hands back the drained machine.
      have hends (result : Except MachineError StopReason) :
          ∃ result' after, (pure (result, drained.takeEvents.2) :
              StateM (List UInt8) _).run (written ++ data)
            = pure ((result', after), written ++ data ++ [])
          ∧ after.queued 0 = [] := by
        use result, drained.takeEvents.2
        rw [List.append_nil]
        apply And.intro rfl hempty
      simp only [StateT.run_bind, publish_recording, pure_bind]
      by_cases hmore : sliceCycles < budget
      · rw [dif_pos hmore, dif_pos hmore]
        have hless : budget - sliceCycles < budget := by
          have hpos : 0 < sliceCycles := by decide
          omega
        cases result with
        | error e => apply hends
        | ok reason =>
          cases reason with
          | cycleBudget => apply ih _ hless _ hempty
          | halted => apply hends
          | breakpoint => apply hends
      · rw [dif_neg hmore, dif_neg hmore]
        apply hends

/-- A run that starts with an empty queue writes exactly the low bytes of the values that the
executed instructions store to the data register of the first serial port, in order, and leaves
the queue empty, however it ends. The stores of an instruction are the ones that its execution
makes. -/
theorem runFor_output (machine : Machine) (budget : Nat) (hempty : machine.queued 0 = []) :
  (∃ result after, (runFor recording machine budget).run []
      = ((result, after), (turns machine budget).flatMap (·.sent 0))
    ∧ after.queued 0 = [])
  ∧ ∀ (i : Instruction) (core : ThumbCore) (bus bus' : Bus) (effects : Effects),
      i.execute core core.pc bus = .ok effects bus' →
      ∃ mid, bus.Drained mid ∧ Bus.performStores (i.stores core core.pc) mid = .ok () bus'
  := by
  constructor
  · apply runFor_written machine budget hempty []
  · intro i core bus bus' effects
    apply Instruction.execute_stores

/-- A machine with one core that sends the letter `A` over and over. -/
def talking : Machine where
  config := { coreCount := 1, sramSize := 4 }
  slots := #[⟨.thumb ((((ThumbCore.reset sramBase).setPc sramBase).write (.ofNumber 0)
    0x40034000).write (.ofNumber 1) 0x41), .running, none⟩]
  bus := { Bus.initial 4 with sram := ⟨#[0x01, 0x60, 0xFD, 0xE7]⟩ }
  breakpoints := .empty
  cycles := 0
  halted := false
  breakpointHit := false
  cursor := 0
  recorder := none

theorem talking_runFor_output :
  talking.queued 0 = [] ∧ talking.sent 0 = [0x41]
    ∧ ∃ result after, (runFor recording talking 1000).run []
        = ((result, after), (turns talking 1000).flatMap (·.sent 0))
      ∧ after.queued 0 = []
  := by
  have hempty : talking.queued 0 = [] := rfl
  constructor
  · apply hempty
  constructor
  · with_unfolding_all rfl
  · apply (runFor_output talking 1000 hempty).1

end Console

end ThumbSoc
