import ThumbSoc.Proofs.Machine.Alone

/-!
# Dormant cores

Dormant secondary cores do not show. A machine whose secondary cores are dormant behaves as the
machine with its first core alone: every operation that is about the first core or about none
has the same reply and leads to machines that are again equal up to the dormant cores. Runs
take more turns with dormant cores, and this is the only difference.
-/

namespace ThumbSoc

/-! ### Replies -/

/-- What a host gets back from an operation. The number of steps of a run is left out. -/
inductive Reply where
  | done
  | stepped (outcome : StepOutcome)
  | ran (cycles : Nat) (reason : StopReason)
  | word (value : Word)
  | bytes (data : List UInt8)
  | rows (rows : Array Row)
  | flag (value : Bool)
  | count (number : Nat)
  | events (events : Array Event)
  | failed (error : MachineError)
  | unloaded (error : LoadError)
  | unset (error : BreakpointError)

/-- The reply to an operation on the state of the machine. -/
def Reply.ofResult {α : Type} (value : α → Reply) : EStateM.Result MachineError Machine α → Reply
  | .ok a _ => value a
  | .error e _ => .failed e

/-- The reply to a run. -/
def Reply.ofRun : EStateM.Result MachineError Machine RunOutcome → Reply :=
  ofResult fun outcome => .ran outcome.cycles outcome.reason

/-- The reply to an operation that has no effect when it fails. -/
def Reply.ofExcept {ε α : Type} (error : ε → Reply) (value : α → Reply) : Except ε α → Reply
  | .ok a => value a
  | .error e => error e

/-- An operation that is about the first core or about no core in particular. -/
def Operation.forFirst : Operation → Bool
  | .step => false
  | operation => operation.target == 0

namespace Machine

/-- The reply to an operation. -/
def reply (machine : Machine) : Operation → Reply
  | .step => .ofResult .stepped machine.step
  | .stepCore index => .ofResult .stepped (machine.stepCore index)
  | .runCycles budget => .ofRun (machine.runCycles budget)
  | .runUntilHalt => .ofRun machine.runUntilHalt
  | .loadBytes address data => .ofExcept .unloaded (fun _ => .done) (machine.loadBytes address data)
  | .loadImage image => .ofExcept .unloaded (fun _ => .done) (machine.loadImage image)
  | .loadFile path content base =>
    .ofExcept .unloaded (fun _ => .done) (machine.loadFile path content base)
  | .launch index pc sp => .ofExcept .failed (fun _ => .done) (machine.launch index pc sp)
  | .wake index => .ofExcept .failed (fun _ => .done) (machine.wake index)
  | .addBreakpoint address => .ofExcept .unset (fun _ => .done) (machine.addBreakpoint address)
  | .removeBreakpoint address => .flag (machine.removeBreakpoint address).1
  | .getRegister index register => .ofExcept .failed .word (machine.getRegister index register)
  | .setRegister index register value =>
    .ofExcept .failed (fun _ => .done) (machine.setRegister index register value)
  | .readMemory address => .ofResult .word (machine.readMemory address)
  | .writeMemory address value => .ofResult (fun _ => .done) (machine.writeMemory address value)
  | .readBytes address count => .ofResult (.bytes ·.toList) (machine.readBytes address count)
  | .listing address count => .rows (machine.listing address count)
  | .setPin pin high => .ofExcept .failed (fun _ => .done) (machine.setPin pin high)
  | .getPin pin => .ofExcept .failed .flag (machine.getPin pin)
  | .serialWrite port data => .ofExcept .failed (.count ·.1) (machine.serialWrite port data)
  | .serialRead port count => .ofExcept .failed (.bytes ·.1) (machine.serialRead port count)
  | .takeEvents => .events machine.takeEvents.1
  | .halt | .resume | .reset | .clearBreakpoints | .setTracing _ | .record => .done

/-! ### Runs -/

variable {machine : Machine}

/-- Ends of runs that differ in the number of steps and in the dormant cores only. -/
inductive SameEnd :
    EStateM.Result MachineError Machine Nat → EStateM.Result MachineError Machine Nat → Prop where
  | ok {after : Machine} (steps steps' : Nat) (secluded : after.Secluded) :
      SameEnd (.ok steps after) (.ok steps' after.alone)
  | error {after : Machine} (e : MachineError) (secluded : after.Secluded) :
      SameEnd (.error e after) (.error e after.alone)

/-- A run is the same, alone, up to the number of steps: the turns of dormant cores are left
out. -/
theorem runTo_sameEnd (goal : Nat) (h : machine.Secluded) (steps steps' : Nat) :
  SameEnd (runTo goal machine steps) (runTo goal machine.alone steps')
  := by
  induction machine, steps using runTo.induct goal generalizing steps' with
  | case1 machine steps hstop =>
    have halone : machine.alone.stopped goal = true := hstop
    rw [runTo_stopped steps hstop, runTo_stopped steps' halone]
    exact .ok steps steps' h
  | case2 machine steps hgoes e after hfails =>
    have hgoes : machine.stopped goal = false := Bool.eq_false_iff.mpr hgoes
    have halone : machine.alone.stopped goal = false := hgoes
    cases hcursor : machine.cursor with
    | zero =>
      have hstepped := machine.step_stepped
      have hstep := alone_step h hcursor
      rw [hcursor, hfails] at hstepped
      rw [hfails] at hstep
      rw [runTo_error steps hgoes hfails, runTo_error steps' halone hstep]
      exact .error e (h.advance.stepped hstepped)
    | succ i =>
      rw [step_other h hcursor] at hfails
      cases hfails
  | case3 machine steps hgoes outcome after hturn ih =>
    have hgoes : machine.stopped goal = false := Bool.eq_false_iff.mpr hgoes
    have halone : machine.alone.stopped goal = false := hgoes
    rw [runTo_ok steps hgoes hturn]
    cases hcursor : machine.cursor with
    | zero =>
      have hstepped := machine.step_stepped
      have hstep := alone_step h hcursor
      rw [hcursor, hturn] at hstepped
      rw [hturn] at hstep
      rw [runTo_ok steps' halone hstep]
      apply ih (h.advance.stepped hstepped)
    | succ i =>
      rw [step_other h hcursor] at hturn
      cases hturn
      cases hruns : machine.anyRunning with
      | true =>
        -- The machine alone does not take the turn.
        have hsame : machine.advance.haltIfIdle = machine.advance := if_pos hruns
        rw [hsame] at ih ⊢
        apply ih h.advance steps'
      | false =>
        -- Both halt, the machine alone at the turn of its core.
        obtain ⟨_, hstep⟩ := alone_step_idle h hruns
        have hhalted : machine.advance.haltIfIdle.halted = true := by
          have hnone : machine.advance.anyRunning = false := hruns
          rw [haltIfIdle, hnone]
          rfl
        have hhalted : machine.advance.haltIfIdle.stopped goal = true := by
          rw [stopped, hhalted, Bool.or_true, Bool.true_or]
        have hlone : machine.advance.haltIfIdle.alone.stopped goal = true := hhalted
        rw [runTo_stopped _ hhalted, runTo_ok steps' halone hstep, runTo_stopped _ hlone]
        exact .ok _ _ h.advance.haltIfIdle

theorem runCycles_alone (h : machine.Secluded) (budget : Nat) :
  resultState (machine.alone.runCycles budget) = (resultState (machine.runCycles budget)).alone
    ∧ Reply.ofRun (machine.alone.runCycles budget) = Reply.ofRun (machine.runCycles budget)
    ∧ (resultState (machine.runCycles budget)).Secluded
  := by
  have hsame := runTo_sameEnd (min (machine.cycles + budget) cycleLimit) h 0 0
  have hcycles : machine.alone.cycles = machine.cycles := rfl
  rw [runCycles, runCycles]
  simp only [hcycles]
  generalize runTo _ machine 0 = wide at hsame ⊢
  generalize runTo _ machine.alone 0 = solo at hsame ⊢
  cases hsame with
  | ok steps steps' secluded => exact ⟨rfl, rfl, secluded⟩
  | error e secluded => exact ⟨rfl, rfl, secluded⟩

theorem runUntilHalt_alone (h : machine.Secluded) :
  resultState machine.alone.runUntilHalt = (resultState machine.runUntilHalt).alone
    ∧ Reply.ofRun machine.alone.runUntilHalt = Reply.ofRun machine.runUntilHalt
    ∧ (resultState machine.runUntilHalt).Secluded
  := by
  have hsame := runTo_sameEnd cycleLimit h 0 0
  rw [runUntilHalt, runUntilHalt]
  generalize runTo _ machine 0 = wide at hsame ⊢
  generalize runTo _ machine.alone 0 = solo at hsame ⊢
  cases hsame with
  | ok steps steps' secluded => exact ⟨rfl, rfl, secluded⟩
  | error e secluded => exact ⟨rfl, rfl, secluded⟩

/-! ### Operations -/

/-- Operations about the first core leave the others dormant. -/
theorem Secluded.perform (h : machine.Secluded) {operation : Operation}
    (hfirst : operation.forFirst = true) :
  (machine.perform operation).Secluded
  := by
  have requested (hidle : operation.stepsCores = false) (hresume : operation ≠ .resume)
      (hreset : operation ≠ .reset) (htarget : operation.target = 0) :
      (machine.perform operation).Secluded := by
    have hrequested := machine.perform_requested hidle hresume hreset
    rw [htarget] at hrequested
    apply hrequested.secluded h
  cases operation with
  | step => cases hfirst
  | stepCore index =>
    cases beq_iff_eq.mp hfirst
    apply h.stepped (machine.stepCore_stepped 0)
  | runCycles budget => apply (runCycles_alone h budget).2.2
  | runUntilHalt => apply (runUntilHalt_alone h).2.2
  | resume => apply h.resume
  | reset => apply (reset_alone h).2
  | _ => apply requested rfl nofun nofun (beq_iff_eq.mp hfirst)

/-- An operation that has no effect when it fails is the same, alone. -/
theorem orElse_alone {ε : Type} (machine : Machine) (error : ε → Reply)
    (result : Except ε Machine) :
  machine.alone.orElse (result.map alone) = (machine.orElse result).alone
    ∧ Reply.ofExcept error (fun _ => .done) (result.map alone)
      = Reply.ofExcept error (fun _ => .done) result
  := by
  cases result with
  | ok after => exact ⟨rfl, rfl⟩
  | error e => exact ⟨rfl, rfl⟩

/-- So is one that reports a value. -/
theorem orElse_alone_value {ε α : Type} (machine : Machine) (error : ε → Reply)
    (value : α → Reply) (result : Except ε (α × Machine)) :
  machine.alone.orElse ((result.map fun pair => (pair.1, pair.2.alone)).map (·.2))
      = (machine.orElse (result.map (·.2))).alone
    ∧ Reply.ofExcept error (fun pair => value pair.1)
        (result.map fun pair => (pair.1, pair.2.alone))
      = Reply.ofExcept error (fun pair => value pair.1) result
  := by
  cases result with
  | ok pair => exact ⟨rfl, rfl⟩
  | error e => exact ⟨rfl, rfl⟩

/-- So is one on the state of the machine. -/
theorem aloneAfter_alone {α : Type} (value : α → Reply)
    (result : EStateM.Result MachineError Machine α) :
  resultState (aloneAfter result) = (resultState result).alone
    ∧ Reply.ofResult value (aloneAfter result) = Reply.ofResult value result
  := by
  cases result with
  | ok a after => exact ⟨rfl, rfl⟩
  | error e after => exact ⟨rfl, rfl⟩

/-- Every operation about the first core does the same, alone, and has the same reply. -/
theorem perform_alone (h : machine.Secluded) {operation : Operation}
    (hfirst : operation.forFirst = true) :
  machine.alone.perform operation = (machine.perform operation).alone
    ∧ machine.alone.reply operation = machine.reply operation
  := by
  cases operation with
  | step => cases hfirst
  | stepCore index =>
    cases beq_iff_eq.mp hfirst
    simp only [perform, reply, alone_stepCore h]
    apply aloneAfter_alone
  | runCycles budget =>
    obtain ⟨hstate, hreply, _⟩ := runCycles_alone h budget
    apply And.intro hstate hreply
  | runUntilHalt =>
    obtain ⟨hstate, hreply, _⟩ := runUntilHalt_alone h
    apply And.intro hstate hreply
  | loadBytes address data =>
    simp only [perform, reply, alone_loadBytes]
    apply orElse_alone
  | loadImage image =>
    simp only [perform, reply, alone_loadImage]
    apply orElse_alone
  | loadFile path content base =>
    simp only [perform, reply, alone_loadFile]
    apply orElse_alone
  | launch index pc sp =>
    cases beq_iff_eq.mp hfirst
    simp only [perform, reply, alone_launch h]
    apply orElse_alone
  | wake index =>
    cases beq_iff_eq.mp hfirst
    simp only [perform, reply, alone_wake h]
    apply orElse_alone
  | addBreakpoint address =>
    simp only [perform, reply, alone_addBreakpoint]
    apply orElse_alone
  | getRegister index register =>
    cases beq_iff_eq.mp hfirst
    apply And.intro rfl
    simp only [reply, alone_getRegister h]
  | setRegister index register value =>
    cases beq_iff_eq.mp hfirst
    simp only [perform, reply, alone_setRegister h]
    apply orElse_alone
  | readMemory address =>
    simp only [perform, reply, readMemory, alone_transfer]
    apply aloneAfter_alone
  | writeMemory address value =>
    simp only [perform, reply, writeMemory, alone_transfer]
    apply aloneAfter_alone
  | readBytes address count =>
    simp only [perform, reply, readBytes, alone_transfer]
    apply aloneAfter_alone
  | setPin pin high =>
    simp only [perform, reply, alone_setPin]
    apply orElse_alone
  | serialWrite port data =>
    simp only [perform, reply, alone_serialWrite]
    apply orElse_alone_value
  | serialRead port count =>
    simp only [perform, reply, alone_serialRead]
    apply orElse_alone_value
  | takeEvents =>
    constructor
    · simp only [perform, alone_takeEvents]
    · simp only [reply, alone_takeEvents]
  | resume => apply And.intro (alone_resume machine) rfl
  | reset => apply And.intro (reset_alone h).1 rfl
  | halt | removeBreakpoint | clearBreakpoints | listing | getPin | setTracing | record =>
    exact ⟨rfl, rfl⟩

/-- So do any number of them, one after the other. -/
theorem performAll_alone (h : machine.Secluded) {operations : List Operation}
    (hfirst : ∀ operation ∈ operations, operation.forFirst = true) :
  machine.alone.performAll operations = (machine.performAll operations).alone
    ∧ (machine.performAll operations).Secluded
  := by
  induction operations generalizing machine with
  | nil => exact ⟨rfl, h⟩
  | cons operation rest ih =>
    have hoperation := hfirst operation List.mem_cons_self
    have hrest := ih (h.perform hoperation) fun o ho => hfirst o (List.mem_cons_of_mem _ ho)
    rw [← (perform_alone h hoperation).1] at hrest
    apply hrest

/-! ### New machines -/

/-- A new machine, alone, is the new machine with one core. -/
theorem alone_fresh {config : Config} (hcount : 0 < config.coreCount) :
  (fresh config).alone = fresh { config with coreCount := 1 }
  := by
  have hslot := fresh_slot config hcount
  have hone : Array.range 1 = #[0] := rfl
  rw [alone, hslot]
  simp only [fresh, hone, List.map_toArray]
  rfl

theorem Secluded.fresh {config : Config} (hcount : 0 < config.coreCount)
    (hdormant : config.dormantSecondaries = true) :
  (fresh config).Secluded
  where
  dormancy := hdormant
  cursor := by
    rw [fresh_size]
    apply hcount
  others i slot hslot := by
    obtain ⟨hlt, _⟩ := Array.getElem?_eq_some_iff.mp hslot
    rw [fresh_size] at hlt
    rw [fresh_slot config hlt] at hslot
    cases hslot
    rw [initialState, if_pos ⟨Nat.succ_pos i, hdormant⟩]

/-- The number of cores does not matter to the check, as long as it is in range. -/
theorem check_one {config : Config}
    (hcount : 0 < config.coreCount ∧ config.coreCount ≤ Config.maxCores) :
  { config with coreCount := 1 }.check = config.check
  := by
  have hrange : ¬ (config.coreCount = 0 ∨ Config.maxCores < config.coreCount) := by omega
  rw [Config.check, Config.check, if_neg hrange]
  rfl

/-- What a host can see of two machines by their first cores is the same: the core and its run
state, memory and the devices, the counter and the flags, and the reply to any further
operation. -/
structure Indistinguishable (machine other : Machine) : Prop where
  core : machine.slots[0]?.map (·.core) = other.slots[0]?.map (·.core)
  state : machine.slots[0]?.map (·.state) = other.slots[0]?.map (·.state)
  bus : machine.bus = other.bus
  cycles : machine.cycles = other.cycles
  halted : machine.halted = other.halted
  breakpointHit : machine.breakpointHit = other.breakpointHit
  replies : ∀ operation : Operation, operation.forFirst = true →
    machine.reply operation = other.reply operation

theorem Secluded.indistinguishable (h : machine.Secluded) :
  machine.Indistinguishable machine.alone
  where
  core := by rw [alone_first]
  state := by rw [alone_first]
  bus := rfl
  cycles := rfl
  halted := rfl
  breakpointHit := rfl
  replies _ hfirst := (perform_alone h hfirst).2.symm

/-- A machine with dormant secondary cores cannot be told from the machine with one core that
is otherwise configured alike: both fail to be built for the same reason, or they cannot be
told apart after any operations about the first core or about none. -/
theorem dormant_indistinguishable {config : Config}
    (hcount : 0 < config.coreCount ∧ config.coreCount ≤ Config.maxCores)
    (hdormant : config.dormantSecondaries = true) :
  (∃ e, create config = .error e ∧ create { config with coreCount := 1 } = .error e)
    ∨ ∃ machine solo, create config = .ok machine
      ∧ create { config with coreCount := 1 } = .ok solo
      ∧ ∀ operations : List Operation,
        (∀ operation ∈ operations, operation.forFirst = true) →
          (machine.performAll operations).Indistinguishable (solo.performAll operations)
  := by
  rw [create_eq, create_eq, check_one hcount]
  cases config.check with
  | error e =>
    left
    use e
    exact ⟨rfl, rfl⟩
  | ok _ =>
    right
    use fresh config, (fresh config).alone, rfl
    rw [alone_fresh hcount.1]
    use rfl
    intro operations hfirst
    obtain ⟨halone, hafter⟩ := performAll_alone (.fresh hcount.1 hdormant) hfirst
    rw [← alone_fresh hcount.1, halone]
    apply hafter.indistinguishable

/-- Two cores, of which the second one waits to be launched. -/
def couple : Config := { coreCount := 2, sramSize := 4 }

/-- The first core runs, sleeps, and is woken. -/
def coupleSession : List Operation :=
  [.writeMemory sramBase 0xBF30BF00, .setRegister 0 15 sramBase, .runCycles 3, .resume, .wake 0]

theorem couple_indistinguishable :
  0 < couple.coreCount ∧ couple.coreCount ≤ Config.maxCores ∧ couple.dormantSecondaries = true
    ∧ ∃ machine solo, create couple = .ok machine
      ∧ create { couple with coreCount := 1 } = .ok solo
      ∧ (∀ operation ∈ coupleSession, operation.forFirst = true)
      ∧ (machine.performAll coupleSession).Indistinguishable (solo.performAll coupleSession)
  := by
  have hfirst : ∀ operation ∈ coupleSession, operation.forFirst = true := by
    simp [coupleSession, Operation.forFirst, Operation.target]
  use (by decide), (by decide), rfl
  rcases @dormant_indistinguishable couple (by decide) rfl with
    ⟨e, hfails, _⟩ | ⟨machine, solo, hcreate, hsolo, hsame⟩
  · cases hfails
  · use machine, solo, hcreate, hsolo, hfirst
    apply hsame coupleSession hfirst

end Machine

end ThumbSoc
