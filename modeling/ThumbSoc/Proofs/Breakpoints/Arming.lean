import ThumbSoc.Proofs.Invariants.Machine
import ThumbSoc.Proofs.Machine.Request
import ThumbSoc.Proofs.Machine.Visited

/-!
# Armed cores

A core that goes on from a breakpoint must not stop there again at once. A resume therefore
arms every core that stands on a breakpoint, and an armed core runs over the breakpoint that it
is armed at, once. Which address a core is armed at is a function of what happened so far, and
`history_hits_iff` says that a running core hits a breakpoint if it stands on one and is not
armed there, and in no other case. A hit changes nothing that a program can see.
-/

namespace ThumbSoc

/-! ### Arming as a function of the history -/

/-- The breakpoint that core `index` stands on, if it stands on one. -/
def Machine.breakpointAt? (machine : Machine) (index : Nat) : Option Word :=
  (machine.slots[index]?.map (·.core.pc)).filter machine.breakpoints.contains

/-- The address at which core `index` is armed after a moment, by the one at which it is armed
before. A resume arms a core that stands on a breakpoint; a step of the core while it runs,
and a reset, disarm it. -/
def Moment.arm (index : Nat) (armed : Option Word) : Moment → Option Word
  | .visit v => if v.index = index ∧ v.runs then none else armed
  | .request machine .resume => (machine.breakpointAt? index).or armed
  | .request _ .reset => none
  | .request .. => armed

/-- The address at which core `index` of a new machine is armed after the given moments. -/
def armedAfter (index : Nat) (moments : List Moment) : Option Word :=
  moments.foldl (Moment.arm index) none

theorem armedAfter_concat (index : Nat) (past : List Moment) (moment : Moment) :
  armedAfter index (past ++ [moment]) = moment.arm index (armedAfter index past)
  := List.foldl_append ..

namespace Machine

/-- The addresses at which the cores are armed. -/
def arms (machine : Machine) : Array (Option Word) :=
  machine.slots.map (·.armed)

/-- Every core is armed as the moments so far say. -/
def ArmedBy (past : List Moment) (machine : Machine) : Prop :=
  ∀ index armed, machine.arms[index]? = some armed → armed = armedAfter index past

/-! ### What a moment does to the arming -/

/-- Most requests leave the arming alone. -/
theorem Requested.arms {machine after : Machine} {index : Nat}
    (h : machine.Requested index after) :
  after.arms = machine.arms
  := by
  cases h with
  | shared => rfl
  | core change bus recorder armed => apply map_modify armed

/-- A resume arms the cores that stand on a breakpoint. -/
theorem arms_resume (machine : Machine) (index : Nat) :
  machine.resume.arms[index]?
    = machine.arms[index]?.map (machine.breakpointAt? index).or
  := by
  simp only [arms, resume, Array.getElem?_map, breakpointAt?]
  cases machine.slots[index]? with
  | none => rfl
  | some slot =>
    simp only [Option.map_some, Option.filter_some]
    split
    · rfl
    · rfl

/-- A change that disarms the core. -/
theorem arms_disarm (machine : Machine) (index i : Nat) {change : Slot → Slot}
    (h : ∀ slot, (change slot).armed = none) :
  (machine.modifySlot index change).arms[i]?
    = machine.arms[i]?.map fun armed => if index = i then none else armed
  := by
  simp only [arms, modifySlot, Array.getElem?_map, Array.getElem?_modify, Option.map_map]
  split
  · rw [Option.map_map]
    congr 1
    funext slot
    simp only [Function.comp_apply, h]
  · next hi =>
    rfl

/-- A reset disarms every core. -/
theorem arms_reset (machine : Machine) (index : Nat) :
  machine.reset.arms[index]? = machine.arms[index]?.map fun _ => none
  := by
  have hcores : ∀ count, ((List.range count).foldl resetCore machine).arms[index]?
      = machine.arms[index]?.map fun armed => if index < count then none else armed := by
    intro count
    induction count with
    | zero => simp
    | succ count ih =>
      rw [List.range_succ, List.foldl_append, List.foldl_cons, List.foldl_nil, resetCore]
      rw [(Requested.setState ..).arms, arms_disarm _ _ _ (fun _ => rfl), ih, Option.map_map]
      congr 1
      funext armed
      grind
  change ((List.range machine.slots.size).foldl resetCore machine).arms[index]? = _
  rw [hcores]
  cases harmed : machine.arms[index]? with
  | none => rfl
  | some armed =>
    obtain ⟨hlt, _⟩ := Array.getElem?_eq_some_iff.mp harmed
    have hlt : index < machine.slots.size := Nat.lt_of_lt_of_eq hlt Array.size_map
    rw [Option.map_some, if_pos hlt]
    rfl

/-- A request arms and disarms cores as its moment says. -/
theorem perform_arms (machine : Machine) {operation : Operation}
    (hidle : operation.stepsCores = false) (index : Nat) :
  (machine.perform operation).arms[index]?
    = machine.arms[index]?.map ((Moment.request machine operation).arm index ·)
  := by
  have kept (hresume : operation ≠ .resume) (hreset : operation ≠ .reset) :
      (machine.perform operation).arms[index]? = machine.arms[index]?.map id := by
    rw [(machine.perform_requested hidle hresume hreset).arms, Option.map_id]
    rfl
  cases operation with
  | resume => apply machine.arms_resume
  | reset => apply machine.arms_reset
  | step | stepCore | runCycles | runUntilHalt => cases hidle
  | _ => apply kept nofun nofun

/-- A step of a core disarms it if it runs. -/
theorem Stepped.arms {machine : Machine} {index : Nat}
    {result : EStateM.Result MachineError Machine StepOutcome} (h : machine.Stepped index result)
    (i : Nat) :
  (resultState result).arms[i]?
    = machine.arms[i]?.map ((Moment.visit ⟨machine, index⟩).arm i ·)
  := by
  obtain ⟨_, _, _, change, hslots, hvisited⟩ := h.frame
  rw [Machine.arms, Machine.arms, Array.getElem?_map, Array.getElem?_map, hslots,
    Array.getElem?_modify]
  split
  · next hi =>
    subst hi
    cases hslot : machine.slots[index]? with
    | none => rfl
    | some slot =>
      have hruns : (Visit.mk machine index).runs = slot.state.isRunning := by
        rw [Visit.runs, Visit.slot?, hslot]
        rfl
      have hvisited := hvisited slot hslot
      simp only [Option.map_some, Moment.arm, hruns, true_and]
      generalize change slot = after at hvisited ⊢
      generalize passes result = moved at hvisited
      cases hvisited with
      | rests waits => simp [waits]
      | stays runs disarmed => simp [runs, disarmed]
      | moves runs disarmed => simp [runs, disarmed]
  · next hi => simp only [Moment.arm, hi, false_and, if_false, Option.map_id']

/-- Every moment arms and disarms the cores as it says. -/
theorem Leads.arms {machine after : Machine} {moment : Moment}
    (h : Leads machine moment after) (index : Nat) :
  after.arms[index]? = machine.arms[index]?.map (moment.arm index ·)
  := by
  cases h with
  | visit i => apply (machine.stepCore_stepped i).arms
  | turn => apply machine.step_stepped.arms
  | request idle => apply machine.perform_arms idle

theorem Leads.armedBy {past : List Moment} {machine after : Machine} {moment : Moment}
    (hleads : Leads machine moment after) (h : machine.ArmedBy past) :
  after.ArmedBy (past ++ [moment])
  := by
  intro index armed harmed
  rw [hleads.arms] at harmed
  obtain ⟨before, hbefore, rfl⟩ := Option.map_eq_some_iff.mp harmed
  rw [armedAfter_concat, h index before hbefore]

theorem create_armedBy {config : Config} {machine : Machine} (h : create config = .ok machine) :
  machine.ArmedBy []
  := by
  rw [eq_fresh h]
  intro index armed harmed
  rw [arms, Array.getElem?_map] at harmed
  obtain ⟨slot, hslot, rfl⟩ := Option.map_eq_some_iff.mp harmed
  obtain ⟨hlt, _⟩ := Array.getElem?_eq_some_iff.mp hslot
  rw [fresh_size] at hlt
  rw [fresh_slot config hlt] at hslot
  cases hslot
  rfl

end Machine

/-! ### Hits -/

/-- A core paused at a breakpoint: the hit is noted, and everything that a program can see is
as before. -/
structure Machine.Paused (machine after : Machine) : Prop where
  noted : after.breakpointHit = true
  cores : after.slots.map (·.core) = machine.slots.map (·.core)
  states : after.slots.map (·.state) = machine.slots.map (·.state)
  sram : after.bus.sram = machine.bus.sram
  output : after.bus.gpio.output = machine.bus.gpio.output
  enable : after.bus.gpio.enable = machine.bus.gpio.enable
  input : after.bus.gpio.input = machine.bus.gpio.input
  serial : after.bus.serial = machine.bus.serial
  cycles : after.cycles = machine.cycles

namespace Machine

variable {machine : Machine} {index : Nat}

theorem settled_paused (machine : Machine) (index : Nat) (recorder : Option (Array Event)) :
  machine.Paused
    (machine.settled index .breakpoint (machine.bus.select index) recorder).haltIfIdle
  := by
  have hcore (slot : Slot) : (slot.settle .breakpoint).core = slot.core := rfl
  have hstate (slot : Slot) : (slot.settle .breakpoint).state = slot.state := rfl
  rw [haltIfIdle_eq]
  constructor
  case noted => apply Bool.or_true
  case cores => exact map_modify hcore
  case states => exact map_modify hstate
  all_goals rfl

/-- A step that reports a hit is one of a running core which stands on a breakpoint and is not
armed there. -/
theorem stepCore_breakpoint {i : Nat} {pc : Word} {after : Machine}
    (h : machine.stepCore index = .ok (.breakpoint i pc) after) :
  ∃ slot core, machine.slots[index]? = some slot ∧ slot.state.isRunning = true
    ∧ slot.core = .thumb core ∧ i = index ∧ pc = core.pc
    ∧ slot.armed ≠ some core.pc ∧ machine.breakpoints.contains core.pc
    ∧ machine.Paused after
  := by
  have hstepped := machine.stepCore_stepped index
  generalize hresult : machine.stepCore index = result at hstepped
  rw [hresult] at h
  cases hstepped with
  | @settled slot core step bus recorder present runs thumb success =>
    cases step with
    | breakpoint =>
      obtain ⟨⟨harmed, hcontains⟩, rfl⟩ := ThumbCore.step_eq_breakpoint_iff.mp success
      cases h
      use slot, core, present, runs, thumb, rfl, rfl, harmed, hcontains
      apply settled_paused
    | skipped => cases h
    | executed => cases h
  | noCore => cases h
  | idle => cases h
  | parked => cases h
  | halted => cases h

/-- A running core that stands on a breakpoint and is not armed there stops. -/
theorem stepCore_stops {slot : Slot} {core : ThumbCore} (hslot : machine.slots[index]? = some slot)
    (hruns : slot.state.isRunning = true) (hcore : slot.core = .thumb core)
    (harmed : slot.armed ≠ some core.pc) (hcontains : machine.breakpoints.contains core.pc) :
  ∃ after, machine.stepCore index = .ok (.breakpoint index core.pc) after
  := by
  have hstep (bus : Bus) : core.step machine.breakpoints slot.armed bus = .ok .breakpoint bus :=
    ThumbCore.step_eq_breakpoint_iff.mpr ⟨⟨harmed, hcontains⟩, rfl⟩
  have faultless {fault : CoreFault} {bus : Bus} {P : Prop}
      (h : slot.Faults index machine.breakpoints (machine.bus.select index) fault bus) : P := by
    cases h with
    | noEngine hhart =>
      rw [hcore] at hhart
      cases hhart
    | failed hthumb hfailure =>
      rw [hcore] at hthumb
      cases hthumb
      rw [hstep] at hfailure
      cases hfailure
  have hstepped := machine.stepCore_stepped index
  generalize machine.stepCore index = result at hstepped
  cases hstepped with
  | noCore absent =>
    rw [hslot] at absent
    cases absent
  | idle present waits =>
    rw [hslot] at present
    cases present
    rw [hruns] at waits
    cases waits
  | settled present runs thumb success =>
    rw [hslot] at present
    cases present
    rw [hcore] at thumb
    cases thumb
    rw [hstep] at success
    cases success
    apply Exists.intro
    rfl
  | parked present runs faults policy =>
    rw [hslot] at present
    cases present
    apply faultless faults
  | halted present runs faults policy =>
    rw [hslot] at present
    cases present
    apply faultless faults

/-- The core that a moment of a course steps is armed as the moments before it say. -/
theorem Leads.armed_eq {past : List Moment} {current after : Machine} {visit : Visit}
    (h : current.ArmedBy past) (hleads : Leads current (.visit visit) after) {slot : Slot}
    (hslot : visit.slot? = some slot) :
  slot.armed = armedAfter visit.index past
  := by
  obtain ⟨⟨cursor, hmachine⟩, _, _⟩ := hleads.stepped
  rw [Visit.slot?, hmachine] at hslot
  apply h
  rw [Machine.arms, Array.getElem?_map, hslot, Option.map_some]

/-- In every history of a new machine, a step of a running core hits a breakpoint if the core
stands on one and is not armed there by what happened before, and in no other case. A hit is
noted, and everything that a program can see stays as it is. -/
theorem history_hits_iff {config : Config} (hcreate : create config = .ok machine)
    {operations : List Operation} {before later : List Moment} {visit : Visit}
    (hhistory : machine.history operations = before ++ .visit visit :: later)
    {slot : Slot} {core : ThumbCore} (hslot : visit.slot? = some slot)
    (hruns : slot.state = .running) (hcore : slot.core = .thumb core) :
  ((∃ after, visit.result = .ok (.breakpoint visit.index core.pc) after)
      ↔ visit.machine.breakpoints.contains core.pc
        ∧ armedAfter visit.index before ≠ some core.pc)
    ∧ ∀ index pc after, visit.result = .ok (.breakpoint index pc) after →
      index = visit.index ∧ pc = core.pc ∧ visit.machine.Paused after
  := by
  have hcourse := machine.performAll_course operations
  obtain ⟨current, _, harmed, hleads⟩ :=
    hcourse.along (fun hleads h => hleads.armedBy h) (create_armedBy hcreate) hhistory
  have harmed : slot.armed = armedAfter visit.index before := hleads.armed_eq harmed hslot
  constructor
  · rw [← harmed]
    constructor
    · rintro ⟨after, hhit⟩
      obtain ⟨slot', core', hslot', _, hcore', _, _, hunarmed, hcontains, _⟩ :=
        stepCore_breakpoint hhit
      rw [Visit.slot?, hslot'] at hslot
      cases hslot
      rw [hcore] at hcore'
      cases hcore'
      apply And.intro hcontains hunarmed
    · rintro ⟨hcontains, hunarmed⟩
      apply stepCore_stops hslot _ hcore hunarmed hcontains
      rw [hruns]
      rfl
  · intro index pc after hhit
    obtain ⟨slot', core', hslot', _, hcore', hindex, hpc, _, _, hpaused⟩ :=
      stepCore_breakpoint hhit
    rw [Visit.slot?, hslot'] at hslot
    cases hslot
    rw [hcore] at hcore'
    cases hcore'
    use hindex, hpc

/-- A core is started on a breakpoint, stops there, and is let go on. -/
def stopAndGo : List Operation :=
  [.launch 0 sramBase 0, .addBreakpoint sramBase, .step, .resume, .step]

/-- The core, once it is started. -/
def started : ThumbCore :=
  { (ThumbCore.reset 0).setPc sramBase with vtor := sramBase }

theorem tiny_history_hits :
  ∃ machine before stop request go, create tiny = .ok machine
    ∧ machine.history stopAndGo = before ++ .visit stop :: request :: [.visit go]
    ∧ (∃ after, stop.result = .ok (.breakpoint 0 sramBase) after ∧ stop.machine.Paused after)
    ∧ armedAfter 0 (before ++ [.visit stop, request]) = some sramBase
    ∧ ¬ ∃ after, go.result = .ok (.breakpoint 0 sramBase) after
  := by
  obtain ⟨machine, hcreate⟩ : ∃ machine, create tiny = .ok machine := ⟨_, rfl⟩
  let ready := machine.performAll (stopAndGo.take 2)
  let stopped := ready.perform .step
  let resumed := stopped.perform .resume
  let before : List Moment := [.request machine (.launch 0 sramBase 0),
    .request (machine.perform (.launch 0 sramBase 0)) (.addBreakpoint sramBase)]
  use machine, before, ready.turn, .request stopped .resume, resumed.turn, hcreate
  have hstop : machine.history stopAndGo
      = before ++ .visit ready.turn :: [.request stopped .resume, .visit resumed.turn] := rfl
  have hgo : machine.history stopAndGo
      = (before ++ [.visit ready.turn, .request stopped .resume]) ++ [.visit resumed.turn] := rfl
  use hstop
  have hpc : started.pc = sramBase := by decide
  have harmed : armedAfter 0 (before ++ [.visit ready.turn, .request stopped .resume])
      = some sramBase := by
    cases hcreate
    with_unfolding_all rfl
  constructor
  · have hslot : ready.turn.slot? = some ⟨.thumb started, .running, none⟩ := by
      cases hcreate
      with_unfolding_all rfl
    have hindex : ready.turn.index = 0 := by
      cases hcreate
      with_unfolding_all rfl
    have hcontains : ready.turn.machine.breakpoints.contains sramBase := by
      cases hcreate
      with_unfolding_all rfl
    have hunarmed : armedAfter 0 before = none := by
      cases hcreate
      with_unfolding_all rfl
    obtain ⟨hiff, hpaused⟩ := history_hits_iff hcreate hstop hslot rfl rfl
    rw [hindex, hpc, hunarmed] at hiff
    obtain ⟨after, hhit⟩ := hiff.mpr ⟨hcontains, nofun⟩
    obtain ⟨_, _, hafter⟩ := hpaused _ _ _ hhit
    use after, hhit
  · use harmed
    have hslot : resumed.turn.slot? = some ⟨.thumb started, .running, some sramBase⟩ := by
      cases hcreate
      with_unfolding_all rfl
    have hindex : resumed.turn.index = 0 := by
      cases hcreate
      with_unfolding_all rfl
    obtain ⟨hiff, _⟩ := history_hits_iff hcreate hgo hslot rfl rfl
    rw [hindex, hpc] at hiff
    intro hhit
    apply (hiff.mp hhit).2 harmed

end Machine

end ThumbSoc
