import ThumbSoc.Proofs.Agreement
import ThumbSoc.Proofs.CoreStep
import ThumbSoc.Proofs.Machine.Budget

/-!
# Machines that are alike

Two machines are alike if they differ only in the recorded events, in a lead of the cycle counter,
in the order of the breakpoints, and in their buses, which are related by a given relation. If the
relation is kept by the steps of the cores, then the machines have the same outcomes, step by step
and run by run, and they stay alike.

The lemmas about steps use that the result of a step is determined, up to the recorded events, by
what the core does.
-/

namespace ThumbSoc

/-- A core looks for breakpoints only where it stands. -/
theorem ThumbCore.step_congr {breakpoints breakpoints' : Breakpoints}
    (h : breakpoints.contains = breakpoints'.contains) (core : ThumbCore) (armed : Option Word) :
  core.step breakpoints armed = core.step breakpoints' armed
  := by
  funext bus
  rw [step, step, h]

namespace Machine

/-! ### Steps are determined -/

namespace Stepped

variable {machine : Machine} {index : Nat} {slot : Slot}
  {result : EStateM.Result MachineError Machine StepOutcome}

theorem noCore_of (h : machine.Stepped index result) (absent : machine.slots[index]? = none) :
  result = .error (.noCore index machine.slots.size) machine
  := by
  cases h with
  | noCore => rfl
  | idle present | settled present | parked present | halted present =>
    rw [absent] at present
    cases present

theorem idle_of (h : machine.Stepped index result) (present : machine.slots[index]? = some slot)
    (waits : slot.state.isRunning = false) :
  result = .ok (.idle index slot.state) machine.haltIfIdle
  := by
  cases h with
  | noCore absent =>
    rw [present] at absent
    cases absent
  | idle present' =>
    rw [present] at present'
    cases present'
    rfl
  | settled present' runs | parked present' runs | halted present' runs =>
    rw [present] at present'
    cases present'
    rw [waits] at runs
    cases runs

theorem settled_of {core : ThumbCore} {step : CoreStep} {bus : Bus}
    (h : machine.Stepped index result) (present : machine.slots[index]? = some slot)
    (runs : slot.state.isRunning = true) (thumb : slot.core = .thumb core)
    (success : core.step machine.breakpoints slot.armed (machine.bus.select index)
      = .ok step bus) :
  ∃ recorder, result
    = .ok (step.outcome index core.pc) (machine.settled index step bus recorder).haltIfIdle
  := by
  have unfaulting {fault : CoreFault} {bus' : Bus} (faults : slot.Faults index machine.breakpoints
      (machine.bus.select index) fault bus') : False := by
    cases faults with
    | noEngine hart =>
      rw [thumb] at hart
      cases hart
    | failed thumb' failure =>
      rw [thumb] at thumb'
      cases thumb'
      rw [success] at failure
      cases failure
  cases h with
  | noCore absent =>
    rw [present] at absent
    cases absent
  | idle present' waits =>
    rw [present] at present'
    cases present'
    rw [runs] at waits
    cases waits
  | @settled slot' core' step' bus' recorder present' runs' thumb' success' =>
    rw [present] at present'
    cases present'
    rw [thumb] at thumb'
    cases thumb'
    rw [success] at success'
    cases success'
    use recorder
  | parked present' _ faults | halted present' _ faults =>
    rw [present] at present'
    cases present'
    cases unfaulting faults

theorem failed_of {fault : CoreFault} {bus : Bus} (h : machine.Stepped index result)
    (present : machine.slots[index]? = some slot) (runs : slot.state.isRunning = true)
    (faults : slot.Faults index machine.breakpoints (machine.bus.select index) fault bus) :
  ∃ recorder, result =
    match machine.config.faultPolicy with
    | .parkCore => .ok (.parked index fault)
      (machine.failed index (.parked fault) bus recorder).haltIfIdle
    | .haltAll => .error (.fault index fault) (machine.failed index slot.state bus recorder).halt
  := by
  have same {fault' : CoreFault} {bus' : Bus} (faults' : slot.Faults index machine.breakpoints
      (machine.bus.select index) fault' bus') : fault' = fault ∧ bus' = bus := by
    cases faults with
    | noEngine hart =>
      cases faults' with
      | noEngine => exact ⟨rfl, rfl⟩
      | failed thumb =>
        rw [hart] at thumb
        cases thumb
    | failed thumb failure =>
      cases faults' with
      | noEngine hart =>
        rw [hart] at thumb
        cases thumb
      | failed thumb' failure' =>
        rw [thumb] at thumb'
        cases thumb'
        rw [failure] at failure'
        cases failure'
        exact ⟨rfl, rfl⟩
  cases h with
  | noCore absent =>
    rw [present] at absent
    cases absent
  | idle present' waits =>
    rw [present] at present'
    cases present'
    rw [runs] at waits
    cases waits
  | settled present' _ thumb success =>
    rw [present] at present'
    cases present'
    cases faults with
    | noEngine hart =>
      rw [hart] at thumb
      cases thumb
    | failed thumb' failure =>
      rw [thumb] at thumb'
      cases thumb'
      rw [success] at failure
      cases failure
  | @parked slot' fault' bus' recorder present' runs' faults' policy =>
    rw [present] at present'
    cases present'
    obtain ⟨rfl, rfl⟩ := same faults'
    use recorder
    rw [policy]
  | @halted slot' fault' bus' recorder present' runs' faults' policy =>
    rw [present] at present'
    cases present'
    obtain ⟨rfl, rfl⟩ := same faults'
    use recorder
    rw [policy]

end Stepped

/-! ### Likeness -/

/-- The same machine up to the recorded events, a lead of the cycle counter, the order of the
breakpoints, and a relation on buses. -/
structure Alike (R : Bus → Bus → Prop) (lead : Nat) (machine other : Machine) : Prop where
  config : machine.config = other.config
  /-- The cores with their run states, and where they are armed. -/
  slots : machine.slots = other.slots
  bus : R machine.bus other.bus
  breakpoints : machine.breakpoints.contains = other.breakpoints.contains
  cycles : machine.cycles = other.cycles + lead
  halted : machine.halted = other.halted
  breakpointHit : machine.breakpointHit = other.breakpointHit
  cursor : machine.cursor = other.cursor

namespace Alike

variable {R : Bus → Bus → Prop} {lead : Nat} {machine other : Machine}

theorem refl (hR : ∀ bus, R bus bus) (machine : Machine) :
  machine.Alike R 0 machine
  := ⟨rfl, rfl, hR _, rfl, rfl, rfl, rfl, rfl⟩

theorem trans (hR : ∀ bus bus' bus'', R bus bus' → R bus' bus'' → R bus bus'') {lead' : Nat}
    {last : Machine} (h : Alike R lead machine other) (h' : Alike R lead' other last) :
  machine.Alike R (lead' + lead) last
  where
  config := h.config.trans h'.config
  slots := h.slots.trans h'.slots
  bus := hR _ _ _ h.bus h'.bus
  breakpoints := h.breakpoints.trans h'.breakpoints
  cycles := by rw [h.cycles, h'.cycles, Nat.add_assoc]
  halted := h.halted.trans h'.halted
  breakpointHit := h.breakpointHit.trans h'.breakpointHit
  cursor := h.cursor.trans h'.cursor

theorem haltIfIdle (h : Alike R lead machine other) :
  Alike R lead machine.haltIfIdle other.haltIfIdle
  := by
  have hany : machine.anyRunning = other.anyRunning := by rw [anyRunning, h.slots, anyRunning]
  rw [haltIfIdle_eq, haltIfIdle_eq, hany, h.halted]
  exact { h with halted := rfl }

theorem advance (h : Alike R lead machine other) :
  Alike R lead machine.advance other.advance
  := by
  have hcursor : (machine.cursor + 1) % machine.slots.size
      = (other.cursor + 1) % other.slots.size := by rw [h.cursor, h.slots]
  exact { h with cursor := hcursor }

theorem stopped (h : Alike R lead machine other) (goal : Nat) :
  machine.stopped (goal + lead) = other.stopped goal
  := by
  rw [Machine.stopped, Machine.stopped, h.cycles, h.halted, h.breakpointHit]
  simp

theorem stopReason (h : Alike R lead machine other) :
  machine.stopReason = other.stopReason
  := by rw [Machine.stopReason, Machine.stopReason, h.breakpointHit]

/-- A run that is over is over for the other machine as well, and for the same reason. That one may
count towards a later goal, if the run ended before its own. -/
theorem ends {goal goal' : Nat} (h : Alike R lead machine other)
    (hstop : machine.stopped (goal + lead) = true) (hle : goal ≤ goal')
    (hends : goal = goal' ∨ machine.cycles < goal + lead) :
  other.stopped goal' = true ∧ machine.endReason (goal + lead) = other.endReason goal'
  := by
  rw [h.stopped] at hstop
  have hcycles := h.cycles
  rcases hends with rfl | hbefore
  · use hstop
    rw [endReason, endReason, h.stopReason, hcycles]
    simp only [Nat.add_le_add_iff_right]
  · have hother : other.cycles < goal := by omega
    use stopped_of_lt hstop hother _
    rw [endReason_of_lt hbefore, endReason_of_lt (Nat.lt_of_lt_of_le hother hle), h.stopReason]

/-! ### Steps -/

/-- What the running core `index` does on the two buses agrees. -/
def Steps (R : Bus → Bus → Prop) (index : Nat) (machine other : Machine) : Prop :=
  ∀ (slot : Slot) (core : ThumbCore), machine.slots[index]? = some slot →
    slot.state.isRunning = true → slot.core = .thumb core →
      Agree Eq R (core.step machine.breakpoints slot.armed (machine.bus.select index))
        (core.step other.breakpoints slot.armed (other.bus.select index))

theorem Steps.faults {index : Nat} {slot : Slot} {fault : CoreFault} {bus : Bus}
    (hsteps : Steps R index machine other)
    (hselect : R (machine.bus.select index) (other.bus.select index))
    (present : machine.slots[index]? = some slot) (runs : slot.state.isRunning = true)
    (hfaults : slot.Faults index machine.breakpoints (machine.bus.select index) fault bus) :
  ∃ bus', R bus bus'
    ∧ slot.Faults index other.breakpoints (other.bus.select index) fault bus'
  := by
  cases hfaults with
  | noEngine hart => use other.bus.select index, hselect, .noEngine hart
  | @failed core _ _ thumb failure =>
    have hagree := hsteps slot core present runs thumb
    rw [failure] at hagree
    generalize hother : core.step other.breakpoints slot.armed (other.bus.select index) = result
      at hagree
    cases hagree with
    | @error _ _ bus' states => use bus', states, .failed thumb hother

/-- A step of a core is the same in machines that are alike, if it is the same on their buses. -/
theorem stepCore (h : Alike R lead machine other) {index : Nat}
    (hselect : R (machine.bus.select index) (other.bus.select index))
    (hsteps : Steps R index machine other) :
  Agree Eq (Alike R lead) (machine.stepCore index) (other.stepCore index)
  := by
  have hmachine := machine.stepCore_stepped index
  have hother := other.stepCore_stepped index
  generalize machine.stepCore index = result at hmachine
  cases hmachine with
  | noCore absent =>
    rw [h.slots] at absent ⊢
    rw [hother.noCore_of absent]
    exact .error _ h
  | @idle slot present waits =>
    rw [h.slots] at present
    rw [hother.idle_of present waits]
    exact .ok rfl h.haltIfIdle
  | @settled slot core step bus recorder present runs thumb success =>
    have hagree := hsteps slot core present runs thumb
    rw [success] at hagree
    generalize hstep : core.step other.breakpoints slot.armed (other.bus.select index) = result
      at hagree
    cases hagree with
    | @ok _ _ _ bus' values states =>
      cases values
      rw [h.slots] at present
      obtain ⟨recorder', hresult⟩ := hother.settled_of present runs thumb hstep
      rw [hresult]
      apply Agree.ok rfl
      apply haltIfIdle
      constructor
      case config => exact h.config
      case slots => simp only [Machine.settled, h.slots]
      case bus => exact states
      case breakpoints => exact h.breakpoints
      case cycles =>
        simp only [Machine.settled, h.cycles]
        omega
      case halted => exact h.halted
      case breakpointHit => simp only [Machine.settled, h.breakpointHit]
      case cursor => exact h.cursor
  | @parked slot fault bus recorder present runs hfaults policy =>
    obtain ⟨bus', states, hfaults'⟩ := hsteps.faults hselect present runs hfaults
    rw [h.slots] at present
    obtain ⟨recorder', hresult⟩ := hother.failed_of present runs hfaults'
    rw [← h.config, policy] at hresult
    rw [hresult]
    apply Agree.ok rfl
    apply haltIfIdle
    have hslots : (machine.failed index (.parked fault) bus recorder).slots
        = (other.failed index (.parked fault) bus' recorder').slots := by
      simp only [Machine.failed, h.slots]
    exact { h with slots := hslots, bus := states }
  | @halted slot fault bus recorder present runs hfaults policy =>
    obtain ⟨bus', states, hfaults'⟩ := hsteps.faults hselect present runs hfaults
    rw [h.slots] at present
    obtain ⟨recorder', hresult⟩ := hother.failed_of present runs hfaults'
    rw [← h.config, policy] at hresult
    rw [hresult]
    apply Agree.error
    have hslots : (machine.failed index slot.state bus recorder).halt.slots
        = (other.failed index slot.state bus' recorder').halt.slots := by
      simp only [Machine.failed, Machine.halt, h.slots]
    exact { h with slots := hslots, bus := states, halted := rfl }

/-- So is a turn. -/
theorem step (h : Alike R lead machine other)
    (hselect : R (machine.bus.select machine.cursor) (other.bus.select other.cursor))
    (hsteps : Steps R machine.cursor machine other) :
  Agree Eq (Alike R lead) machine.step other.step
  := by
  have hcursor : other.step = other.advance.stepCore machine.cursor := by
    rw [Machine.step, h.cursor]
  rw [← h.cursor] at hselect
  rw [hcursor]
  exact h.advance.stepCore hselect hsteps

/-! ### Runs -/

/-- If the turns of a run agree with those of any machine that is alike, so does the run. What the
turns of the run have in common may be used for that. -/
theorem runTo {P : Machine → Prop} {goal : Nat}
    (hkeeps : ∀ {machine after outcome}, P machine → machine.stopped (goal + lead) = false →
      machine.step = .ok outcome after → P after)
    (hstep : ∀ {machine other}, Alike R lead machine other → P machine →
      machine.stopped (goal + lead) = false → Agree Eq (Alike R lead) machine.step other.step)
    (h : Alike R lead machine other) (hP : P machine) (steps : Nat) :
  Agree Eq (Alike R lead) (Machine.runTo (goal + lead) machine steps)
    (Machine.runTo goal other steps)
  := by
  induction machine, steps using Machine.runTo.induct (goal + lead) generalizing other with
  | case1 machine steps hstop =>
    have hother : other.stopped goal = true := by
      rw [← h.stopped]
      exact hstop
    rw [runTo_stopped steps hstop, runTo_stopped steps hother]
    exact .ok rfl h
  | case2 machine steps hgoes e after hfails =>
    have hgoes : machine.stopped (goal + lead) = false := Bool.eq_false_iff.mpr hgoes
    have hother : other.stopped goal = false := by
      rw [← h.stopped]
      exact hgoes
    have hagree := hstep h hP hgoes
    generalize hturn : other.step = turn at hagree
    rw [hfails] at hagree
    cases hagree with
    | error _ states =>
      rw [runTo_error steps hgoes hfails, runTo_error steps hother hturn]
      exact .error e states
  | case3 machine steps hgoes outcome after hturn ih =>
    have hgoes : machine.stopped (goal + lead) = false := Bool.eq_false_iff.mpr hgoes
    have hother : other.stopped goal = false := by
      rw [← h.stopped]
      exact hgoes
    have hagree := hstep h hP hgoes
    generalize hturn' : other.step = turn at hagree
    rw [hturn] at hagree
    cases hagree with
    | ok values states =>
      rw [runTo_ok steps hgoes hturn, runTo_ok steps hother hturn']
      exact ih states (hkeeps hP hgoes hturn)

end Alike

end Machine

end ThumbSoc
