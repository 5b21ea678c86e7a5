import ThumbSoc.Proofs.Machine.Alike
import ThumbSoc.Proofs.Machine.Secondary

/-!
# Sessions on machines that are alike

A session is a sequence of steps, runs for a budget, resumes, launches, and accesses to registers.
Which core made the last transfer on the bus, when the machine was built, how its breakpoints are
ordered and what it has recorded are of no consequence for a session: two machines that differ in
nothing else give the same replies, operation by operation.

A run for a budget counts towards a goal, which the last value of the cycle counter bounds. The
machines behave alike as long as that bound is not what ends a run.
-/

namespace ThumbSoc

/-- The same bus, up to the core that made the last transfer. -/
def Bus.Same (bus other : Bus) : Prop :=
  bus.select 0 = other.select 0

theorem Bus.Same.refl (bus : Bus) :
  bus.Same bus
  := rfl

theorem Bus.Same.select {bus other : Bus} (h : bus.Same other) (index : Nat) :
  bus.select index = other.select index
  := by
  have hagain (bus : Bus) : bus.select index = (bus.select 0).select index := rfl
  rw [hagain, hagain other, h]

/-- The operations of a session. -/
def Operation.inSession : Operation → Bool
  | .step | .stepCore _ | .runCycles _ | .resume | .launch .. | .getRegister .. => true
  | .setRegister .. => true
  | _ => false

namespace Machine

/-- The number of steps of a run that succeeds. -/
def runLength? (machine : Machine) : Operation → Option Nat
  | .runCycles budget =>
    match machine.runCycles budget with
    | .ok outcome _ => some outcome.steps
    | .error .. => none
  | .runUntilHalt =>
    match machine.runUntilHalt with
    | .ok outcome _ => some outcome.steps
    | .error .. => none
  | _ => none

/-- All that a host learns from operations that are performed one after the other. -/
def replies (machine : Machine) : List Operation → List (Reply × Option Nat)
  | [] => []
  | operation :: rest =>
    (machine.reply operation, machine.runLength? operation)
      :: (machine.perform operation).replies rest

/-- In no run of a session the last value of the cycle counter is reached for want of a higher
one: the counter has room for the budget, or the run ends before. -/
def HasRoom (machine : Machine) : List Operation → Prop
  | [] => True
  | operation :: rest =>
    (∀ budget, operation = .runCycles budget →
      machine.cycles + budget < UInt64.size ∨ (machine.perform operation).cycles < cycleLimit)
      ∧ (machine.perform operation).HasRoom rest

namespace Alike

variable {R : Bus → Bus → Prop} {lead : Nat} {machine other : Machine}

/-! ### Changes of slots -/

theorem modifySlot (h : Alike R lead machine other) (index : Nat) (change : Slot → Slot) :
  Alike R lead (machine.modifySlot index change) (other.modifySlot index change)
  := by
  have hslots : machine.slots.modify index change = other.slots.modify index change := by
    rw [h.slots]
  exact { h with slots := hslots }

theorem setState (h : Alike R lead machine other) (index : Nat) (state : RunState) :
  Alike R lead (machine.setState index state) (other.setState index state)
  := by
  have hmodified := h.modifySlot index ({ · with state })
  rw [setState_eq, setState_eq other]
  exact { hmodified with }

theorem slot (h : Alike R lead machine other) (index : Nat) :
  machine.slot index = other.slot index
  := by rw [Machine.slot, Machine.slot, h.slots]

theorem resume (h : Alike R lead machine other) :
  Alike R lead machine.resume other.resume
  := by
  have hslots : machine.resume.slots = other.resume.slots := by
    simp only [Machine.resume, h.slots, h.breakpoints]
  exact { h with slots := hslots, halted := rfl, breakpointHit := rfl }

/-! ### Requests -/

/-- Requests that are refused for the same reason, or that leave machines that are alike. -/
inductive Outcomes (R : Bus → Bus → Prop) (lead : Nat) :
    Except MachineError Machine → Except MachineError Machine → Prop where
  | ok {after after' : Machine} (alike : Alike R lead after after') :
      Outcomes R lead (.ok after) (.ok after')
  | error (e : MachineError) : Outcomes R lead (.error e) (.error e)

theorem Outcomes.reply {result result' : Except MachineError Machine}
    (h : Outcomes R lead result result') :
  Reply.ofExcept .failed (fun _ => .done) result = .ofExcept .failed (fun _ => .done) result'
  := by cases h <;> rfl

theorem Outcomes.orElse {result result' : Except MachineError Machine}
    (h : Outcomes R lead result result') (halike : Alike R lead machine other) :
  Alike R lead (machine.orElse result) (other.orElse result')
  := by
  cases h with
  | ok alike => exact alike
  | error => exact halike

theorem launch (h : Alike R lead machine other) (index : Nat) (pc sp : Word) :
  Outcomes R lead (machine.launch index pc sp) (other.launch index pc sp)
  := by
  rw [Machine.launch, Machine.launch, h.slot]
  cases other.slot index with
  | error e => exact .error e
  | ok slot => exact .ok ((h.modifySlot _ _).setState _ _)

theorem setRegister (h : Alike R lead machine other) (index register : Nat) (value : Word) :
  Outcomes R lead (machine.setRegister index register value)
    (other.setRegister index register value)
  := by
  rw [Machine.setRegister, Machine.setRegister, h.slot]
  cases other.slot index with
  | error e => exact .error e
  | ok slot =>
    cases hcore : slot.core.write? register value with
    | none =>
      simp only [bind, Except.bind, hcore]
      exact .error _
    | some core =>
      simp only [bind, Except.bind, hcore]
      exact .ok (h.modifySlot _ _)

/-! ### Steps and runs -/

/-- The goal of a run of the machine that leads, seen from the other one, is not past the goal of
the other one. If it is not the same, then the run ends before. -/
theorem exists_goal (h : Alike R lead machine other) {budget : Nat}
    (hroom : machine.cycles + budget < UInt64.size
      ∨ (resultState (machine.runCycles budget)).cycles < cycleLimit) :
  ∃ goal, min (machine.cycles + budget) cycleLimit = goal + lead
    ∧ goal ≤ min (other.cycles + budget) cycleLimit
    ∧ (goal = min (other.cycles + budget) cycleLimit
      ∨ (resultState (machine.runCycles budget)).cycles < goal + lead)
  := by
  have hlead := h.cycles
  rcases hroom with hfits | hends
  · have hsize : UInt64.size = cycleLimit + 1 := rfl
    use other.cycles + budget
    omega
  · have hstart : machine.cycles < cycleLimit := by
      apply Decidable.byContradiction
      intro hover
      have hstop : machine.stopped (min (machine.cycles + budget) cycleLimit) = true := by
        have hreached : min (machine.cycles + budget) cycleLimit ≤ machine.cycles := by omega
        simp only [Machine.stopped, hreached, decide_true, Bool.true_or]
      rw [resultState_runCycles, runTo_stopped 0 hstop] at hends
      exact hover hends
    by_cases hfits : machine.cycles + budget ≤ cycleLimit
    · use other.cycles + budget
      omega
    · use cycleLimit - lead
      omega

section Same

variable (h : Alike Bus.Same lead machine other)
include h

theorem steps (index : Nat) :
  Steps Bus.Same index machine other
  := by
  intro slot core _ _ _
  rw [h.bus.select, ThumbCore.step_congr h.breakpoints]
  exact Agree.refl (fun _ => rfl) Bus.Same.refl _

theorem stepCore_same (index : Nat) :
  Agree Eq (Alike Bus.Same lead) (machine.stepCore index) (other.stepCore index)
  := by
  apply h.stepCore _ (h.steps index)
  rw [h.bus.select]
  rfl

theorem step_same :
  Agree Eq (Alike Bus.Same lead) machine.step other.step
  := by
  apply h.step _ (h.steps machine.cursor)
  rw [h.cursor, h.bus.select]
  rfl

theorem runTo_same (goal steps : Nat) :
  Agree Eq (Alike Bus.Same lead) (Machine.runTo (goal + lead) machine steps)
    (Machine.runTo goal other steps)
  := h.runTo (P := fun _ => True) (fun _ _ _ => trivial) (fun halike _ _ => halike.step_same) trivial
    steps

/-- If the cycle counters have room for the budget, or the machine that leads does not reach the
last value of its counter, runs for a budget have the same outcome. -/
theorem runCycles_same {budget : Nat}
    (hroom : machine.cycles + budget < UInt64.size
      ∨ (resultState (machine.runCycles budget)).cycles < cycleLimit) :
  Agree Eq (Alike Bus.Same lead) (machine.runCycles budget) (other.runCycles budget)
  := by
  obtain ⟨goal, hgoal, hle, hends⟩ := h.exists_goal hroom
  have hagree := h.runTo_same goal 0
  rw [runCycles_eq, runCycles_eq, runTo_trans hle, hgoal]
  rw [resultState_runCycles, hgoal] at hends
  cases hrun : Machine.runTo (goal + lead) machine 0 with
  | error e after =>
    rw [hrun] at hagree
    generalize Machine.runTo goal other 0 = result at hagree
    cases hagree with
    | error _ states => exact .error e states
  | ok steps after =>
    rw [hrun] at hagree hends
    generalize Machine.runTo goal other 0 = result at hagree
    cases hagree with
    | ok values states =>
      cases values
      obtain ⟨hstop, hreason⟩ := states.ends (runTo_ok_stopped hrun).1 hle hends
      simp only
      rw [runTo_stopped steps hstop, hreason, states.cycles, h.cycles, Nat.add_sub_add_right]
      exact .ok rfl states

end Same

/-! ### Sessions -/

theorem ofResult_eq {α : Type} {result result' : EStateM.Result MachineError Machine α}
    (h : Agree Eq (Alike R lead) result result') (value : α → Reply) :
  Reply.ofResult value result = .ofResult value result'
  := by
  cases h with
  | ok values states =>
    cases values
    rfl
  | error => rfl

/-- An operation of a session has the same reply, and leaves the machines alike. -/
theorem perform (h : Alike Bus.Same lead machine other) {operation : Operation}
    (hsession : operation.inSession = true)
    (hroom : ∀ budget, operation = .runCycles budget →
      machine.cycles + budget < UInt64.size ∨ (machine.perform operation).cycles < cycleLimit) :
  machine.reply operation = other.reply operation
    ∧ machine.runLength? operation = other.runLength? operation
    ∧ Alike Bus.Same lead (machine.perform operation) (other.perform operation)
  := by
  cases operation with
  | step => exact ⟨ofResult_eq h.step_same _, rfl, h.step_same.states⟩
  | stepCore index =>
    have hagree := h.stepCore_same index
    exact ⟨ofResult_eq hagree _, rfl, hagree.states⟩
  | runCycles budget =>
    have hagree := h.runCycles_same (hroom budget rfl)
    have hlength : machine.runLength? (.runCycles budget)
        = other.runLength? (.runCycles budget) := by
      simp only [runLength?]
      generalize machine.runCycles budget = result at hagree ⊢
      generalize other.runCycles budget = result' at hagree ⊢
      cases hagree with
      | ok values => rw [values]
      | error => rfl
    exact ⟨ofResult_eq hagree _, hlength, hagree.states⟩
  | resume => exact ⟨rfl, rfl, h.resume⟩
  | launch index pc sp =>
    have houtcomes := h.launch index pc sp
    exact ⟨houtcomes.reply, rfl, houtcomes.orElse h⟩
  | setRegister index register value =>
    have houtcomes := h.setRegister index register value
    exact ⟨houtcomes.reply, rfl, houtcomes.orElse h⟩
  | getRegister index register =>
    have hreply : machine.reply (.getRegister index register)
        = other.reply (.getRegister index register) := by
      simp only [reply, getRegister, h.slot]
    exact ⟨hreply, rfl, h⟩
  | _ => cases hsession

theorem replies (h : Alike Bus.Same lead machine other) {session : List Operation}
    (hsession : ∀ operation ∈ session, operation.inSession = true)
    (hroom : machine.HasRoom session) :
  machine.replies session = other.replies session
  := by
  induction session generalizing machine other with
  | nil => rfl
  | cons operation rest ih =>
    obtain ⟨hreply, hlength, hafter⟩ :=
      h.perform (hsession operation List.mem_cons_self) hroom.1
    have hrest := ih hafter (fun operation hmem =>
      hsession operation (List.mem_cons_of_mem _ hmem)) hroom.2
    rw [Machine.replies, Machine.replies, hreply, hlength, hrest]

end Alike

end Machine

end ThumbSoc
