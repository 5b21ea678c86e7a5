import ThumbSoc.Proofs.Machine.Operation
import ThumbSoc.Proofs.Machine.Turns

/-!
# Histories

The life of a machine, moment by moment. A moment is a visit, in which one core is stepped, or
a request of the host that steps none. An operation is made of moments: a run is the list of
its visits, and any other operation is a single moment.

`performAll_course` says that the moments of a sequence of operations do lead from the first
machine to the last one, each from where the one before it ended. What single moments keep is
then known at every moment of every history.
-/

namespace ThumbSoc

/-- A step of one core of a machine. -/
structure Visit where
  machine : Machine
  index : Nat

namespace Visit

/-- The slot of the visited core. -/
def slot? (visit : Visit) : Option Slot :=
  visit.machine.slots[visit.index]?

/-- What comes of the step. -/
def result (visit : Visit) : EStateM.Result MachineError Machine StepOutcome :=
  visit.machine.stepCore visit.index

/-- Whether the visited core executes on its turn. -/
def runs (visit : Visit) : Bool :=
  visit.slot?.any (·.state.isRunning)

end Visit

/-- What happens to a machine at one time. -/
inductive Moment where
  | visit (visit : Visit)
  /-- An operation that steps no core is performed on a machine. -/
  | request (machine : Machine) (operation : Operation)

/-- Whether an operation steps cores. -/
def Operation.stepsCores : Operation → Bool
  | .step | .stepCore _ | .runCycles _ | .runUntilHalt => true
  | _ => false

namespace Machine

/-! ### New machines -/

/-- The machine that a configuration without a defect asks for. -/
def fresh (config : Config) : Machine where
  config
  slots := (Array.range config.coreCount).map fun index =>
    ⟨freshCore config, initialState config index, none⟩
  bus := .initial config.sramSize
  breakpoints := .empty
  cycles := 0
  halted := false
  breakpointHit := false
  cursor := 0
  recorder := none

theorem create_eq (config : Config) :
  create config = config.check.map fun _ => fresh config
  := by
  rw [create]
  cases config.check with
  | error e => rfl
  | ok _ => rfl

theorem eq_fresh {config : Config} {machine : Machine} (h : create config = .ok machine) :
  machine = fresh config
  := by
  rw [create_eq] at h
  cases hcheck : config.check with
  | error e =>
    rw [hcheck] at h
    cases h
  | ok _ =>
    rw [hcheck] at h
    cases h
    rfl

theorem fresh_slot (config : Config) {index : Nat} (h : index < config.coreCount) :
  (fresh config).slots[index]? = some ⟨freshCore config, initialState config index, none⟩
  := by simp [fresh, h]

theorem fresh_size (config : Config) :
  (fresh config).slots.size = config.coreCount
  := by rw [fresh, Array.size_map, Array.size_range]

/-! ### Moments of operations -/

/-- The visit in which a machine takes its turn. -/
def turn (machine : Machine) : Visit :=
  ⟨machine.advance, machine.cursor⟩

/-- The visits of a run towards `goal`. -/
def visitsTo (goal : Nat) (machine : Machine) : List Visit :=
  if _hstop : machine.stopped goal then []
  else
    match _hturn : machine.step with
    | .error _ _ => [machine.turn]
    | .ok _ after => machine.turn :: visitsTo goal after
termination_by machine.progress goal
decreasing_by exact step_falls (by simpa using _hstop) _hturn

/-- The moments that an operation consists of. -/
def moments (machine : Machine) : Operation → List Moment
  | .step => [.visit machine.turn]
  | .stepCore index => [.visit ⟨machine, index⟩]
  | .runCycles budget =>
    (visitsTo (min (machine.cycles + budget) cycleLimit) machine).map .visit
  | .runUntilHalt => (visitsTo cycleLimit machine).map .visit
  | operation => [.request machine operation]

/-- The moments of operations that are performed one after the other. -/
def history (machine : Machine) : List Operation → List Moment
  | [] => []
  | operation :: rest => machine.moments operation ++ (machine.perform operation).history rest

/-! ### Courses -/

/-- A moment leads from one machine to another. -/
inductive Leads : Machine → Moment → Machine → Prop where
  | visit (machine : Machine) (index : Nat) :
      Leads machine (.visit ⟨machine, index⟩) (resultState (machine.stepCore index))
  | turn (machine : Machine) :
      Leads machine (.visit machine.turn) (resultState machine.step)
  | request (machine : Machine) {operation : Operation} (idle : operation.stepsCores = false) :
      Leads machine (.request machine operation) (machine.perform operation)

/-- Moments lead from one machine to another, one after the other. -/
inductive Course : Machine → List Moment → Machine → Prop where
  | nil (machine : Machine) : Course machine [] machine
  | cons {machine after last : Machine} {moment : Moment} {rest : List Moment}
      (first : Leads machine moment after)
      (others : Course after rest last) :
      Course machine (moment :: rest) last

theorem Course.append {machine mid last : Machine} {first second : List Moment}
    (h : Course machine first mid) (h' : Course mid second last) :
  Course machine (first ++ second) last
  := by
  induction h with
  | nil => apply h'
  | cons leads others ih => apply Course.cons leads (ih h')

theorem Leads.course {machine after : Machine} {moment : Moment} (h : Leads machine moment after) :
  Course machine [moment] after
  := .cons h (.nil after)

theorem visitsTo_stopped {goal : Nat} {machine : Machine} (h : machine.stopped goal = true) :
  visitsTo goal machine = []
  := by rw [visitsTo, dif_pos h]

theorem visitsTo_error {goal : Nat} {machine after : Machine} {e : MachineError}
    (hgoes : machine.stopped goal = false) (h : machine.step = .error e after) :
  visitsTo goal machine = [machine.turn]
  := by
  rw [visitsTo, dif_neg (Bool.eq_false_iff.mp hgoes)]
  split
  · rfl
  · next h' =>
    rw [h] at h'
    cases h'

theorem visitsTo_ok {goal : Nat} {machine after : Machine} {outcome : StepOutcome}
    (hgoes : machine.stopped goal = false) (h : machine.step = .ok outcome after) :
  visitsTo goal machine = machine.turn :: visitsTo goal after
  := by
  rw [visitsTo, dif_neg (Bool.eq_false_iff.mp hgoes)]
  split
  · next h' =>
    rw [h] at h'
    cases h'
  · next h' =>
    rw [h] at h'
    cases h'
    rfl

/-- The visits of a run lead to where the run ends. -/
theorem runTo_course (goal : Nat) (machine : Machine) (steps : Nat) :
  Course machine ((visitsTo goal machine).map .visit) (resultState (runTo goal machine steps))
  := by
  induction machine, steps using runTo.induct goal with
  | case1 machine steps hstop =>
    rw [visitsTo_stopped hstop, runTo_stopped steps hstop]
    apply Course.nil
  | case2 machine steps hgoes e after hfails =>
    have hgoes : machine.stopped goal = false := Bool.eq_false_iff.mpr hgoes
    have hleads := Leads.turn machine
    rw [hfails] at hleads
    rw [visitsTo_error hgoes hfails, runTo_error steps hgoes hfails]
    apply hleads.course
  | case3 machine steps hgoes outcome after hturn ih =>
    have hgoes : machine.stopped goal = false := Bool.eq_false_iff.mpr hgoes
    have hleads := Leads.turn machine
    rw [hturn] at hleads
    rw [visitsTo_ok hgoes hturn, runTo_ok steps hgoes hturn]
    apply Course.cons hleads ih

theorem resultState_runCycles (machine : Machine) (budget : Nat) :
  resultState (machine.runCycles budget)
    = resultState (runTo (min (machine.cycles + budget) cycleLimit) machine 0)
  := by
  rw [runCycles]
  simp only
  split
  · next h => rw [h]; rfl
  · next h => rw [h]; rfl

theorem resultState_runUntilHalt (machine : Machine) :
  resultState machine.runUntilHalt = resultState (runTo cycleLimit machine 0)
  := by
  rw [runUntilHalt]
  split
  · next h => rw [h]; rfl
  · next h => rw [h]; rfl

/-- The moments of an operation lead to the machine after it. -/
theorem perform_course (machine : Machine) (operation : Operation) :
  Course machine (machine.moments operation) (machine.perform operation)
  := by
  cases operation with
  | step => apply (Leads.turn machine).course
  | stepCore index => apply (Leads.visit machine index).course
  | runCycles budget =>
    rw [perform, resultState_runCycles]
    apply runTo_course
  | runUntilHalt =>
    rw [perform, resultState_runUntilHalt]
    apply runTo_course
  | _ => apply (Leads.request machine rfl).course

/-- The moments of a history lead to the machine after its operations. -/
theorem performAll_course (machine : Machine) (operations : List Operation) :
  Course machine (machine.history operations) (machine.performAll operations)
  := by
  induction operations generalizing machine with
  | nil => apply Course.nil
  | cons operation rest ih =>
    apply (machine.perform_course operation).append
    apply ih

theorem Course.of_append {machine last : Machine} {first second : List Moment}
    (h : Course machine (first ++ second) last) :
  ∃ mid, Course machine first mid ∧ Course mid second last
  := by
  induction first generalizing machine with
  | nil => use machine, .nil machine, h
  | cons moment rest ih =>
    cases h with
    | cons leads others =>
      obtain ⟨mid, hfirst, hsecond⟩ := ih others
      use mid, .cons leads hfirst, hsecond

section Keep

variable {P : List Moment → Machine → Prop} {machine last : Machine} {moments past : List Moment}
  (hkeeps : ∀ {past machine moment after}, Leads machine moment after → P past machine →
    P (past ++ [moment]) after)

include hkeeps

/-- What every moment keeps, of the machine and of the moments that led to it, is kept by a
course. -/
theorem Course.keeps (h : Course machine moments last) (hstart : P past machine) :
  P (past ++ moments) last
  := by
  induction h generalizing past with
  | nil =>
    rw [List.append_nil]
    apply hstart
  | cons leads others ih =>
    have hlast := ih (hkeeps leads hstart)
    rw [List.append_assoc] at hlast
    apply hlast

/-- It holds at every moment of the course. -/
theorem Course.along (h : Course machine moments last) (hstart : P past machine)
    {before later : List Moment} {moment : Moment} (hsplit : moments = before ++ moment :: later) :
  ∃ current after, P (past ++ before) current ∧ Leads current moment after
  := by
  rw [hsplit] at h
  obtain ⟨current, hbefore, hrest⟩ := h.of_append
  cases hrest with
  | @cons _ after _ _ _ leads others => use current, after, hbefore.keeps hkeeps hstart

end Keep

/-- A visit that leads from a machine steps a core of that machine, up to the cursor. -/
theorem Leads.stepped {machine after : Machine} {visit : Visit}
    (h : Leads machine (.visit visit) after) :
  (∃ cursor, visit.machine = { machine with cursor })
    ∧ visit.machine.Stepped visit.index visit.result ∧ after = resultState visit.result
  := by
  cases h with
  | visit index =>
    constructor
    · use machine.cursor
    · use machine.stepCore_stepped index
      rfl
  | turn =>
    constructor
    · use machine.advance.cursor
      rfl
    · use machine.step_stepped
      rfl

end Machine

end ThumbSoc
