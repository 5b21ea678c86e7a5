import Mathlib.Data.Int.CardIntervalMod
import ThumbSoc.Proofs.Machine.Request
import ThumbSoc.Proofs.Machine.Visited

/-!
# Round robin

The turns of a machine are the steps that it takes without being told which core to step, one
at a time or in runs. They go round the cores, whatever comes of each of them and whatever else
the host does in between, resets apart: the relation `Rounds` says what turns make of the
cursor, every operation has it, and it composes.

A window of turns is then a window of numbers modulo the number of cores, in which no core comes
up more than once more often than another.
-/

namespace ThumbSoc

/-- The core that the outcome of a step is about. -/
def StepOutcome.core : StepOutcome → Nat
  | executed core .. | skipped core .. | breakpoint core _ | idle core _ | parked core _ => core

theorem CoreStep.outcome_core (index : Nat) (pc : Word) (result : CoreStep) :
  (result.outcome index pc).core = index
  := by cases result <;> rfl

namespace Machine

/-- The core that a step reports on, in its outcome or in its error. -/
def reportedCore : EStateM.Result MachineError Machine StepOutcome → Option Nat
  | .ok outcome _ => some outcome.core
  | .error (.fault core _) _ => some core
  | .error .. => none

/-- A step of a core that exists reports on that core. -/
theorem Stepped.reports {machine : Machine} {index : Nat}
    {result : EStateM.Result MachineError Machine StepOutcome}
    (h : machine.Stepped index result) (hindex : index < machine.slots.size) :
  reportedCore result = some index
  := by
  cases h with
  | noCore absent =>
    rw [Array.getElem?_eq_none_iff] at absent
    omega
  | @settled _ core step => exact congrArg some (step.outcome_core index core.pc)
  | idle | parked | halted => rfl

/-! ### Turns -/

/-- The turns that an operation takes, also when it fails. -/
def turnsOf (machine : Machine) : Operation → List Visit
  | .step => [machine.turn]
  | .runCycles budget => visitsTo (min (machine.cycles + budget) cycleLimit) machine
  | .runUntilHalt => visitsTo cycleLimit machine
  | _ => []

/-- The turns that operations take, one operation after the other. -/
def schedule (machine : Machine) : List Operation → List Visit
  | [] => []
  | operation :: rest => machine.turnsOf operation ++ (machine.perform operation).schedule rest

/-- Turns are among the moments of an operation. -/
theorem turnsOf_sublist (machine : Machine) (operation : Operation) :
  ((machine.turnsOf operation).map Moment.visit).Sublist (machine.moments operation)
  := by
  cases operation with
  | step | runCycles | runUntilHalt => apply List.Sublist.refl
  | _ => apply List.nil_sublist

/-- The schedule is part of the history. -/
theorem schedule_sublist (machine : Machine) (operations : List Operation) :
  ((machine.schedule operations).map Moment.visit).Sublist (machine.history operations)
  := by
  induction operations generalizing machine with
  | nil => apply List.Sublist.refl
  | cons operation rest ih =>
    rw [schedule, history, List.map_append]
    apply (machine.turnsOf_sublist operation).append (ih (machine.perform operation))

/-- The steps that a successful run reports are its turns. -/
theorem runTo_steps (goal : Nat) (machine : Machine) (steps : Nat) {count : Nat} {after : Machine}
    (h : runTo goal machine steps = .ok count after) :
  count = steps + (visitsTo goal machine).length
  := by
  induction machine, steps using runTo.induct goal with
  | case1 machine steps hstop =>
    rw [runTo_stopped steps hstop] at h
    cases h
    rw [visitsTo_stopped hstop]
    rfl
  | case2 machine steps hgoes e after hfails =>
    have hgoes : machine.stopped goal = false := Bool.eq_false_iff.mpr hgoes
    rw [runTo_error steps hgoes hfails] at h
    cases h
  | case3 machine steps hgoes outcome after hturn ih =>
    have hgoes : machine.stopped goal = false := Bool.eq_false_iff.mpr hgoes
    rw [runTo_ok steps hgoes hturn] at h
    rw [visitsTo_ok hgoes hturn, ih h, List.length_cons]
    omega

/-! ### Going round -/

/-- Turns that start at the cursor of one machine go round its cores and end at the cursor of
another one. -/
structure Rounds (machine : Machine) (turns : List Visit) (after : Machine) : Prop where
  size : after.slots.size = machine.slots.size
  cursor : after.cursor = (machine.cursor + turns.length) % machine.slots.size
  order : turns.map (·.index)
    = (List.range' machine.cursor turns.length).map (· % machine.slots.size)
  reports : ∀ visit ∈ turns, reportedCore visit.result = some visit.index

namespace Rounds

variable {machine mid after : Machine} {turns rest : List Visit}

/-- The cursor points to a core again. -/
theorem cursor_lt (h : machine.Rounds turns after) (hcursor : machine.cursor < machine.slots.size) :
  after.cursor < after.slots.size
  := by
  rw [h.size, h.cursor]
  apply Nat.mod_lt
  omega

/-- No turn is taken by what leaves the cursor and the number of cores alone. -/
theorem nil (hcursor : machine.cursor < machine.slots.size)
    (hsize : after.slots.size = machine.slots.size) (hkept : after.cursor = machine.cursor) :
  machine.Rounds [] after
  where
  size := hsize
  cursor := hkept.trans (Nat.mod_eq_of_lt hcursor).symm
  order := rfl
  reports := List.forall_mem_nil _

/-- A single turn, whatever comes of it. -/
theorem turn (hcursor : machine.cursor < machine.slots.size) :
  machine.Rounds [machine.turn] (resultState machine.step)
  where
  size := machine.step_stepped.size
  cursor := machine.step_stepped.frame.2.1
  order := congrArg (fun index => [index]) (Nat.mod_eq_of_lt hcursor).symm
  reports := List.forall_mem_singleton.mpr (machine.step_stepped.reports hcursor)

theorem append (h : machine.Rounds turns mid) (h' : mid.Rounds rest after) :
  machine.Rounds (turns ++ rest) after
  where
  size := h'.size.trans h.size
  cursor := by
    rw [h'.cursor, h.size, h.cursor, Nat.mod_add_mod, List.length_append, Nat.add_assoc]
  order := by
    -- The second turns start where the first ones end, up to whole rounds.
    have hshift : (List.range' mid.cursor rest.length).map (· % machine.slots.size)
        = (List.range' (machine.cursor + turns.length) rest.length).map
          (· % machine.slots.size) := by
      rw [List.range'_eq_map_range, List.range'_eq_map_range, List.map_map, List.map_map, h.cursor]
      apply List.map_congr_left
      intro k _
      apply Nat.mod_add_mod
    rw [List.map_append, h.order, h'.order, h.size, hshift, ← List.map_append, List.length_append,
      List.range'_append_1]
  reports := List.forall_mem_append.mpr ⟨h.reports, h'.reports⟩

end Rounds

variable {machine : Machine}

/-- A run goes round, also one that fails. -/
theorem runTo_rounds (goal steps : Nat) (hcursor : machine.cursor < machine.slots.size) :
  machine.Rounds (visitsTo goal machine) (resultState (runTo goal machine steps))
  := by
  induction machine, steps using runTo.induct goal with
  | case1 machine steps hstop =>
    rw [visitsTo_stopped hstop, runTo_stopped steps hstop]
    apply Rounds.nil hcursor rfl rfl
  | case2 machine steps hgoes e after hfails =>
    have hgoes : machine.stopped goal = false := Bool.eq_false_iff.mpr hgoes
    have hturn := Rounds.turn hcursor
    rw [hfails] at hturn
    rw [visitsTo_error hgoes hfails, runTo_error steps hgoes hfails]
    apply hturn
  | case3 machine steps hgoes outcome after hturn ih =>
    have hgoes : machine.stopped goal = false := Bool.eq_false_iff.mpr hgoes
    have hfirst := Rounds.turn hcursor
    rw [hturn] at hfirst
    rw [visitsTo_ok hgoes hturn, runTo_ok steps hgoes hturn]
    apply hfirst.append (ih (hfirst.cursor_lt hcursor))

/-- A request that takes no turn leaves the cursor alone. -/
theorem request_rounds {operation : Operation} (hidle : operation.stepsCores = false)
    (hreset : operation ≠ .reset) (hcursor : machine.cursor < machine.slots.size) :
  machine.Rounds [] (machine.perform operation)
  := by
  by_cases hresume : operation = .resume
  · subst hresume
    have hsize : (machine.perform .resume).slots.size = machine.slots.size := Array.size_map
    apply Rounds.nil hcursor hsize rfl
  · have hrequested := machine.perform_requested hidle hresume hreset
    generalize machine.perform operation = after at hrequested ⊢
    cases hrequested with
    | shared => exact .nil hcursor rfl rfl
    | core => exact .nil hcursor Array.size_modify rfl

/-- Every operation but a reset goes round with the turns that it takes. -/
theorem perform_rounds {operation : Operation} (hreset : operation ≠ .reset)
    (hcursor : machine.cursor < machine.slots.size) :
  machine.Rounds (machine.turnsOf operation) (machine.perform operation)
  := by
  cases operation with
  | reset => cases hreset rfl
  | step => apply Rounds.turn hcursor
  | stepCore index =>
    have hstepped := machine.stepCore_stepped index
    apply Rounds.nil hcursor hstepped.size hstepped.frame.2.1
  | runCycles budget =>
    rw [perform, resultState_runCycles]
    apply runTo_rounds _ 0 hcursor
  | runUntilHalt =>
    rw [perform, resultState_runUntilHalt]
    apply runTo_rounds _ 0 hcursor
  | _ => apply request_rounds rfl hreset hcursor

theorem performAll_rounds {operations : List Operation} (hreset : .reset ∉ operations)
    (hcursor : machine.cursor < machine.slots.size) :
  machine.Rounds (machine.schedule operations) (machine.performAll operations)
  := by
  induction operations generalizing machine with
  | nil => apply Rounds.nil hcursor rfl rfl
  | cons operation rest ih =>
    obtain ⟨hfirst, hrest⟩ := not_or.mp (List.mem_cons.not.mp hreset)
    have hrounds := machine.perform_rounds (Ne.symm hfirst) hcursor
    apply hrounds.append (ih hrest (hrounds.cursor_lt hcursor))

/-! ### Windows -/

section Window

variable {count a b : Nat}

/-- Among the numbers below `stop`, a remainder comes up once in each whole round, and once more
if it lies in the part of a round that is left. -/
theorem count_remainder (ha : a < count) (stop : Nat) :
  Nat.count (· % count = a) stop = stop / count + if a < stop % count then 1 else 0
  := by
  have hcount := Nat.count_modEq_card stop (Nat.zero_lt_of_lt ha) a
  simpa only [Nat.ModEq, Nat.mod_eq_of_lt ha] using hcount

theorem countP_window (count a first length : Nat) :
  Nat.count (· % count = a) (first + length)
    = Nat.count (· % count = a) first + (List.range' first length).countP (· % count == a)
  := by
  rw [Nat.count, List.range_add, List.countP_append, ← List.range'_eq_map_range]
  rfl

/-- In a window of numbers, no remainder comes up more than once more often than another. -/
theorem countP_window_le (ha : a < count) (hb : b < count) (first length : Nat) :
  (List.range' first length).countP (· % count == a)
    ≤ (List.range' first length).countP (· % count == b) + 1
  := by
  have hcounta := countP_window count a first length
  have hcountb := countP_window count b first length
  rw [count_remainder ha, count_remainder ha] at hcounta
  rw [count_remainder hb, count_remainder hb] at hcountb
  split at hcounta <;> split at hcounta <;> split at hcountb <;> split at hcountb <;> omega

end Window

/-- The number of visits to core `index` among `length` turns from turn `first` on. -/
def visitsIn (turns : List Visit) (first length index : Nat) : Nat :=
  ((turns.drop first).take length).countP (·.index == index)

namespace Rounds

variable {after : Machine} {turns : List Visit}

theorem index (h : machine.Rounds turns after) {k : Nat} {visit : Visit}
    (hvisit : turns[k]? = some visit) :
  visit.index = (machine.cursor + k) % machine.slots.size
  := by
  obtain ⟨hk, _⟩ := List.getElem?_eq_some_iff.mp hvisit
  have hindex : (turns.map (·.index))[k]? = some visit.index := by
    rw [List.getElem?_map, hvisit, Option.map_some]
  rw [h.order, List.getElem?_map, List.getElem?_range' hk, Option.map_some, Nat.one_mul] at hindex
  exact (Option.some.inj hindex).symm

/-- A window of turns is a window of numbers. -/
theorem visitsIn_eq (h : machine.Rounds turns after) (first length index : Nat) :
  visitsIn turns first length index
    = (List.range' (machine.cursor + first) (min length (turns.length - first))).countP
      (· % machine.slots.size == index)
  := by
  have hindices : visitsIn turns first length index
      = (((turns.map (·.index)).drop first).take length).countP (· == index) := by
    rw [← List.map_drop, ← List.map_take, List.countP_map]
    rfl
  rw [hindices, h.order, ← List.map_drop, ← List.map_take, List.countP_map, List.drop_range',
    Nat.mul_one, List.range'_eq_map_range, ← List.map_take, List.take_range,
    ← List.range'_eq_map_range]
  rfl

end Rounds

/-- **Round robin is never disturbed.** Let the cursor of a machine point to one of its cores. In
whatever way turns, taken one by one or in runs, are mixed with other operations, resets apart,
turn `k` visits the core that is `k` places after the cursor, going round, and what comes of the
turn, an outcome or an error, reports on that core. In any window of turns, no core is visited
more than once more often than another. -/
theorem schedule_roundRobin (machine : Machine) (hcursor : machine.cursor < machine.slots.size)
    (operations : List Operation) (hreset : .reset ∉ operations) :
  (∀ k visit, (machine.schedule operations)[k]? = some visit →
      visit.index = (machine.cursor + k) % machine.slots.size
      ∧ reportedCore visit.result = some visit.index)
    ∧ ∀ first length, ∀ a < machine.slots.size, ∀ b < machine.slots.size,
      visitsIn (machine.schedule operations) first length a
        ≤ visitsIn (machine.schedule operations) first length b + 1
  := by
  have hrounds := performAll_rounds hreset hcursor
  constructor
  · intro k visit hvisit
    use hrounds.index hvisit
    apply hrounds.reports visit (List.mem_of_getElem? hvisit)
  · intro first length a ha b hb
    rw [hrounds.visitsIn_eq, hrounds.visitsIn_eq]
    apply countP_window_le ha hb

/-- Three cores that stand where there is no memory, so that every step of a core fails. -/
def lost : Machine :=
  fresh { coreCount := 3, sramSize := 4, dormantSecondaries := false }

/-- Failing turns, also within runs, and other operations in between. -/
def lostSession : List Operation :=
  [.step, .stepCore 0, .resume, .runCycles 2, .halt, .wake 1, .launch 2 sramBase sramBase, .step,
    .setRegister 0 0 7, .resume, .runUntilHalt, .addBreakpoint sramBase, .step]

theorem lost_roundRobin :
  lost.cursor < lost.slots.size ∧ .reset ∉ lostSession
    ∧ (∀ k visit, (lost.schedule lostSession)[k]? = some visit →
      visit.index = (lost.cursor + k) % lost.slots.size
      ∧ reportedCore visit.result = some visit.index)
    ∧ ∀ first length, ∀ a < lost.slots.size, ∀ b < lost.slots.size,
      visitsIn (lost.schedule lostSession) first length a
        ≤ visitsIn (lost.schedule lostSession) first length b + 1
  := by
  have hcursor : lost.cursor < lost.slots.size := by decide +kernel
  have hreset : .reset ∉ lostSession := by simp [lostSession]
  use hcursor, hreset
  apply schedule_roundRobin lost hcursor lostSession hreset

end Machine

end ThumbSoc
