import ThumbSoc.Proofs.Machine.Turns

/-!
# Budgets

A run can be interrupted and taken up again. A run towards a goal is a run towards an earlier
goal, followed by a run from where that one ended; if the first one fails, so does the whole
run. The budgets of runs that follow each other add up in the same way, and so do the steps and
the cycles that the runs report.
-/

namespace ThumbSoc

/-- The outcome of two runs that follow each other: their steps and cycles add up, and the
second one says why it ended. -/
def RunOutcome.andThen (first second : RunOutcome) : RunOutcome :=
  ⟨first.steps + second.steps, first.cycles + second.cycles, second.reason⟩

namespace Machine

variable {machine : Machine} {goal goal' : Nat}

/-! ### Runs that are over -/

/-- A run that is over for a goal is over for every earlier one. -/
theorem stopped_mono (hle : goal ≤ goal') (h : machine.stopped goal' = true) :
  machine.stopped goal = true
  := by
  simp only [stopped, Bool.or_eq_true, decide_eq_true_eq] at h ⊢
  rcases h with (hreached | hhalted) | hhit
  · left
    left
    apply Nat.le_trans hle hreached
  · left
    right
    apply hhalted
  · right
    apply hhit

theorem going_mono (hle : goal ≤ goal') (h : ¬ machine.stopped goal = true) :
  machine.stopped goal' = false
  := Bool.eq_false_iff.mpr fun hstop => h (stopped_mono hle hstop)

/-- A run that ends before its goal was halted or stopped at a breakpoint, and is over for every
other goal as well. -/
theorem stopped_of_lt (hstop : machine.stopped goal = true) (hbefore : machine.cycles < goal)
    (goal' : Nat) :
  machine.stopped goal' = true
  := by
  have hnot : ¬ goal ≤ machine.cycles := Nat.not_le_of_lt hbefore
  simp only [stopped, hnot, decide_false, Bool.false_or] at hstop
  rw [stopped, Bool.or_assoc, hstop, Bool.or_true]

/-- Why a run towards a goal ended where it did. -/
def endReason (machine : Machine) (goal : Nat) : StopReason :=
  if goal ≤ machine.cycles then .cycleBudget else machine.stopReason

theorem endReason_of_lt (h : machine.cycles < goal) :
  machine.endReason goal = machine.stopReason
  := if_neg (Nat.not_le_of_lt h)

/-! ### Runs towards a goal -/

/-- The steps that were taken before a run only add to its count. -/
theorem runTo_add (goal : Nat) (machine : Machine) (steps taken : Nat) :
  runTo goal machine (taken + steps) =
    match runTo goal machine steps with
    | .ok count after => .ok (taken + count) after
    | .error e after => .error e after
  := by
  induction machine, steps using runTo.induct goal with
  | case1 machine steps hstop =>
    rw [runTo_stopped _ hstop, runTo_stopped steps hstop]
  | case2 machine steps hgoes e after hfails =>
    have hgoes : machine.stopped goal = false := Bool.eq_false_iff.mpr hgoes
    rw [runTo_error _ hgoes hfails, runTo_error steps hgoes hfails]
  | case3 machine steps hgoes outcome after hturn ih =>
    have hgoes : machine.stopped goal = false := Bool.eq_false_iff.mpr hgoes
    rw [runTo_ok _ hgoes hturn, runTo_ok steps hgoes hturn, Nat.add_assoc]
    apply ih

/-- A run can be interrupted at an earlier goal. -/
theorem runTo_trans (hle : goal ≤ goal') (machine : Machine) (steps : Nat) :
  runTo goal' machine steps =
    match runTo goal machine steps with
    | .ok count mid => runTo goal' mid count
    | .error e after => .error e after
  := by
  induction machine, steps using runTo.induct goal with
  | case1 machine steps hstop => rw [runTo_stopped steps hstop]
  | case2 machine steps hgoes e after hfails =>
    rw [runTo_error steps (going_mono hle hgoes) hfails,
      runTo_error steps (Bool.eq_false_iff.mpr hgoes) hfails]
  | case3 machine steps hgoes outcome after hturn ih =>
    rw [runTo_ok steps (going_mono hle hgoes) hturn,
      runTo_ok steps (Bool.eq_false_iff.mpr hgoes) hturn]
    apply ih

/-- A successful run leaves a machine whose run is over, and which is not past the goal unless
it was before. -/
theorem runTo_ok_stopped {after : Machine} {steps count : Nat}
    (h : runTo goal machine steps = .ok count after) :
  after.stopped goal = true ∧ machine.cycles ≤ after.cycles
    ∧ (machine.cycles ≤ goal → after.cycles ≤ goal)
  := by
  obtain ⟨path, last, hturns, ⟨hstop, hrun⟩ | ⟨e, failed, _, _, hrun⟩⟩ :=
    runTo_turns goal machine steps
  · rw [hrun] at h
    cases h
    use hstop, hturns.keeps.2, hturns.cycles_le
  · rw [hrun] at h
    cases h

/-! ### Runs for a budget -/

theorem runCycles_eq (machine : Machine) (budget : Nat) :
  machine.runCycles budget =
    match runTo (min (machine.cycles + budget) cycleLimit) machine 0 with
    | .ok steps after =>
      .ok ⟨steps, after.cycles - machine.cycles,
        after.endReason (min (machine.cycles + budget) cycleLimit)⟩ after
    | .error e after => .error e after
  := by
  rw [runCycles]
  cases runTo (min (machine.cycles + budget) cycleLimit) machine 0 with
  | ok steps after => rfl
  | error e after => rfl

/-- The goal of a run that the cycle counter has room for. -/
theorem goal_eq {budget : Nat} (hroom : machine.cycles + budget < UInt64.size) :
  min (machine.cycles + budget) cycleLimit = machine.cycles + budget
  := Nat.min_eq_left (Nat.le_pred_of_lt hroom)

/-- A machine that is halted or stopped at a breakpoint does not run. -/
theorem runCycles_stopped {budget : Nat} (hstop : ∀ goal, machine.stopped goal = true)
    (hpos : 0 < budget) (hroom : machine.cycles + budget < UInt64.size) :
  machine.runCycles budget = .ok ⟨0, 0, machine.stopReason⟩ machine
  := by
  rw [runCycles_eq, goal_eq hroom, runTo_stopped 0 (hstop _)]
  simp only [Nat.sub_self]
  rw [endReason_of_lt (Nat.lt_add_of_pos_right hpos)]

/-- Budgets add up. A run for the sum of two budgets fails as the run for the first one does. If
that succeeds, a run for the second budget from where it ended ends in the same way, in the same
machine, and the steps and cycles of the two add up. -/
theorem runCycles_add (machine : Machine) (first second : Nat) (hpos : 0 < second)
    (hroom : machine.cycles + first + second < UInt64.size) :
  machine.runCycles (first + second) =
    match machine.runCycles first with
    | .error e after => .error e after
    | .ok outcome mid =>
      match mid.runCycles second with
      | .error e after => .error e after
      | .ok outcome' last => .ok (outcome.andThen outcome') last
  := by
  have hle : machine.cycles + first ≤ machine.cycles + (first + second) := by omega
  rw [runCycles_eq machine (first + second), runCycles_eq machine first, goal_eq (by omega),
    goal_eq (by omega), runTo_trans hle]
  cases hrun : runTo (machine.cycles + first) machine 0 with
  | error e after => rfl
  | ok steps mid =>
    obtain ⟨hstop, hlow, hhigh⟩ := runTo_ok_stopped hrun
    have hhigh := hhigh (Nat.le_add_right machine.cycles first)
    have hmid : mid.cycles + second < UInt64.size := by omega
    rcases Nat.lt_or_eq_of_le hhigh with hbefore | hreached
    · -- Halted or stopped at a breakpoint, neither run takes another turn.
      have hover := stopped_of_lt hstop hbefore
      simp only [runCycles_stopped hover hpos hmid, runTo_stopped steps (hover _)]
      rw [endReason_of_lt (by omega)]
      rfl
    · -- The goal of the second run is that of the whole run.
      have hgoal : mid.cycles + second = machine.cycles + (first + second) := by omega
      have hcount := runTo_add (machine.cycles + (first + second)) mid 0 steps
      have hsecond := runCycles_eq mid second
      rw [goal_eq hmid, hgoal] at hsecond
      rw [Nat.add_zero] at hcount
      simp only [hcount, hsecond]
      cases hrest : runTo (machine.cycles + (first + second)) mid 0 with
      | error e after => rfl
      | ok count last =>
        have hkeeps := (runTo_ok_stopped hrest).2.1
        have hcycles : mid.cycles - machine.cycles + (last.cycles - mid.cycles)
            = last.cycles - machine.cycles := by omega
        simp only [RunOutcome.andThen, hcycles]

/-- A machine with two cores, of which the first one branches to itself and the second one faults
on its first turn. -/
def uneven : Machine where
  config := { coreCount := 2, sramSize := 4, faultPolicy := .parkCore }
  slots := #[⟨.thumb ((ThumbCore.reset sramBase).setPc sramBase), .running, none⟩,
    ⟨.thumb (ThumbCore.reset sramBase), .running, none⟩]
  bus := { Bus.initial 4 with sram := ⟨#[0xFE, 0xE7, 0x00, 0x00]⟩ }
  breakpoints := .empty
  cycles := 0
  halted := false
  breakpointHit := false
  cursor := 0
  recorder := none

theorem uneven_runCycles_add :
  0 < 5 ∧ uneven.cycles + 3 + 5 < UInt64.size
    ∧ uneven.runCycles (3 + 5) =
      match uneven.runCycles 3 with
      | .error e after => .error e after
      | .ok outcome mid =>
        match mid.runCycles 5 with
        | .error e after => .error e after
        | .ok outcome' last => .ok (outcome.andThen outcome') last
  := by
  have hroom : uneven.cycles + 3 + 5 < UInt64.size := by decide
  use (by decide), hroom
  apply runCycles_add uneven 3 5 (by decide) hroom

end Machine

end ThumbSoc
