import ThumbSoc.Machine.Run
import ThumbSoc.Proofs.Machine.Stepped

/-!
# The turns of a run

A run is a finite sequence of successful turns, followed by a machine whose run is over or
whose next turn fails. The relation `Turns` lists the machines at the beginning of the turns,
and `runTo_turns` says that every run is of this form. What a single turn keeps is kept by the
run, by induction on the list.
-/

namespace ThumbSoc.Machine

/-! ### Turns -/

/-- Successful turns of a run towards `goal`, by the machines that take them. -/
inductive Turns (goal : Nat) : Machine → List Machine → Machine → Prop where
  | nil (machine : Machine) : Turns goal machine [] machine
  | cons {machine after last : Machine} {outcome : StepOutcome} {path : List Machine}
      (goes : machine.stopped goal = false)
      (turn : machine.step = .ok outcome after)
      (rest : Turns goal after path last) :
      Turns goal machine (machine :: path) last

/-- A turn is a step of the core at the cursor, which has passed on by then. -/
theorem step_stepped (machine : Machine) :
  machine.advance.Stepped machine.cursor machine.step
  := machine.advance.stepCore_stepped machine.cursor

theorem runTo_stopped {goal : Nat} {machine : Machine} (steps : Nat)
    (h : machine.stopped goal = true) :
  runTo goal machine steps = .ok steps machine
  := by rw [runTo, dif_pos h]

theorem runTo_error {goal : Nat} {machine after : Machine} {e : MachineError} (steps : Nat)
    (hgoes : machine.stopped goal = false) (h : machine.step = .error e after) :
  runTo goal machine steps = .error e after
  := by
  rw [runTo, dif_neg (Bool.eq_false_iff.mp hgoes)]
  split
  · next h' =>
    rw [h] at h'
    cases h'
    rfl
  · next h' =>
    rw [h] at h'
    cases h'

theorem runTo_ok {goal : Nat} {machine after : Machine} {outcome : StepOutcome} (steps : Nat)
    (hgoes : machine.stopped goal = false) (h : machine.step = .ok outcome after) :
  runTo goal machine steps = runTo goal after (steps + 1)
  := by
  rw [runTo, dif_neg (Bool.eq_false_iff.mp hgoes)]
  split
  · next h' =>
    rw [h] at h'
    cases h'
  · next h' =>
    rw [h] at h'
    cases h'
    rfl

/-- Every run consists of finitely many turns. It succeeds when it is over, and fails with the
first turn that does. -/
theorem runTo_turns (goal : Nat) (machine : Machine) (steps : Nat) :
  ∃ path last, Turns goal machine path last
    ∧ ((last.stopped goal = true ∧ runTo goal machine steps = .ok (steps + path.length) last)
      ∨ ∃ e after, last.stopped goal = false ∧ last.step = .error e after
        ∧ runTo goal machine steps = .error e after)
  := by
  induction machine, steps using runTo.induct goal with
  | case1 machine steps hstop =>
    use [], machine, .nil machine
    left
    apply And.intro hstop (runTo_stopped steps hstop)
  | case2 machine steps hgoes e after hfails =>
    have hgoes : machine.stopped goal = false := Bool.eq_false_iff.mpr hgoes
    use [], machine, .nil machine
    right
    use e, after, hgoes, hfails, runTo_error steps hgoes hfails
  | case3 machine steps hgoes outcome after hturn ih =>
    have hgoes : machine.stopped goal = false := Bool.eq_false_iff.mpr hgoes
    obtain ⟨path, last, hturns, hend⟩ := ih
    use machine :: path, last, .cons hgoes hturn hturns
    rw [runTo_ok steps hgoes hturn, List.length_cons, Nat.add_comm path.length, ← Nat.add_assoc]
    apply hend

/-! ### What turns keep -/

section Keep

variable {machine after : Machine} {outcome : StepOutcome} {index : Nat}

theorem Stepped.slots_size (h : machine.Stepped index (.ok outcome after)) :
  after.slots.size = machine.slots.size
  := by
  cases h with
  | idle => rw [haltIfIdle_slots]
  | settled => rw [haltIfIdle_slots]; apply Array.size_modify
  | parked => rw [haltIfIdle_slots]; apply Array.size_modify

/-- A step takes one cycle or none. -/
theorem Stepped.cycles (h : machine.Stepped index (.ok outcome after)) :
  after.cycles = machine.cycles + outcome.takesCycle.toNat
  := by
  cases h with
  | idle => rw [haltIfIdle_cycles]; rfl
  | @settled slot core result => rw [haltIfIdle_cycles]; cases result <;> rfl
  | parked => rw [haltIfIdle_cycles]; rfl

/-- A turn leaves the number of cores alone, and takes one cycle or none. -/
theorem step_keeps (h : machine.step = .ok outcome after) :
  after.slots.size = machine.slots.size
    ∧ after.cycles = machine.cycles + outcome.takesCycle.toNat
  := by
  have hstepped := machine.step_stepped
  rw [h] at hstepped
  apply And.intro hstepped.slots_size hstepped.cycles

/-- Turns leave the number of cores alone, and the cycle counter does not fall. -/
theorem Turns.keeps {goal : Nat} {last : Machine} {path : List Machine}
    (h : Turns goal machine path last) :
  last.slots.size = machine.slots.size ∧ machine.cycles ≤ last.cycles
  := by
  induction h with
  | nil machine => apply And.intro rfl (Nat.le_refl _)
  | cons goes turn rest ih =>
    obtain ⟨hsize, hcycles⟩ := step_keeps turn
    rw [hsize, hcycles] at ih
    apply And.intro ih.1
    apply Nat.le_trans (Nat.le_add_right _ _) ih.2

/-- The cycle counter does not get past the goal. -/
theorem Turns.cycles_le {goal : Nat} {last : Machine} {path : List Machine}
    (h : Turns goal machine path last) (hle : machine.cycles ≤ goal) :
  last.cycles ≤ goal
  := by
  induction h with
  | nil machine => apply hle
  | @cons machine _ _ outcome _ goes turn rest ih =>
    apply ih
    obtain ⟨_, hlt⟩ := missing_of_not_stopped goes
    rw [(step_keeps turn).2]
    have hcycle := outcome.takesCycle.toNat_le
    omega

end Keep

end ThumbSoc.Machine
