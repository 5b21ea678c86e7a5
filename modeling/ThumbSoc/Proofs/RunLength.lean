import ThumbSoc.Proofs.Machine.Turns

/-!
# The length of a run

A turn that takes no cycle brings the run closer to its end all the same: it passes over a
core that is not running, or takes a running core out of the schedule. The turns that a
machine can take without a cycle are bounded by its allowance, and a cycle adds at most one
round of turns to it. So a run of a machine with `n` cores that takes `c` cycles has at most
`n * (c + n)` turns, whatever program it runs.
-/

namespace ThumbSoc.Machine

/-! ### Running cores -/

/-- The number of cores that execute on their turn. -/
def runningCount (machine : Machine) : Nat :=
  machine.runningFlags.count true

theorem runningFlags_length (machine : Machine) :
  machine.runningFlags.length = machine.slots.size
  := by simp [runningFlags]

theorem runningCount_le (machine : Machine) :
  machine.runningCount ≤ machine.slots.size
  := by
  rw [← machine.runningFlags_length]
  apply List.count_le_length

theorem runningFlags_slot {machine : Machine} {index : Nat} {slot : Slot}
    (h : machine.slots[index]? = some slot) :
  machine.runningFlags[index]? = some slot.state.isRunning
  := by simp [runningFlags, h]

theorem anyRunning_iff (machine : Machine) :
  machine.anyRunning = true ↔ 0 < machine.runningCount
  := by
  rw [runningCount, List.count_pos_iff, anyRunning, ← Array.any_toList, List.any_eq_true]
  simp [runningFlags]

/-- Some running core is less than a round of turns away. -/
theorem waiting_lt {machine : Machine} (h : 0 < machine.runningCount) :
  machine.waiting < machine.slots.size
  := by
  have hmem : true ∈ machine.runningFlags := List.count_pos_iff.mp h
  have hrotated : true ∈ machine.runningFlags.drop machine.cursor
      ++ machine.runningFlags.take machine.cursor := by
    rw [← List.take_append_drop machine.cursor machine.runningFlags] at hmem
    rw [List.mem_append] at hmem ⊢
    apply hmem.symm
  have hlt := List.idxOf_lt_length_of_mem hrotated
  rw [List.length_append, List.length_drop, List.length_take, runningFlags_length] at hlt
  rw [waiting]
  omega

/-- A running core whose turn it is waits no longer. -/
theorem waiting_of_running {machine : Machine} {slot : Slot}
    (hslot : machine.slots[machine.cursor]? = some slot) (hruns : slot.state.isRunning = true) :
  machine.waiting = 0
  := by
  have hflag := runningFlags_slot hslot
  obtain ⟨hlt, hget⟩ := List.getElem?_eq_some_iff.mp hflag
  rw [hruns] at hget
  rw [waiting, List.drop_eq_getElem_cons hlt, hget]
  apply List.idxOf_cons_self

theorem runningCount_pos {machine : Machine} {index : Nat} {slot : Slot}
    (hslot : machine.slots[index]? = some slot) (hruns : slot.state.isRunning = true) :
  0 < machine.runningCount
  := by
  have hflag := runningFlags_slot hslot
  rw [hruns] at hflag
  apply List.count_pos_iff.mpr
  apply List.mem_of_getElem? hflag

/-! ### Allowances -/

/-- How many turns of a run towards `goal` can pass before the next cycle is taken. -/
def allowance (machine : Machine) (goal : Nat) : Nat :=
  if machine.stopped goal then 0
  else if machine.runningCount = 0 then min 1 machine.slots.size
  else machine.slots.size * (machine.runningCount - 1) + machine.waiting + 1

theorem allowance_of_stopped {machine : Machine} {goal : Nat}
    (h : machine.stopped goal = true) :
  machine.allowance goal = 0
  := if_pos h

theorem allowance_of_going {machine : Machine} {goal : Nat}
    (h : machine.stopped goal = false) :
  machine.allowance goal
    = if machine.runningCount = 0 then min 1 machine.slots.size
      else machine.slots.size * (machine.runningCount - 1) + machine.waiting + 1
  := if_neg (Bool.eq_false_iff.mp h)

/-- A machine that halts when it is idle is allowed at most a round of turns for each running
core. -/
theorem allowance_haltIfIdle_le (machine : Machine) (goal : Nat) :
  machine.haltIfIdle.allowance goal ≤ machine.slots.size * machine.runningCount
  := by
  rcases Nat.eq_zero_or_pos machine.runningCount with hnone | hsome
  · have hidle : machine.anyRunning = false := by
      apply Bool.eq_false_iff.mpr
      intro hany
      have hpos := machine.anyRunning_iff.mp hany
      omega
    have hstopped : machine.haltIfIdle.stopped goal = true := by
      rw [haltIfIdle_eq, hidle]
      simp [stopped]
    rw [allowance_of_stopped hstopped]
    apply Nat.zero_le
  · have hsame : machine.haltIfIdle = machine := if_pos (machine.anyRunning_iff.mpr hsome)
    rw [hsame, allowance]
    split
    · apply Nat.zero_le
    · rw [if_neg (Nat.pos_iff_ne_zero.mp hsome)]
      have hwaiting := waiting_lt hsome
      obtain ⟨others, hothers⟩ := Nat.exists_eq_succ_of_ne_zero (Nat.pos_iff_ne_zero.mp hsome)
      rw [hothers, Nat.succ_sub_one, Nat.mul_succ]
      omega

theorem allowance_le (machine : Machine) (goal : Nat) :
  machine.allowance goal ≤ machine.slots.size * machine.slots.size
  := by
  rw [allowance]
  split
  · apply Nat.zero_le
  · split
    · rcases Nat.eq_zero_or_pos machine.slots.size with hzero | hpos
      · rw [hzero]
        apply Nat.le_refl
      · apply Nat.le_trans (Nat.min_le_left _ _) (Nat.mul_pos hpos hpos)
    · next hsome =>
      have hwaiting := waiting_lt (Nat.pos_iff_ne_zero.mpr hsome)
      have hcount := Nat.mul_le_mul_left machine.slots.size machine.runningCount_le
      obtain ⟨others, hothers⟩ := Nat.exists_eq_succ_of_ne_zero hsome
      rw [hothers, Nat.mul_succ] at hcount
      rw [hothers, Nat.succ_sub_one]
      omega

/-- The allowance of a running core whose turn it is. -/
theorem allowance_of_running {machine : Machine} {goal : Nat} {slot : Slot}
    (hgoes : machine.stopped goal = false)
    (hslot : machine.slots[machine.cursor]? = some slot) (hruns : slot.state.isRunning = true) :
  machine.allowance goal + machine.slots.size = machine.slots.size * machine.runningCount + 1
  := by
  have hpos := runningCount_pos hslot hruns
  rw [allowance_of_going hgoes, if_neg (Nat.pos_iff_ne_zero.mp hpos),
    waiting_of_running hslot hruns]
  obtain ⟨others, hothers⟩ := Nat.exists_eq_succ_of_ne_zero (Nat.pos_iff_ne_zero.mp hpos)
  rw [hothers, Nat.succ_sub_one, Nat.mul_succ]
  omega

/-! ### A turn uses up allowance -/

/-- Changing one slot changes one flag. -/
theorem runningFlags_modify {machine : Machine} {index : Nat} {slot : Slot} {change : Slot → Slot}
    (hslot : machine.slots[index]? = some slot) :
  (machine.modifySlot index change).runningFlags
    = machine.runningFlags.set index (change slot).state.isRunning
  := by
  obtain ⟨hlt, hget⟩ := Array.getElem?_eq_some_iff.mp hslot
  apply List.ext_getElem?
  intro i
  simp only [runningFlags, modifySlot, Array.toList_modify, List.getElem?_map,
    List.getElem?_modify, List.getElem?_set]
  by_cases hi : index = i
  · subst hi
    simp [hlt, hget]
  · simp [hi]

/-- Changing the slot of a running core does not add to the running ones. -/
theorem runningCount_modify_le {machine : Machine} {index : Nat} {slot : Slot}
    {change : Slot → Slot} (hslot : machine.slots[index]? = some slot)
    (hruns : slot.state.isRunning = true) :
  (machine.modifySlot index change).runningCount ≤ machine.runningCount
  := by
  have hflag := runningFlags_slot hslot
  rw [hruns] at hflag
  rw [runningCount, runningFlags_modify hslot]
  cases (change slot).state.isRunning with
  | false =>
    apply Nat.le_of_lt
    apply count_set_lt _ _ hflag
  | true =>
    have hsame : machine.runningFlags.set index true = machine.runningFlags := by
      obtain ⟨hlt, hget⟩ := List.getElem?_eq_some_iff.mp hflag
      rw [← hget, List.set_getElem_self]
    rw [hsame]
    apply Nat.le_refl

/-- Taking a running core out of the schedule leaves fewer. -/
theorem runningCount_modify_lt {machine : Machine} {index : Nat} {slot : Slot}
    {change : Slot → Slot} (hslot : machine.slots[index]? = some slot)
    (hruns : slot.state.isRunning = true) (hout : (change slot).state.isRunning = false) :
  (machine.modifySlot index change).runningCount < machine.runningCount
  := by
  have hflag := runningFlags_slot hslot
  rw [hruns] at hflag
  rw [runningCount, runningFlags_modify hslot, hout]
  apply count_set_lt _ _ hflag

/-- Passing over a core that is not running uses up allowance. -/
theorem allowance_idle {machine : Machine} {goal : Nat} {slot : Slot}
    (hgoes : machine.stopped goal = false)
    (hslot : machine.slots[machine.cursor]? = some slot)
    (hwaits : slot.state.isRunning = false) :
  1 + machine.advance.haltIfIdle.allowance goal ≤ machine.allowance goal
  := by
  have hsize : 0 < machine.slots.size := by
    obtain ⟨hlt, _⟩ := Array.getElem?_eq_some_iff.mp hslot
    omega
  have hadvance : machine.advance.runningCount = machine.runningCount := rfl
  rw [allowance_of_going hgoes]
  rcases Nat.eq_zero_or_pos machine.runningCount with hnone | hsome
  · -- With no running core left the machine halts.
    have hafter := allowance_haltIfIdle_le machine.advance goal
    rw [hadvance, hnone, Nat.mul_zero] at hafter
    rw [if_pos hnone]
    omega
  · -- The next running core comes one turn closer.
    have hsame : machine.advance.haltIfIdle = machine.advance :=
      if_pos (machine.anyRunning_iff.mpr hsome)
    have hflag := runningFlags_slot hslot
    rw [hwaits] at hflag
    have hcloser : machine.advance.waiting < machine.waiting := by
      have hrotate := idxOf_rotate_lt machine.runningFlags machine.cursor hflag
        (List.count_pos_iff.mp hsome)
      rw [runningFlags_length] at hrotate
      apply hrotate
    have hafter : machine.advance.stopped goal = false := hgoes
    rw [hsame, allowance_of_going hafter, hadvance, if_neg (Nat.pos_iff_ne_zero.mp hsome),
      if_neg (Nat.pos_iff_ne_zero.mp hsome)]
    have hslots : machine.advance.slots.size = machine.slots.size := rfl
    rw [hslots]
    omega

/-- A turn takes one off the allowance, unless it takes a cycle. -/
theorem allowance_turn {machine after : Machine} {goal : Nat} {outcome : StepOutcome}
    (hgoes : machine.stopped goal = false) (h : machine.step = .ok outcome after) :
  1 + after.allowance goal
    ≤ machine.allowance goal + machine.slots.size * outcome.takesCycle.toNat
  := by
  have hstepped := machine.step_stepped
  rw [h] at hstepped
  cases hstepped with
  | idle present waits => apply allowance_idle hgoes present waits
  | @settled slot core result bus recorder present runs thumb success =>
    have present : machine.slots[machine.cursor]? = some slot := present
    have hbefore := allowance_of_running hgoes present runs
    rw [CoreStep.outcome_takesCycle]
    cases hcycle : result.takesCycle with
    | false =>
      have hround := Nat.mul_le_mul_left machine.slots.size (runningCount_pos present runs)
      have hstopped : (machine.advance.settled machine.cursor result bus
          recorder).haltIfIdle.stopped goal = true := by
        cases result with
        | breakpoint =>
          rw [haltIfIdle_eq]
          simp [stopped, Machine.settled]
        | _ => cases hcycle
      rw [allowance_of_stopped hstopped]
      omega
    | true =>
      have hafter := allowance_haltIfIdle_le
        (machine.advance.settled machine.cursor result bus recorder) goal
      have hsize : (machine.advance.settled machine.cursor result bus recorder).slots.size
          = machine.slots.size := Array.size_modify
      have hcount : (machine.advance.settled machine.cursor result bus recorder).runningCount
          ≤ machine.runningCount := runningCount_modify_le present runs
      have hround := Nat.mul_le_mul_left machine.slots.size hcount
      rw [hsize] at hafter
      rw [Bool.toNat_true, Nat.mul_one]
      omega
  | @parked slot fault bus recorder present runs faults policy =>
    have present : machine.slots[machine.cursor]? = some slot := present
    have hbefore := allowance_of_running hgoes present runs
    have hafter := allowance_haltIfIdle_le
      (machine.advance.failed machine.cursor (.parked fault) bus recorder) goal
    have hsize : (machine.advance.failed machine.cursor (.parked fault) bus recorder).slots.size
        = machine.slots.size := Array.size_modify
    have hcount : (machine.advance.failed machine.cursor (.parked fault) bus recorder).runningCount
        < machine.runningCount := runningCount_modify_lt present runs rfl
    have hround := Nat.mul_le_mul_left machine.slots.size hcount
    rw [hsize] at hafter
    rw [Nat.mul_succ] at hround
    simp only [StepOutcome.takesCycle, Bool.toNat_false, Nat.mul_zero, Nat.add_zero]
    omega

/-! ### Runs -/

/-- Turns use up the allowance of the machine they start from and a round for each cycle. -/
theorem Turns.length_le_allowance {machine last : Machine} {goal : Nat} {path : List Machine}
    (h : Turns goal machine path last) :
  path.length + last.allowance goal
    ≤ machine.allowance goal + machine.slots.size * (last.cycles - machine.cycles)
  := by
  induction h with
  | nil machine =>
    rw [List.length_nil, Nat.zero_add]
    apply Nat.le_add_right
  | @cons machine after last outcome path goes turn rest ih =>
    obtain ⟨hsize, hcycles⟩ := step_keeps turn
    have hturn := allowance_turn goes turn
    have hle := rest.keeps.2
    have hspent : last.cycles - machine.cycles
        = outcome.takesCycle.toNat + (last.cycles - after.cycles) := by omega
    rw [hsize] at ih
    rw [List.length_cons, hspent, Nat.mul_add]
    omega

/-- A run of `n` cores that takes `c` cycles has at most `n * (c + n)` turns. -/
theorem Turns.length_le {machine last : Machine} {goal : Nat} {path : List Machine}
    (h : Turns goal machine path last) :
  path.length ≤ machine.slots.size * (last.cycles - machine.cycles + machine.slots.size)
  := by
  have hlength := h.length_le_allowance
  have hle := machine.allowance_le goal
  rw [Nat.mul_add]
  omega

theorem stopReason_ne_cycleBudget (machine : Machine) :
  machine.stopReason ≠ .cycleBudget
  := by
  rw [stopReason]
  split <;> simp

/-- A run that is over without having reached its goal was stopped by a breakpoint or halted. -/
theorem stopReason_of_stopped {machine : Machine} {goal : Nat}
    (hstop : machine.stopped goal = true) (hbefore : machine.cycles < goal) :
  if machine.breakpointHit then machine.stopReason = .breakpoint
  else machine.stopReason = .halted ∧ machine.halted = true
  := by
  rw [stopReason]
  cases hhit : machine.breakpointHit with
  | true => rfl
  | false =>
    have hnot : ¬ goal ≤ machine.cycles := Nat.not_le_of_lt hbefore
    constructor
    · rfl
    · simpa [stopped, hhit, hnot] using hstop

/-- Every run for a budget that the cycle counter has room for ends, and a run that succeeds
reports faithfully: the cycles that it took, which are within the budget, the reason why it
ended, and a number of steps that is bounded by the cycles and the number of cores. -/
theorem runCycles_ends (machine : Machine) (budget : Nat)
    (hbudget : machine.cycles + budget < UInt64.size) :
  (∃ path last, Turns (machine.cycles + budget) machine path last
    ∧ path.length ≤ machine.slots.size * (last.cycles - machine.cycles + machine.slots.size)
    ∧ ((∃ reason, machine.runCycles budget
          = .ok ⟨path.length, last.cycles - machine.cycles, reason⟩ last)
      ∨ ∃ e after, last.step = .error e after ∧ machine.runCycles budget = .error e after))
    ∧ ∀ outcome after, machine.runCycles budget = .ok outcome after →
      after.cycles = machine.cycles + outcome.cycles
        ∧ outcome.cycles ≤ budget
        ∧ (outcome.reason = .cycleBudget ↔ outcome.cycles = budget)
        ∧ (outcome.reason ≠ .cycleBudget →
          if after.breakpointHit then outcome.reason = .breakpoint
          else outcome.reason = .halted ∧ after.halted = true)
        ∧ outcome.steps ≤ machine.slots.size * (outcome.cycles + machine.slots.size)
  := by
  have hgoal : min (machine.cycles + budget) cycleLimit = machine.cycles + budget :=
    Nat.min_eq_left (Nat.le_pred_of_lt hbudget)
  obtain ⟨path, last, hturns, hend⟩ := runTo_turns (machine.cycles + budget) machine 0
  have hlength := hturns.length_le
  have hlow := hturns.keeps.2
  have hhigh := hturns.cycles_le (Nat.le_add_right machine.cycles budget)
  rcases hend with ⟨hstop, hrun⟩ | ⟨e, after, hgoes, hfails, hrun⟩
  · rw [Nat.zero_add] at hrun
    have hresult : machine.runCycles budget = .ok ⟨path.length, last.cycles - machine.cycles,
        if machine.cycles + budget ≤ last.cycles then .cycleBudget else last.stopReason⟩ last := by
      simp only [runCycles, hgoal, hrun]
    constructor
    · use path, last, hturns, hlength
      left
      use if machine.cycles + budget ≤ last.cycles then .cycleBudget else last.stopReason
    · intro outcome after hok
      rw [hresult] at hok
      cases hok
      constructor
      · exact (Nat.add_sub_of_le hlow).symm
      constructor
      · apply Nat.sub_le_of_le_add
        rw [Nat.add_comm]
        apply hhigh
      by_cases hreached : machine.cycles + budget ≤ last.cycles
      · have hspent : last.cycles - machine.cycles = budget := by omega
        simp only [if_pos hreached, hspent, ne_eq, not_true_eq_false, false_implies, true_and]
        rw [hspent] at hlength
        apply hlength
      · have hspent : last.cycles - machine.cycles ≠ budget := by omega
        have hreason := stopReason_of_stopped hstop (Nat.lt_of_not_le hreached)
        simp only [if_neg hreached, hspent, last.stopReason_ne_cycleBudget, iff_self, true_and]
        apply And.intro _ hlength
        intro _
        apply hreason
  · have hresult : machine.runCycles budget = .error e after := by
      simp only [runCycles, hgoal, hrun]
    constructor
    · use path, last, hturns, hlength
      right
      use e, after
    · intro outcome after' hok
      rw [hresult] at hok
      cases hok

/-- A machine with one core that branches to itself. -/
def spinning : Machine where
  config := { coreCount := 1, sramSize := 4 }
  slots := #[⟨.thumb ((ThumbCore.reset sramBase).setPc sramBase), .running, none⟩]
  bus := { Bus.initial 4 with sram := ⟨#[0xFE, 0xE7, 0x00, 0x00]⟩ }
  breakpoints := .empty
  cycles := 0
  halted := false
  breakpointHit := false
  cursor := 0
  recorder := none

theorem spinning_runCycles_ends :
  spinning.cycles + 1000 < UInt64.size
    ∧ ∃ path last, Turns (spinning.cycles + 1000) spinning path last
      ∧ path.length
        ≤ spinning.slots.size * (last.cycles - spinning.cycles + spinning.slots.size)
  := by
  have hbudget : spinning.cycles + 1000 < UInt64.size := by decide
  obtain ⟨path, last, hturns, hlength, _⟩ := (runCycles_ends spinning 1000 hbudget).1
  use hbudget, path, last

end ThumbSoc.Machine
