import ThumbSoc.Machine.Step

/-!
# Progress of a run

A run towards a goal for the cycle counter is over when the goal is reached, the machine is
halted, or a breakpoint was hit. Every run ends, because each step makes a measure fall: a
step that takes no cycle either ends the run, parks a running core, or passes over a core
that is not running, and there are only finitely many of those before a running one.

The main statement is `step_falls`.
-/

namespace ThumbSoc.Machine

/-! ### The measure -/

/-- Whether a run towards `goal` is over. -/
def stopped (machine : Machine) (goal : Nat) : Bool :=
  goal ≤ machine.cycles || machine.halted || machine.breakpointHit

/-- Which cores are running, in order. -/
def runningFlags (machine : Machine) : List Bool :=
  machine.slots.toList.map (·.state.isRunning)

/-- The cycles that are missing to the goal, none once the run is over. -/
def missing (machine : Machine) (goal : Nat) : Nat :=
  if machine.stopped goal then 0 else goal - machine.cycles

/-- How many turns pass before that of a running core. -/
def waiting (machine : Machine) : Nat :=
  let flags := machine.runningFlags
  (flags.drop machine.cursor ++ flags.take machine.cursor).idxOf true

/-- The measure of a run: cycles to go, then running cores, then turns to the next running
core. -/
def progress (machine : Machine) (goal : Nat) : Nat × Nat × Nat :=
  (machine.missing goal, machine.runningFlags.count true, machine.waiting)

/-- The order in which the measure falls. -/
abbrev Falls : Nat × Nat × Nat → Nat × Nat × Nat → Prop :=
  Prod.Lex (· < ·) (Prod.Lex (· < ·) (· < ·))

/-! ### What the parts of a step keep -/

section Keep

variable (machine : Machine) (index goal : Nat)

@[simp]
theorem emit_slots (event : Event) :
  (machine.emit event).slots = machine.slots
  := by
  unfold emit
  split <;> rfl

@[simp]
theorem emit_cycles (event : Event) :
  (machine.emit event).cycles = machine.cycles
  := by
  unfold emit
  split <;> rfl

@[simp]
theorem emit_halted (event : Event) :
  (machine.emit event).halted = machine.halted
  := by
  unfold emit
  split <;> rfl

@[simp]
theorem emit_breakpointHit (event : Event) :
  (machine.emit event).breakpointHit = machine.breakpointHit
  := by
  unfold emit
  split <;> rfl

@[simp]
theorem setState_cycles (state : RunState) :
  (machine.setState index state).cycles = machine.cycles
  := by
  unfold setState
  split
  · rfl
  · split
    · rfl
    · simp [modifySlot]

@[simp]
theorem haltIfIdle_cycles :
  machine.haltIfIdle.cycles = machine.cycles
  := by
  unfold haltIfIdle
  split <;> rfl

@[simp]
theorem haltIfIdle_slots :
  machine.haltIfIdle.slots = machine.slots
  := by
  unfold haltIfIdle
  split <;> rfl

theorem haltIfIdle_breakpointHit :
  machine.haltIfIdle.breakpointHit = machine.breakpointHit
  := by
  unfold haltIfIdle
  split <;> rfl

end Keep

/-- Changing a slot but not its run state changes no flag. -/
theorem runningFlags_modifySlot (machine : Machine) (index : Nat) (change : Slot → Slot)
    (h : ∀ slot, (change slot).state = slot.state) :
  (machine.modifySlot index change).runningFlags = machine.runningFlags
  := by
  apply List.ext_getElem?
  intro i
  simp only [runningFlags, modifySlot, Array.toList_modify, List.getElem?_map,
    List.getElem?_modify]
  by_cases hi : index = i <;> cases machine.slots.toList[i]? <;> simp [hi, h]

/-! ### The cycles to go -/

theorem missing_of_halted {machine : Machine} (goal : Nat) (h : machine.halted = true) :
  machine.missing goal = 0
  := by simp [missing, stopped, h]

theorem missing_of_breakpointHit {machine : Machine} (goal : Nat)
    (h : machine.breakpointHit = true) :
  machine.missing goal = 0
  := by simp [missing, stopped, h]

theorem missing_le {machine : Machine} (goal : Nat) :
  machine.missing goal ≤ goal - machine.cycles
  := by
  unfold missing
  split <;> omega

theorem missing_of_not_stopped {machine : Machine} {goal : Nat}
    (h : machine.stopped goal = false) :
  machine.missing goal = goal - machine.cycles ∧ machine.cycles < goal
  := by
  simp only [missing, h]
  simp only [stopped, Bool.or_eq_false_iff, decide_eq_false_iff_not] at h
  exact ⟨rfl, by omega⟩

/-! ### The measure falls -/

theorem falls_of_missing_lt {a b : Nat × Nat × Nat} (h : a.1 < b.1) :
  Falls a b
  := Prod.Lex.left _ _ h

/-- With no more cycles to go and fewer running cores, the measure falls. -/
theorem falls_of_count_lt {a b : Nat × Nat × Nat} (h1 : a.1 ≤ b.1) (h2 : a.2.1 < b.2.1) :
  Falls a b
  := by
  obtain ⟨a1, a2, a3⟩ := a
  obtain ⟨b1, b2, b3⟩ := b
  rcases Nat.lt_or_eq_of_le h1 with h | h
  · exact Prod.Lex.left _ _ h
  · simp only at h
    subst h
    exact Prod.Lex.right _ (Prod.Lex.left _ _ h2)

theorem falls_of_waiting_lt {a b : Nat × Nat × Nat} (h1 : a.1 ≤ b.1) (h2 : a.2.1 = b.2.1)
    (h3 : a.2.2 < b.2.2) :
  Falls a b
  := by
  obtain ⟨a1, a2, a3⟩ := a
  obtain ⟨b1, b2, b3⟩ := b
  rcases Nat.lt_or_eq_of_le h1 with h | h
  · exact Prod.Lex.left _ _ h
  · simp only at h h2
    subst h h2
    exact Prod.Lex.right _ (Prod.Lex.right _ h3)

/-! ### The parts of a step -/

/-- Passing over a core that is not running brings the next running one closer. -/
theorem idxOf_rotate_lt (flags : List Bool) (cursor : Nat) (h : flags[cursor]? = some false)
    (ht : true ∈ flags) :
  let next := (cursor + 1) % flags.length
  (flags.drop next ++ flags.take next).idxOf true
    < (flags.drop cursor ++ flags.take cursor).idxOf true
  := by
  intro next
  obtain ⟨hlt, hget⟩ := List.getElem?_eq_some_iff.1 h
  have hdrop : flags.drop cursor = false :: flags.drop (cursor + 1) := by
    rw [List.drop_eq_getElem_cons hlt, hget]
  have htake : flags.take (cursor + 1) = flags.take cursor ++ [false] := by
    rw [List.take_succ_eq_append_getElem hlt, hget]
  have hrot : flags.drop next ++ flags.take next
      = flags.drop (cursor + 1) ++ flags.take cursor ++ [false] := by
    rcases Nat.lt_or_ge (cursor + 1) flags.length with hn | hn
    · have : next = cursor + 1 := Nat.mod_eq_of_lt hn
      rw [this, htake, List.append_assoc]
    · have hlen : flags.length = cursor + 1 := by omega
      have : next = 0 := by simp [next, hlen]
      rw [this, List.drop_eq_nil_of_le (by omega : flags.length ≤ cursor + 1)]
      simp only [List.drop_zero, List.take_zero, List.append_nil, List.nil_append]
      rw [← htake, List.take_of_length_le (by omega)]
  have hmem : true ∈ flags.drop (cursor + 1) ++ flags.take cursor := by
    rw [← List.take_append_drop cursor flags, hdrop] at ht
    simp only [List.mem_append, List.mem_cons] at ht ⊢
    rcases ht with h | h | h
    · exact Or.inr h
    · cases h
    · exact Or.inl h
  rw [hrot, List.idxOf_append, if_pos hmem, hdrop, List.cons_append, List.idxOf_cons]
  simp

theorem count_set_lt (flags : List Bool) (i : Nat) (h : flags[i]? = some true) :
  (flags.set i false).count true < flags.count true
  := by
  induction flags generalizing i with
  | nil => simp at h
  | cons b rest ih =>
    cases i with
    | zero =>
      simp only [List.getElem?_cons_zero, Option.some.injEq] at h
      simp [h]
    | succ i =>
      have := ih i (by simpa using h)
      simp only [List.set_cons_succ, List.count_cons]
      omega

/-- Parking a core takes it out of the running ones. -/
theorem runningFlags_park (machine : Machine) (index : Nat) (fault : CoreFault) :
  (machine.setState index (.parked fault)).runningFlags = machine.runningFlags.set index false
  := by
  apply List.ext_getElem?
  intro i
  unfold setState
  split
  · next hnone =>
    simp only [Array.getElem?_eq_none_iff] at hnone
    rw [List.getElem?_set]
    by_cases hi : index = i
    · subst hi
      simp [runningFlags, hnone]
    · simp [hi]
  · next slot hslot =>
    split
    · next hstate =>
      rw [List.getElem?_set]
      by_cases hi : index = i
      · subst hi
        obtain ⟨h, hget⟩ := Array.getElem?_eq_some_iff.1 hslot
        simp [runningFlags, h, hget, hstate, RunState.isRunning]
      · simp [hi]
    · simp only [runningFlags, emit_slots, modifySlot, Array.toList_modify, List.getElem?_map,
        List.getElem?_modify, List.getElem?_set]
      by_cases hi : index = i
      · subst hi
        obtain ⟨h, _⟩ := Array.getElem?_eq_some_iff.1 hslot
        simp [h, RunState.isRunning]
      · simp [hi]

@[simp]
theorem runningFlags_emit (machine : Machine) (event : Event) :
  (machine.emit event).runningFlags = machine.runningFlags
  := by simp [runningFlags]

@[simp]
theorem runningFlags_haltIfIdle (machine : Machine) :
  machine.haltIfIdle.runningFlags = machine.runningFlags
  := by simp [runningFlags]

theorem treatFault_falls {machine before after : Machine} {index goal : Nat} {fault : CoreFault}
    {outcome : StepOutcome} (hflags : machine.runningFlags = before.runningFlags)
    (hmissing : goal - machine.cycles ≤ before.missing goal)
    (hrun : before.runningFlags[index]? = some true)
    (h : machine.treatFault index fault = .ok outcome after) :
  Falls (after.progress goal) (before.progress goal)
  := by
  unfold treatFault at h
  simp only at h
  split at h
  · cases h
  · cases h
    apply falls_of_count_lt
    · apply Nat.le_trans (missing_le goal)
      simpa [progress] using hmissing
    · simp only [progress, runningFlags_haltIfIdle, runningFlags_park, runningFlags_emit, hflags]
      exact count_set_lt _ _ hrun

theorem settle_falls {machine before : Machine} {index goal : Nat} {pc : Word} {result : CoreStep}
    (hcycles : machine.cycles = before.cycles) (hstop : before.stopped goal = false) :
  Falls ((machine.settle index pc result).2.progress goal) (before.progress goal)
  := by
  obtain ⟨hm, hlt⟩ := missing_of_not_stopped hstop
  apply falls_of_missing_lt
  cases result with
  | breakpoint =>
    have : (machine.settle index pc .breakpoint).2.breakpointHit = true := by
      simp [settle, haltIfIdle_breakpointHit]
    simp only [progress, missing_of_breakpointHit goal this, hm]
    omega
  | skipped i core =>
    apply Nat.lt_of_le_of_lt (missing_le goal)
    simp only [progress, hm]
    simp only [settle, retire, haltIfIdle_cycles, emit_cycles, setCore, modifySlot, hcycles]
    omega
  | executed i sleeps core =>
    apply Nat.lt_of_le_of_lt (missing_le goal)
    simp only [progress, hm]
    cases sleeps <;>
    simp only [settle, retire, haltIfIdle_cycles, setState_cycles, emit_cycles, setCore,
      modifySlot, hcycles, if_true, Bool.false_eq_true, if_false] <;>
    omega

/-- Every successful step of a run that is not over makes the measure fall. -/
theorem step_falls {machine after : Machine} {goal : Nat} {outcome : StepOutcome}
    (hstop : machine.stopped goal = false) (h : machine.step = .ok outcome after) :
  Falls (after.progress goal) (machine.progress goal)
  := by
  obtain ⟨hm, hlt⟩ := missing_of_not_stopped hstop
  unfold step stepCore at h
  simp only at h
  split at h
  · cases h
  · next slot hslot =>
    have hslot' : machine.slots[machine.cursor]? = some slot := hslot
    have hflag : machine.runningFlags[machine.cursor]? = some slot.state.isRunning := by
      simp [runningFlags, hslot']
    have hprep : (machine.advance.prepare machine.cursor).runningFlags = machine.runningFlags :=
      runningFlags_modifySlot machine.advance machine.cursor _ (fun _ => rfl)
    split at h
    · next hrun =>
      rw [hrun] at hflag
      split at h
      · exact treatFault_falls hprep (by rw [hm]; exact Nat.le_refl _) hflag h
      · next core hcore =>
        rw [onBus_eq] at h
        split at h
        · next fault s hs =>
          split at hs
          · cases hs
          · cases hs
            refine treatFault_falls ?_ ?_ hflag h
            · exact hprep
            · rw [hm]
              exact Nat.le_refl _
        · next result s hs =>
          split at hs
          · cases hs
            cases h
            exact settle_falls rfl hstop
          · cases hs
    · next hrun =>
      cases h
      have hfalse : slot.state.isRunning = false := by simpa using hrun
      rw [hfalse] at hflag
      by_cases hany : machine.anyRunning = true
      · have hany' : machine.advance.anyRunning = true := hany
        have hsame : machine.advance.haltIfIdle = machine.advance := by
          unfold haltIfIdle
          rw [if_pos hany']
        rw [hsame]
        apply falls_of_waiting_lt
        · apply Nat.le_trans (missing_le goal)
          simp only [progress, hm]
          exact Nat.le_refl _
        · rfl
        · have hmem : true ∈ machine.runningFlags := by
            simp only [anyRunning, Array.any_eq_true'] at hany
            obtain ⟨x, hx, hr⟩ := hany
            simp only [runningFlags, List.mem_map]
            exact ⟨x, by simpa using hx, hr⟩
          have hlen : machine.runningFlags.length = machine.slots.size := by simp [runningFlags]
          have := idxOf_rotate_lt machine.runningFlags machine.cursor hflag hmem
          rw [hlen] at this
          exact this
      · have hhalt : machine.advance.haltIfIdle.halted = true := by
          unfold haltIfIdle
          rw [if_neg (show ¬machine.advance.anyRunning = true from hany)]
        apply falls_of_missing_lt
        simp only [progress, missing_of_halted goal hhalt, hm]
        omega

end ThumbSoc.Machine
