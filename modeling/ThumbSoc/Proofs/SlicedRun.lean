import ThumbSoc.Proofs.Machine.Alike
import ThumbSoc.Proofs.RunLength
import ThumbSoc.Proofs.SerialOutput
import ThumbSoc.Proofs.UpToUnsent

/-!
# Sliced runs

The console cuts a run into slices and drains the first serial port after each of them. The
program cannot tell, unless it looks at the status register of that port: the sliced run ends for
the same reason or with the same fault as a single run for the whole budget, and it leaves the
same machine, up to the bytes that wait to be sent and the recorded events.
-/

namespace ThumbSoc

namespace Machine

variable {machine other : Machine} {lead goal : Nat}

/-! ### Turns and runs -/

/-- The loads of the instruction that the next turn of a machine executes, if it executes one. -/
def loads (machine : Machine) : List Load :=
  match machine.slots[machine.cursor]? with
  | none => []
  | some slot =>
    match slot.state.isRunning, slot.core with
    | true, .thumb core =>
      core.loads machine.breakpoints slot.armed (machine.bus.select machine.cursor)
    | _, _ => []

/-- Whether the next turn of a machine executes an instruction to which the status register of the
first serial port shows. -/
def readsStatus (machine : Machine) : Bool :=
  machine.loads.any machine.bus.showsStatus

theorem mem_turns (hgoes : machine.stopped goal = false) :
  machine ∈ machine.turns goal
  := by
  have hgoes := Bool.eq_false_iff.mp hgoes
  cases hturn : machine.step with
  | ok outcome after =>
    rw [turns_ok hgoes hturn]
    exact List.mem_cons_self
  | error e after =>
    rw [turns_error hgoes hturn]
    exact List.mem_singleton_self machine

/-- What steps preserve holds at every turn of a run and at its end. -/
theorem forall_turns {P : Machine → Prop}
    (hstep : ∀ {machine after outcome}, P machine → machine.step = .ok outcome after → P after)
    (h : P machine) (goal steps : Nat) :
  (∀ turn ∈ machine.turns goal, P turn)
    ∧ ∀ {count last}, runTo goal machine steps = .ok count last → P last
  := by
  induction machine, steps using runTo.induct goal with
  | case1 machine steps hstop =>
    rw [Machine.turns, dif_pos hstop, runTo_stopped steps hstop]
    constructor
    · intro turn hmem
      cases hmem
    · rintro count last ⟨⟩
      exact h
  | case2 machine steps hgoes e after hfails =>
    rw [turns_error hgoes hfails, runTo_error steps (Bool.eq_false_iff.mpr hgoes) hfails]
    constructor
    · intro turn hmem
      rw [List.mem_singleton.mp hmem]
      exact h
    · intro count last hrun
      cases hrun
  | case3 machine steps hgoes outcome after hturn ih =>
    obtain ⟨hturns, hlast⟩ := ih (hstep h hturn)
    rw [turns_ok hgoes hturn, runTo_ok steps (Bool.eq_false_iff.mpr hgoes) hturn]
    use List.forall_mem_cons.mpr ⟨h, hturns⟩, hlast

namespace Alike

/-- A turn that reads no status register is the same up to unsent bytes. -/
theorem step_unsent (h : Alike Bus.UpToUnsent lead machine other)
    (hquiet : machine.readsStatus = false) :
  Agree Eq (Alike Bus.UpToUnsent lead) machine.step other.step
  := by
  have hselect := h.bus.select machine.cursor
  apply h.step
  · rw [← h.cursor]
    exact hselect
  · intro slot core present runs thumb
    rw [← ThumbCore.step_congr h.breakpoints]
    apply ThumbCore.step_unsent hselect
    intro load hload
    simp only [readsStatus, loads, present, runs, thumb, List.any_eq_false, Bool.not_eq_true]
      at hquiet
    exact hquiet load hload

/-- So is a run of such turns. -/
theorem runTo_unsent (h : Alike Bus.UpToUnsent 0 machine other)
    (hquiet : ∀ turn ∈ machine.turns goal, turn.readsStatus = false) (steps : Nat) :
  Agree Eq (Alike Bus.UpToUnsent 0) (Machine.runTo goal machine steps)
    (Machine.runTo goal other steps)
  := by
  apply h.runTo (P := fun current => ∀ turn ∈ current.turns goal, turn.readsStatus = false) _ _
    hquiet
  · intro current after outcome hcurrent hgoes hturn turn hmem
    have hgoes : current.stopped goal = false := hgoes
    apply hcurrent
    rw [turns_ok (Bool.eq_false_iff.mp hgoes) hturn]
    exact List.mem_cons_of_mem _ hmem
  · intro current other' halike hcurrent hgoes
    apply halike.step_unsent
    apply hcurrent
    exact mem_turns hgoes

/-- A turn loads nothing if, up to unsent bytes, its core stands on an instruction that does not. -/
theorem loads_eq_nil (h : Alike Bus.UpToUnsent lead machine other) {slot : Slot} {core : ThumbCore}
    {i : Instruction} (present : other.slots[other.cursor]? = some slot)
    (thumb : slot.core = .thumb core)
    (hi : (other.bus.select other.cursor).instructionAt core.pc = .ok i)
    (hnone : ∀ bus, i.loads core core.pc bus = []) :
  machine.loads = []
  := by
  rw [← h.slots, ← h.cursor] at present
  rw [← h.cursor, ← (h.bus.select machine.cursor).instructionAt] at hi
  rw [Machine.loads, present]
  simp only [thumb]
  split
  · next _ core' hcore =>
    cases hcore
    exact ThumbCore.loads_eq_nil hi (hnone _) _ _
  · rfl

/-! ### Draining -/

/-- Draining the first serial port takes unsent bytes. -/
theorem drain (h : Alike Bus.UpToUnsent lead machine other) :
  Alike Bus.UpToUnsent lead (Console.drain machine).2 other
  := by
  have hdrain : (Console.drain machine).2 = { machine with
      bus := { machine.bus with
        serial := machine.bus.serial.set 0
          { machine.bus.serial.get 0 with
            transmitted := (machine.queued 0).drop Serial.depth } } } := rfl
  have hbus := h.bus.requeue ((machine.queued 0).drop Serial.depth)
  rw [← set_port 0 (by decide)] at hbus
  rw [hdrain]
  exact { h with bus := hbus }

theorem takeEvents (h : Alike Bus.UpToUnsent lead machine other) :
  Alike Bus.UpToUnsent lead machine.takeEvents.2 other
  := by
  rw [Machine.takeEvents]
  split
  · exact h
  · exact { h with }

end Alike

end Machine

namespace Console

open Machine

/-! ### The slices of a run -/

theorem rest_lt {budget : Nat} (hmore : sliceCycles < budget) :
  budget - sliceCycles < budget
  := Nat.sub_lt (Nat.zero_lt_of_lt hmore) (by decide)

/-- What a sliced run comes to, apart from what it hands out. -/
def sliced (machine : Machine) (budget : Nat) : Except MachineError StopReason × Machine :=
  let slice := runSlice machine (min budget sliceCycles)
  if _h : sliceCycles < budget then
    match slice.1 with
    | .ok .cycleBudget => sliced slice.2.2.takeEvents.2 (budget - sliceCycles)
    | _ => (slice.1, slice.2.2.takeEvents.2)
  else (slice.1, slice.2.2.takeEvents.2)
termination_by budget
decreasing_by exact rest_lt _h

section World

variable {m : Type → Type} [Monad m] [LawfulMonad m] (world : World m)

/-- Publishing hands something out, and takes the events out of the recorder. -/
theorem publish_eq (data : List UInt8) (machine : Machine) :
  ∃ written : m Unit, publish world data machine
    = do
      written
      return machine.takeEvents.2
  := by
  use do
    for event in machine.takeEvents.1 do
      world.diagnose (logLine .debug (eventText event))
    unless data.isEmpty do
      world.output data
  rw [publish]
  cases data.isEmpty <;> simp only [bind_assoc, pure_bind, Bool.false_eq_true, if_true, if_false]

/-- A sliced run comes to the same in every world. -/
theorem runFor_eq (machine : Machine) (budget : Nat) :
  ∃ written : m Unit, runFor world machine budget
    = do
      written
      return sliced machine budget
  := by
  induction budget using Nat.strongRecOn generalizing machine with
  | _ budget ih =>
    rw [runFor, sliced]
    cases hslice : runSlice machine (min budget sliceCycles) with
    | mk result rest =>
      obtain ⟨data, drained⟩ := rest
      obtain ⟨written, hwritten⟩ := publish_eq world data drained
      simp only [hwritten, bind_assoc, pure_bind]
      by_cases hmore : sliceCycles < budget
      · simp only [dif_pos hmore]
        match result with
        | .ok .cycleBudget =>
          obtain ⟨rest, hrest⟩ := ih _ (rest_lt hmore) drained.takeEvents.2
          use do
            written
            rest
          rw [hrest, bind_assoc]
        | .ok .halted | .ok .breakpoint | .error _ => use written
      · simp only [dif_neg hmore]
        use written

end World

variable {machine other : Machine} {budget : Nat}

/-- What steps and drains preserve holds at every turn of a sliced run. -/
theorem forall_turns {P : Machine → Prop}
    (hstep : ∀ {machine after outcome}, P machine → machine.step = .ok outcome after → P after)
    (hdrain : ∀ {machine}, P machine → P (drain machine).2.takeEvents.2)
    (h : P machine) (budget : Nat) :
  ∀ turn ∈ turns machine budget, P turn
  := by
  induction budget using Nat.strongRecOn generalizing machine with
  | _ budget ih =>
    rw [turns, List.forall_mem_append]
    obtain ⟨hturns, hlast⟩ := Machine.forall_turns hstep h
      (min (machine.cycles + min budget sliceCycles) cycleLimit) 0
    use hturns
    by_cases hmore : sliceCycles < budget
    · rw [dif_pos hmore, runSlice, runCycles_eq]
      generalize runTo _ machine 0 = result at hlast
      cases result with
      | error e after => exact List.forall_mem_nil _
      | ok count last =>
        simp only
        split
        · exact ih _ (rest_lt hmore) (hdrain (hlast rfl))
        · exact List.forall_mem_nil _
    · rw [dif_neg hmore]
      exact List.forall_mem_nil _

/-! ### How a sliced run ends -/

theorem sliced_last (hlast : sliceCycles < budget →
    (runSlice machine (min budget sliceCycles)).1 ≠ .ok .cycleBudget) :
  sliced machine budget
    = ((runSlice machine (min budget sliceCycles)).1,
      (runSlice machine (min budget sliceCycles)).2.2.takeEvents.2)
  := by
  rw [sliced]
  split
  · next hmore =>
    split
    · next hbudget => exact absurd hbudget (hlast hmore)
    · rfl
  · rfl

theorem sliced_more (hmore : sliceCycles < budget)
    (hbudget : (runSlice machine (min budget sliceCycles)).1 = .ok .cycleBudget) :
  sliced machine budget
    = sliced (runSlice machine (min budget sliceCycles)).2.2.takeEvents.2 (budget - sliceCycles)
  := by
  rw [sliced]
  simp only [dif_pos hmore, hbudget]

theorem runSlice_eq (hroom : machine.cycles + budget < UInt64.size) (steps : Nat) :
  runSlice machine budget =
    match runTo (machine.cycles + budget) machine steps with
    | .ok _ after => (.ok (after.endReason (machine.cycles + budget)), drain after)
    | .error e after => (.error e, drain after)
  := by
  have hcount := runTo_add (machine.cycles + budget) machine 0 steps
  rw [Nat.add_zero] at hcount
  rw [runSlice, runCycles_eq, goal_eq hroom, hcount]
  cases runTo (machine.cycles + budget) machine 0 <;> rfl

/-- A sliced run ended for the same reason, or with the same fault, as a run towards `goal`, and
it left the same machine up to unsent bytes. -/
def EndsAs (goal : Nat) (ended : Except MachineError StopReason × Machine) :
    EStateM.Result MachineError Machine Nat → Prop
  | .ok _ last => ended.1 = .ok (last.endReason goal) ∧ ended.2.Alike Bus.UpToUnsent 0 last
  | .error e last => ended.1 = .error e ∧ ended.2.Alike Bus.UpToUnsent 0 last

/-- The last slice ends a run: the one that uses up the budget, or that ends before its own part of
the budget is used up. -/
theorem EndsAs.last {goal goal' : Nat} (h : machine.Alike Bus.UpToUnsent 0 other)
    (hstop : machine.stopped goal = true) (hle : goal ≤ goal')
    (hends : goal = goal' ∨ machine.cycles < goal) (steps : Nat) :
  EndsAs goal' (.ok (machine.endReason goal), (drain machine).2.takeEvents.2)
    (runTo goal' other steps)
  := by
  obtain ⟨hother, hreason⟩ := h.ends hstop hle hends
  have hreason : machine.endReason goal = other.endReason goal' := hreason
  rw [runTo_stopped steps hother, hreason]
  exact ⟨rfl, h.drain.takeEvents⟩

/-- A sliced run ends as a run for the whole budget does on a machine that is the same up to unsent
bytes. -/
theorem sliced_endsAs (h : machine.Alike Bus.UpToUnsent 0 other)
    (hroom : machine.cycles + budget < UInt64.size)
    (hquiet : ∀ turn ∈ turns machine budget, turn.readsStatus = false) (steps : Nat) :
  EndsAs (machine.cycles + budget) (sliced machine budget)
    (runTo (machine.cycles + budget) other steps)
  := by
  -- On what is left of the budget: between two slices, the drained machine and the other one are
  -- alike, and they count towards the same goal.
  induction budget using Nat.strongRecOn generalizing machine other steps with
  | _ budget ih =>
    have hpart : machine.cycles + min budget sliceCycles ≤ machine.cycles + budget :=
      Nat.add_le_add_left (Nat.min_le_left _ _) _
    have hroom' := Nat.lt_of_le_of_lt hpart hroom
    rw [turns, goal_eq hroom', List.forall_mem_append] at hquiet
    obtain ⟨hfirst, hrest⟩ := hquiet
    have hagree := h.runTo_unsent hfirst steps
    have hslice := runSlice_eq hroom' steps
    rw [runTo_trans hpart]
    generalize hrun : runTo _ machine steps = result at hagree hslice
    generalize runTo (machine.cycles + min budget sliceCycles) other steps = result' at hagree ⊢
    cases hagree with
    | error e states =>
      rw [sliced_last (by simp [hslice]), hslice]
      exact ⟨rfl, states.drain.takeEvents⟩
    | @ok count _ mid mid' values states =>
      cases values
      obtain ⟨hstop, _, hhigh⟩ := runTo_ok_stopped hrun
      have hhigh := hhigh (Nat.le_add_right _ _)
      have hslice : runSlice machine (min budget sliceCycles)
          = (.ok (mid.endReason (machine.cycles + min budget sliceCycles)), drain mid) := hslice
      simp only
      rcases Nat.lt_or_eq_of_le hhigh with hbefore | hreached
      · -- Halted or stopped at a breakpoint, neither run takes another turn.
        have hover : (runSlice machine (min budget sliceCycles)).1 ≠ .ok .cycleBudget := by
          rw [hslice, endReason_of_lt hbefore]
          exact fun h => mid.stopReason_ne_cycleBudget (Except.ok.inj h)
        rw [sliced_last fun _ => hover, hslice]
        exact EndsAs.last states hstop hpart (.inr hbefore) count
      · have hreason : mid.endReason (machine.cycles + min budget sliceCycles) = .cycleBudget :=
          if_pos hreached.ge
        by_cases hmore : sliceCycles < budget
        · have hbudget : (runSlice machine (min budget sliceCycles)).1 = .ok .cycleBudget := by
            rw [hslice, hreason]
          have hkept := states.drain.takeEvents
          have hgoal : (drain mid).2.takeEvents.2.cycles + (budget - sliceCycles)
              = machine.cycles + budget := by
            rw [hkept.cycles, ← states.cycles, hreached, Nat.min_eq_right (Nat.le_of_lt hmore)]
            omega
          rw [dif_pos hmore, hslice, hreason] at hrest
          rw [sliced_more hmore hbudget, hslice, ← hgoal]
          apply ih _ (rest_lt hmore) hkept _ hrest
          rw [hgoal]
          exact hroom
        · have hgoal : machine.cycles + min budget sliceCycles = machine.cycles + budget := by
            rw [Nat.min_eq_left (Nat.le_of_not_lt hmore)]
          rw [sliced_last fun h => absurd h hmore, hslice]
          exact EndsAs.last states hstop hpart (.inl hgoal) count

/-- Draining is not seen by the program. A sliced run in which no executed instruction loads from
the status register of the first serial port ends for the same reason, or with the same fault, as a
single run for the whole budget, and leaves the same machine up to the bytes that wait to be sent
over that port. The loads of an instruction are the ones that its execution makes. -/
theorem runFor_same {m : Type → Type} [Monad m] [LawfulMonad m] (world : World m)
    (machine : Machine) (budget : Nat) (hroom : machine.cycles + budget < UInt64.size)
    (hquiet : ∀ turn ∈ turns machine budget, turn.readsStatus = false) :
  (∃ (written : m Unit) (result : Except MachineError StopReason) (after : Machine),
      runFor world machine budget
        = (do
          written
          return (result, after))
      ∧ match machine.runCycles budget with
        | .ok outcome last =>
          result = .ok outcome.reason ∧ after.Alike Bus.UpToUnsent 0 last
        | .error e last => result = .error e ∧ after.Alike Bus.UpToUnsent 0 last)
  ∧ ∀ (i : Instruction) (core : ThumbCore) (bus bus' : Bus) (effects : Effects),
      i.execute core core.pc bus = .ok effects bus' →
      ∃ values mid, Bus.performLoads (i.loads core core.pc bus) bus = .ok values mid
        ∧ Bus.performStores (i.stores core core.pc) mid = .ok () bus'
  := by
  constructor
  · obtain ⟨written, hwritten⟩ := runFor_eq world machine budget
    have hends := sliced_endsAs (Alike.refl Bus.UpToUnsent.refl machine) hroom hquiet 0
    use written, (sliced machine budget).1, (sliced machine budget).2, hwritten
    rw [runCycles_eq, goal_eq hroom]
    generalize runTo (machine.cycles + budget) machine 0 = result at hends ⊢
    cases result <;> exact hends
  · intro i core bus bus' effects
    apply Instruction.execute_transfers

/-- The talking machine before its store or before its branch, at any time and up to unsent
bytes. -/
def Talks (machine : Machine) : Prop :=
  ∃ lead, machine.Alike Bus.UpToUnsent lead talking
    ∨ machine.Alike Bus.UpToUnsent lead (resultState talking.step)

namespace Talks

theorem readsStatus (h : Talks machine) :
  machine.readsStatus = false
  := by
  have hloads : machine.loads = [] := by
    obtain ⟨lead, h | h⟩ := h
    all_goals
      apply h.loads_eq_nil
      case present => with_unfolding_all rfl
      case thumb => with_unfolding_all rfl
      case hi => with_unfolding_all rfl
      case hnone => exact fun _ => rfl
  rw [Machine.readsStatus, hloads, List.any_nil]

theorem step {after : Machine} {outcome : StepOutcome} (h : Talks machine)
    (hturn : machine.step = .ok outcome after) :
  Talks after
  := by
  -- Two turns later the machine is where it was.
  have hperiod : (resultState (resultState talking.step).step).Alike Bus.UpToUnsent 2 talking := by
    constructor
    case bus => constructor <;> with_unfolding_all rfl
    all_goals with_unfolding_all rfl
  have hquiet := h.readsStatus
  obtain ⟨lead, hstore | hbranch⟩ := h
  · have hafter := (hstore.step_unsent hquiet).states
    rw [hturn] at hafter
    use lead
    right
    exact hafter
  · have hafter := (hbranch.step_unsent hquiet).states
    rw [hturn] at hafter
    use 2 + lead
    left
    exact hafter.trans @Bus.UpToUnsent.trans hperiod

theorem drain (h : Talks machine) :
  Talks (Console.drain machine).2.takeEvents.2
  := by
  obtain ⟨lead, h⟩ := h
  use lead
  exact h.imp (·.drain.takeEvents) (·.drain.takeEvents)

end Talks

theorem talking_runFor_same :
  talking.cycles + 100 < UInt64.size
    ∧ (∀ turn ∈ turns talking 100, turn.readsStatus = false)
    ∧ ∃ (written : StateM (List UInt8) Unit) (result : Except MachineError StopReason)
        (after : Machine),
      runFor recording talking 100
        = (do
          written
          return (result, after))
      ∧ match talking.runCycles 100 with
        | .ok outcome last =>
          result = .ok outcome.reason ∧ after.Alike Bus.UpToUnsent 0 last
        | .error e last => result = .error e ∧ after.Alike Bus.UpToUnsent 0 last
  := by
  have hroom : talking.cycles + 100 < UInt64.size := by decide
  have htalks : Talks talking := ⟨0, .inl (.refl Bus.UpToUnsent.refl talking)⟩
  have hquiet : ∀ turn ∈ turns talking 100, turn.readsStatus = false := fun turn hmem =>
    (forall_turns Talks.step Talks.drain htalks 100 turn hmem).readsStatus
  use hroom, hquiet
  exact (runFor_same recording talking 100 hroom hquiet).1

end Console

end ThumbSoc
