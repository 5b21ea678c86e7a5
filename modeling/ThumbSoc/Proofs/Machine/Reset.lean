import ThumbSoc.Proofs.Machine.StepEvents

/-!
# What a reset does

A reset puts the cores one after the other into their reset state, and then clears what they
share. `reset_eq` writes out the machine that it leaves, `reset_slots` its cores, and
`reset_recorder` says that it records the changes of run states in the order of the cores.
-/

namespace ThumbSoc.Machine

variable (machine : Machine) (index : Nat)

/-- The slot of core `index` after a reset. -/
def newSlot (config : Config) (index : Nat) : Slot :=
  ⟨freshCore config, initialState config index, none⟩

theorem fresh_slots (config : Config) :
  (fresh config).slots = (Array.range config.coreCount).map (newSlot config)
  := rfl

/-! ### Single cores -/

theorem resetCore_eq :
  machine.resetCore index
    = { machine with
        slots := machine.slots.modify index fun _ => newSlot machine.config index
        recorder := (machine.resetCore index).recorder }
  := by
  rw [resetCore, setState_eq]
  simp only [modifySlot, modify_modify]
  rfl

theorem resetCore_recorder :
  (machine.resetCore index).recorder
    = machine.recorded (machine.changes (machine.resetCore index))
  := by
  rw [resetCore, setState_recorder]
  apply congrArg
  exact changes_congr (states_modifySlot machine index fun _ => rfl) rfl

/-! ### All cores -/

/-- The machine after the first cores were reset. -/
def resetCores (machine : Machine) (count : Nat) : Machine :=
  (List.range count).foldl resetCore machine

theorem resetCores_succ (count : Nat) :
  machine.resetCores (count + 1) = (machine.resetCores count).resetCore count
  := by
  rw [resetCores, resetCores, List.range_succ, List.foldl_append]
  rfl

theorem resetCores_eq (count : Nat) :
  machine.resetCores count
    = { machine with
        slots := (machine.resetCores count).slots
        recorder := (machine.resetCores count).recorder }
  := by
  induction count with
  | zero => rfl
  | succ count ih =>
    rw [resetCores_succ, resetCore_eq, ih]

/-- The cores that were reset are in their reset state, and the others are as they were. -/
theorem resetCores_slot (count : Nat) :
  (machine.resetCores count).slots[index]?
    = if index < count then machine.slots[index]?.map fun _ => newSlot machine.config index
      else machine.slots[index]?
  := by
  induction count with
  | zero => rfl
  | succ count ih =>
    have hconfig : (machine.resetCores count).config = machine.config := by rw [resetCores_eq]
    rw [resetCores_succ, resetCore_eq]
    simp only [hconfig, Array.getElem?_modify, ih]
    by_cases hlast : count = index
    · subst hlast
      simp
    · have hiff : index < count + 1 ↔ index < count := by omega
      simp only [hlast, if_false, hiff]

/-- Resetting the first cores records their changes, whatever becomes of the others. -/
theorem resetCores_recorder {count : Nat} (hcount : count ≤ machine.slots.size) :
  (machine.resetCores count).recorder
    = machine.recorded ((List.range count).filterMap
        (machine.change? (machine.resetCores machine.slots.size)))
  := by
  induction count with
  | zero => exact machine.recorded_nil.symm
  | succ count ih =>
    have hconfig : (machine.resetCores count).config = machine.config := by rw [resetCores_eq]
    have hinside : count < machine.slots.size := hcount
    obtain ⟨slot, hslot⟩ : ∃ slot, machine.slots[count]? = some slot :=
      ⟨_, Array.getElem?_eq_getElem hinside⟩
    have hpresent : (machine.resetCores count).slots[count]? = some slot := by
      rw [resetCores_slot, if_neg (Nat.lt_irrefl _), hslot]
    have hslots : ((machine.resetCores count).resetCore count).slots
        = (machine.resetCores count).slots.modify count fun _ => newSlot machine.config count := by
      rw [resetCore_eq, hconfig]
    have hchange : ((machine.resetCores count).changes ((machine.resetCores count).resetCore count))
        = [count].filterMap (machine.change? (machine.resetCores machine.slots.size)) := by
      rw [changes_modify hslots hpresent]
      simp only [List.filterMap_cons, List.filterMap_nil, change?, states_get, resetCores_slot,
        hinside, if_true, hslot, Option.map_some, Option.some.injEq]
      by_cases hsame : slot.state = (newSlot machine.config count).state
      · rw [if_pos hsame, if_pos hsame.symm]
      · rw [if_neg hsame, if_neg (Ne.symm hsame)]
    rw [resetCores_succ, resetCore_recorder, hchange,
      recorded_recorded hconfig (ih (Nat.le_of_lt hinside)), List.range_succ,
      List.filterMap_append]

/-! ### The reset -/

theorem reset_eq :
  machine.reset
    = { machine with
        slots := machine.reset.slots
        bus := machine.bus.reset
        halted := false
        breakpointHit := false
        cursor := 0
        recorder := machine.reset.recorder }
  := by
  have hcores := machine.resetCores_eq machine.slots.size
  rw [reset]
  simp only
  rw [resetCores] at hcores
  rw [hcores]

theorem reset_slots :
  machine.reset.slots = (Array.range machine.slots.size).map (newSlot machine.config)
  := by
  apply Array.ext_getElem?
  intro index
  have hslots : machine.reset.slots = (machine.resetCores machine.slots.size).slots := rfl
  rw [hslots, resetCores_slot, Array.getElem?_map]
  by_cases hinside : index < machine.slots.size
  · rw [if_pos hinside, Array.getElem?_eq_getElem hinside]
    simp [hinside]
  · have houtside : machine.slots.size ≤ index := Nat.le_of_not_lt hinside
    rw [if_neg hinside, Array.getElem?_eq_none houtside]
    simp [houtside]

theorem reset_recorder :
  machine.reset.recorder = machine.recorded (machine.changes machine.reset)
  := by
  have hrecorder := machine.resetCores_recorder (Nat.le_refl _)
  apply hrecorder

end ThumbSoc.Machine
