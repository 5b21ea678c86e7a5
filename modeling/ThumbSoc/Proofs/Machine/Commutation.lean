import ThumbSoc.Proofs.Footprint
import ThumbSoc.Proofs.Machine.Isolation
import ThumbSoc.Proofs.Machine.StepEvents

/-!
# Independent steps commute

Steps of two cores that both retire an instruction, and of which neither stores anything that the
other one touches, can be made in either order. Each core does what it would have done alone, and
the machine comes out the same but for the order of the recorded events and for which core the bus
has selected last.

Neither step can halt the machine under the other one: as long as the other core has not made its
step, a core is running. Whether the machine halts at the end is decided by the states of all cores,
in which the order leaves no trace.
-/

namespace ThumbSoc

/-- Changes of different slots commute. -/
theorem modify_comm {slots : Array Slot} {i j : Nat} (hne : i ≠ j) (change change' : Slot → Slot) :
  (slots.modify i change).modify j change' = (slots.modify j change').modify i change
  := by
  apply Array.ext_getElem?
  intro k
  simp only [Array.getElem?_modify]
  by_cases hi : i = k
  · have hj : j ≠ k := fun hj => hne (hi.trans hj.symm)
    simp only [if_pos hi, if_neg hj]
  · simp only [if_neg hi]

namespace Machine

variable {machine : Machine} {i j index : Nat} {slot slot' : Slot} {core core' : ThumbCore}
  {result result' : CoreStep} {bus bus' : Bus}

/-! ### Steps that retire an instruction -/

/-- The next step of core `index` retires an instruction. -/
structure Retires (machine : Machine) (index : Nat) (slot : Slot) (core : ThumbCore)
    (result : CoreStep) (bus : Bus) : Prop where
  present : machine.slots[index]? = some slot
  runs : slot.state.isRunning = true
  thumb : slot.core = .thumb core
  success : core.step machine.breakpoints slot.armed (machine.bus.select index) = .ok result bus
  retires : result.takesCycle = true

/-- What the next step of core `index` touches. -/
def footprint (machine : Machine) (index : Nat) : Footprint :=
  match machine.slots[index]? with
  | some ⟨.thumb core, _, _⟩ => core.footprint (machine.bus.select index)
  | _ => ⟨[], [], []⟩

/-- A step that takes a cycle retires an instruction. -/
theorem retires_of_stepCore {outcome : StepOutcome} {after : Machine}
    (h : machine.stepCore index = .ok outcome after) (hcycle : outcome.takesCycle = true) :
  ∃ slot core result bus, machine.Retires index slot core result bus
  := by
  have hstepped := machine.stepCore_stepped index
  rw [h] at hstepped
  cases hstepped with
  | idle => cases hcycle
  | @settled slot core result bus recorder present runs thumb success =>
    rw [CoreStep.outcome_takesCycle] at hcycle
    exact ⟨slot, core, result, bus, present, runs, thumb, success, hcycle⟩
  | parked => cases hcycle

namespace Retires

theorem told (h : machine.Retires index slot core result bus) :
  machine.told index = result.told index core.pc
  := by simp only [Machine.told, h.present, h.runs, if_true, h.thumb, h.success]

theorem footprint (h : machine.Retires index slot core result bus) :
  machine.footprint index = core.footprint (machine.bus.select index)
  := by
  obtain ⟨present, _, thumb, _, _⟩ := h
  obtain ⟨_, state, armed⟩ := slot
  cases thumb
  simp only [Machine.footprint, present]

theorem ne_breakpoint (h : machine.Retires index slot core result bus) :
  result ≠ .breakpoint
  := by
  rintro rfl
  cases h.retires

/-- The machine after a step that retires an instruction. -/
theorem stepCore (h : machine.Retires index slot core result bus) :
  machine.stepCore index = .ok (result.outcome index core.pc)
    (machine.settled index result bus (machine.recorded (machine.told index))).haltIfIdle
  := by
  have hrecorder := machine.stepCore_recorder index
  have hprepared : core.step (machine.prepare index).breakpoints slot.armed
      (machine.prepare index).bus = .ok result bus := h.success
  obtain ⟨recorder, hsettle⟩ := machine.settle_eq index core.pc result bus
  have hstep : machine.stepCore index = .ok (result.outcome index core.pc)
      (machine.settled index result bus recorder).haltIfIdle := by
    simp only [Machine.stepCore, h.present, h.runs, if_true, h.thumb, onBus_eq, hprepared, hsettle]
  rw [hstep, resultState, haltIfIdle_recorder] at hrecorder
  rw [hstep, ← hrecorder]
  rfl

/-- A core that has yet to make its step keeps the machine from halting. -/
theorem haltIfIdle (h : machine.Retires index slot core result bus) :
  machine.haltIfIdle = machine
  := by
  have hany : machine.anyRunning = true := by
    obtain ⟨hlt, hslot⟩ := Array.getElem?_eq_some_iff.mp h.present
    rw [anyRunning, Array.any_eq_true]
    use index, hlt
    rw [hslot]
    exact h.runs
  rw [Machine.haltIfIdle, if_pos hany]

/-- The bus after a step with all transfers in memory. -/
theorem bus_eq (h : machine.Retires index slot core result bus)
    (hmemory : (machine.footprint index).InMemory machine.bus) :
  bus = { machine.bus.select index with
    sram := machine.bus.sram.storeAll (machine.footprint index).stores }
  := by
  rw [h.footprint] at hmemory ⊢
  have hstep :=
    ThumbCore.step_elsewhere rfl hmemory (fun _ _ _ _ _ => rfl) h.ne_breakpoint h.success
  rw [h.success] at hstep
  cases hstep
  rfl

/-- **A step after an independent one.** A step that touches nothing that another core has just
stored retires the same instruction as it would have before, and stores the same values. -/
theorem behind (hne : i ≠ j) (hi : machine.Retires i slot core result bus)
    (hj : machine.Retires j slot' core' result' bus')
    (hmemory : (machine.footprint i).InMemory machine.bus)
    (hmemory' : (machine.footprint j).InMemory machine.bus)
    (hspares : (machine.footprint i).Spares (machine.footprint j))
    (recorder : Option (Array Event)) :
  (machine.settled i result bus recorder).Retires j slot' core' result'
    { machine.bus.select j with
      sram := (machine.bus.sram.storeAll (machine.footprint i).stores).storeAll
        (machine.footprint j).stores }
  := by
  have hbus := hi.bus_eq hmemory
  subst hbus
  refine ⟨(getElem?_modify_ne hne.symm).trans hj.present, hj.runs, hj.thumb, ?_, hj.retires⟩
  have hbase : ∀ s ∈ (machine.footprint i).stores, sramBase.toNat ≤ s.address.toNat :=
    fun s hs => (hmemory.2 s hs).offset.2.1
  have hholds : ∀ load ∈ (machine.footprint j).fetches ++ (machine.footprint j).loads,
      (machine.bus.select j).HoldAlike { machine.bus.select j with
        sram := machine.bus.sram.storeAll (machine.footprint i).stores } load := by
    intro load hload a ha hcovers
    apply Sram.byte_storeAll hbase
    intro s hs hstored
    rw [Nat.add_sub_of_le ha] at hstored
    exact hspares a ⟨s, hs, hstored⟩ (.inl ⟨load, hload, hcovers⟩)
  rw [hj.footprint] at hmemory' hholds ⊢
  exact ThumbCore.step_elsewhere (Sram.size_storeAll ..) hmemory' hholds hj.ne_breakpoint hj.success

end Retires

/-! ### Two steps -/

/-- The events of a second step follow those of the first one. -/
theorem settled_recorded (result : CoreStep) (bus : Bus) (first second : List Event) :
  (machine.settled i result bus (machine.recorded first)).recorded second
    = machine.recorded (first ++ second)
  := by
  have hconfig : (machine.settled i result bus (machine.recorded first)).config = machine.config :=
    rfl
  exact recorded_recorded hconfig rfl second

/-- Steps of two cores can be put into the machine in either order. -/
theorem settled_comm (hne : i ≠ j) {mid mid' final final' : Bus}
    {recorder recorder' events events' : Option (Array Event)} (hbus : final = final'.select j) :
  let last := ((machine.settled i result mid recorder).settled j result' final events).haltIfIdle
  let last' :=
    ((machine.settled j result' mid' recorder').settled i result final' events').haltIfIdle
  last = { last' with bus := last'.bus.select j, recorder := last.recorder }
  := by
  intro last last'
  have hslots : (machine.slots.modify i (·.settle result)).modify j (·.settle result')
      = (machine.slots.modify j (·.settle result')).modify i (·.settle result) :=
    modify_comm hne _ _
  simp only [last, last', haltIfIdle_eq, settled, anyRunning, hslots, hbus]
  rw [Nat.add_right_comm, Bool.or_right_comm]

/-- **Independent steps commute.** If the next steps of two cores both retire an instruction,
neither reaches a device, and neither stores a byte that the other one fetches, loads or stores,
then each has the same outcome before and after the other one, and both orders lead to the same
machine but for the order of the recorded events and the core that the bus has selected last. -/
theorem stepCore_commute (hne : i ≠ j) {outcome outcome' : StepOutcome} {after after' : Machine}
    (hi : machine.stepCore i = .ok outcome after) (hj : machine.stepCore j = .ok outcome' after')
    (hretires : outcome.takesCycle = true) (hretires' : outcome'.takesCycle = true)
    (hmemory : (machine.footprint i).InMemory machine.bus)
    (hmemory' : (machine.footprint j).InMemory machine.bus)
    (hspares : (machine.footprint i).Spares (machine.footprint j))
    (hspares' : (machine.footprint j).Spares (machine.footprint i)) :
  ∃ last last', after.stepCore j = .ok outcome' last ∧ after'.stepCore i = .ok outcome last'
    ∧ last = { last' with bus := last'.bus.select j, recorder := last.recorder }
    ∧ last.recorder = machine.recorded (machine.told i ++ machine.told j)
    ∧ last'.recorder = machine.recorded (machine.told j ++ machine.told i)
  := by
  obtain ⟨slot, core, result, bus, hfirst⟩ := retires_of_stepCore hi hretires
  obtain ⟨slot', core', result', bus', hsecond⟩ := retires_of_stepCore hj hretires'
  have hbehind := hfirst.behind hne hsecond hmemory hmemory' hspares
    (machine.recorded (machine.told i))
  have hbehind' := hsecond.behind hne.symm hfirst hmemory' hmemory hspares'
    (machine.recorded (machine.told j))
  rw [hfirst.stepCore, hbehind.haltIfIdle] at hi
  rw [hsecond.stepCore, hbehind'.haltIfIdle] at hj
  cases hi
  cases hj
  have hstores : (machine.bus.sram.storeAll (machine.footprint i).stores).storeAll
        (machine.footprint j).stores
      = (machine.bus.sram.storeAll (machine.footprint j).stores).storeAll
        (machine.footprint i).stores :=
    Sram.storeAll_comm _ (fun s hs => (hmemory.2 s hs).offset.2.1)
      (fun s hs => (hmemory'.2 s hs).offset.2.1)
      (fun a hwrites s hs hcovers => hspares a hwrites (.inr ⟨s, hs, hcovers⟩))
  refine ⟨_, _, hbehind.stepCore, hbehind'.stepCore, settled_comm hne ?_, ?_, ?_⟩
  · rw [hstores]
    rfl
  · rw [haltIfIdle_recorder, hbehind.told, ← hsecond.told]
    exact settled_recorded ..
  · rw [haltIfIdle_recorder, hbehind'.told, ← hfirst.told]
    exact settled_recorded ..

/-! ### A store and a load elsewhere -/

/-- A core that stands on a store to the third word of memory. -/
def storingCore : ThumbCore :=
  (((ThumbCore.reset (sramBase + 16)).setPc sramBase).write (.ofNumber 0) 7).write (.ofNumber 1)
    (sramBase + 8)

/-- A core that stands on a load from the fourth word of memory. -/
def loadingCore : ThumbCore :=
  ((ThumbCore.reset (sramBase + 16)).setPc (sramBase + 2)).write (.ofNumber 1) (sramBase + 12)

/-- A machine of these two cores. -/
def sharing : Machine where
  config := { coreCount := 2, sramSize := 16, dormantSecondaries := false }
  slots := #[⟨.thumb storingCore, .running, none⟩, ⟨.thumb loadingCore, .running, none⟩]
  bus := { Bus.initial 16 with
    sram := ⟨#[0x08, 0x60, 0x08, 0x68, 0, 0, 0, 0, 0, 0, 0, 0, 9, 0, 0, 0]⟩ }
  breakpoints := .empty
  cycles := 0
  halted := false
  breakpointHit := false
  cursor := 0
  recorder := none

theorem sharing_footprint_store :
  sharing.footprint 0 = ⟨[⟨sramBase, .halfword⟩], [], [⟨sramBase + 8, .word, 7⟩]⟩
  := by with_unfolding_all rfl

theorem sharing_footprint_load :
  sharing.footprint 1 = ⟨[⟨sramBase + 2, .halfword⟩], [⟨sramBase + 12, .word⟩], []⟩
  := by with_unfolding_all rfl

theorem sharing_step_store :
  ∃ after, sharing.stepCore 0 = .ok (.executed 0 sramBase 2) after
  := ⟨_, by with_unfolding_all rfl⟩

theorem sharing_step_load :
  ∃ after, sharing.stepCore 1 = .ok (.executed 1 (sramBase + 2) 2) after
  := ⟨_, by with_unfolding_all rfl⟩

theorem sharing_spares :
  (sharing.footprint 0).Spares (sharing.footprint 1)
    ∧ (sharing.footprint 1).Spares (sharing.footprint 0)
  := by
  rw [sharing_footprint_store, sharing_footprint_load]
  constructor
  · rintro a ⟨s, hs, hstored⟩ (⟨load, hload, hcovers⟩ | ⟨_, hnone, _⟩)
    · cases List.mem_singleton.mp hs
      have hspan : 0x20000008 ≤ a ∧ a < 0x20000008 + 4 := hstored
      rcases List.mem_append.mp hload with hfetch | hload
      · cases List.mem_singleton.mp hfetch
        have hfetched : 0x20000002 ≤ a ∧ a < 0x20000002 + 2 := hcovers
        omega
      · cases List.mem_singleton.mp hload
        have hloaded : 0x2000000C ≤ a ∧ a < 0x2000000C + 4 := hcovers
        omega
    · cases hnone
  · rintro a ⟨s, hnone, _⟩
    cases hnone

/-- The store and the load can be made in either order. -/
theorem sharing_stepCore_commute :
  ∃ after after' last last', sharing.stepCore 0 = .ok (.executed 0 sramBase 2) after
    ∧ sharing.stepCore 1 = .ok (.executed 1 (sramBase + 2) 2) after'
    ∧ after.stepCore 1 = .ok (.executed 1 (sramBase + 2) 2) last
    ∧ after'.stepCore 0 = .ok (.executed 0 sramBase 2) last'
    ∧ last = { last' with bus := last'.bus.select 1, recorder := last.recorder }
  := by
  obtain ⟨after, hstore⟩ := sharing_step_store
  obtain ⟨after', hload⟩ := sharing_step_load
  have hmemory : (sharing.footprint 0).InMemory sharing.bus := by
    rw [sharing_footprint_store]
    exact ⟨List.forall_mem_nil _, List.forall_mem_singleton.mpr (by decide)⟩
  have hmemory' : (sharing.footprint 1).InMemory sharing.bus := by
    rw [sharing_footprint_load]
    exact ⟨List.forall_mem_singleton.mpr (by decide), List.forall_mem_nil _⟩
  obtain ⟨last, last', hlast, hlast', hsame, _⟩ :=
    stepCore_commute (by decide) hstore hload rfl rfl hmemory hmemory' sharing_spares.1
      sharing_spares.2
  exact ⟨after, after', last, last', hstore, hload, hlast, hlast', hsame⟩

end Machine

end ThumbSoc
