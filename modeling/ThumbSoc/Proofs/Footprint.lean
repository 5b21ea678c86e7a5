import ThumbSoc.Proofs.Bus.Footprint
import ThumbSoc.Proofs.CoreStep
import ThumbSoc.Proofs.UpToUnsent

/-!
# The footprint of a step

What a step of a core fetches, loads and stores. A step depends on nothing else of the bus: where it
succeeds with all its transfers in memory, it does the same on any bus with as much memory that
holds the same bytes under its fetches and loads, and stores the same values there.
-/

namespace ThumbSoc

open Bus

/-! ### Footprints -/

/-- What a step fetches, loads and stores. -/
structure Footprint where
  fetches : List Load
  loads : List Load
  stores : List Store
  deriving DecidableEq, Repr

namespace Footprint

/-- The step stores a byte at an address. -/
def Writes (footprint : Footprint) (a : Nat) : Prop :=
  ∃ s ∈ footprint.stores, s.Covers a

/-- The step fetches, loads or stores a byte at an address. -/
def Touches (footprint : Footprint) (a : Nat) : Prop :=
  (∃ load ∈ footprint.fetches ++ footprint.loads, load.Covers a) ∨ footprint.Writes a

/-- No byte that one step stores is touched by the other one. -/
def Spares (footprint other : Footprint) : Prop :=
  ∀ a, footprint.Writes a → ¬ other.Touches a

/-- No load or store reaches a device. -/
def InMemory (footprint : Footprint) (bus : Bus) : Prop :=
  (∀ load ∈ footprint.loads, bus.InMemory load.address load.width)
    ∧ ∀ s ∈ footprint.stores, bus.InMemory s.address s.width

end Footprint

/-- The fetches of the encoding at an address. -/
def Bus.fetches (bus : Bus) (pc : Word) : List Load :=
  ⟨pc, .halfword⟩ ::
    match bus.fetch pc with
    | .ok first => if WideFormat.startsWith first then [⟨pc + 2, .halfword⟩] else []
    | .error _ => []

/-- The instruction that the next step of a core executes, if no breakpoint stops it: the one that
the core stands on, unless its condition does not hold. -/
def ThumbCore.performed? (core : ThumbCore) (bus : Bus) : Option Instruction :=
  (bus.instructionAt core.pc).toOption.filter fun i => i.condition.holds core.flags

theorem ThumbCore.performed?_of_performs {core : ThumbCore} {bus : Bus} {i : Instruction}
    (h : core.Performs bus i) :
  core.performed? bus = some i
  := by simp only [performed?, h.1, Except.toOption, Option.filter_some, h.2, if_true]

theorem ThumbCore.performed?_of_fails {core : ThumbCore} {bus : Bus} {i : Instruction}
    (hi : bus.instructionAt core.pc = .ok i) (hfails : i.condition.holds core.flags = false) :
  core.performed? bus = none
  := by
  simp only [performed?, hi, Except.toOption, Option.filter_some, hfails, Bool.false_eq_true,
    if_false]

/-- What the next step of a core touches, if no breakpoint stops it. -/
def ThumbCore.footprint (core : ThumbCore) (bus : Bus) : Footprint where
  fetches := bus.fetches core.pc
  loads := (core.performed? bus).elim [] fun i => i.loads core core.pc bus
  stores := (core.performed? bus).elim [] fun i => i.stores core core.pc

/-! ### Steps on two buses -/

section Steps

variable {bus bus' other : Bus} {core : ThumbCore} {breakpoints : Breakpoints}
  {armed : Option Word} {result : CoreStep}

/-- The same bytes spell the same instruction. -/
theorem Bus.instructionAt_congr {pc : Word} (hsize : other.sram.size = bus.sram.size)
    (hholds : ∀ load ∈ bus.fetches pc, bus.HoldAlike other load) :
  other.instructionAt pc = bus.instructionAt pc
  := by
  obtain ⟨hfirst, hrest⟩ := List.forall_mem_cons.mp hholds
  have hencoding : other.fetchEncoding pc = bus.fetchEncoding pc := by
    simp only [fetchEncoding, fetch_congr hsize hfirst]
    cases hfetch : bus.fetch pc with
    | error fault => rfl
    | ok first =>
      simp only [hfetch] at hrest
      simp only [bind, Except.bind]
      split
      · next hwide =>
        rw [if_pos hwide] at hrest
        rw [fetch_congr hsize (List.forall_mem_singleton.mp hrest)]
      · rfl
  simp only [instructionAt, hencoding]

/-- **Footprint of a step.** A step that retires an instruction with all transfers in memory does
the same on another bus with as much memory that holds the same bytes under its fetches and loads:
it has the same result, and it stores the same values there and changes nothing else. -/
theorem ThumbCore.step_elsewhere (hsize : other.sram.size = bus.sram.size)
    (hmemory : (core.footprint bus).InMemory bus)
    (hholds : ∀ load ∈ (core.footprint bus).fetches ++ (core.footprint bus).loads,
      bus.HoldAlike other load)
    (hgoes : result ≠ .breakpoint)
    (h : core.step breakpoints armed bus = .ok result bus') :
  core.step breakpoints armed other
    = .ok result { other with sram := other.sram.storeAll (core.footprint bus).stores }
  := by
  obtain ⟨hfetches, hloads⟩ := List.forall_mem_append.mp hholds
  have hsame := instructionAt_congr hsize hfetches
  obtain ⟨hloadsIn, hstoresIn⟩ := hmemory
  have hpasses : ¬ (armed ≠ some core.pc ∧ breakpoints.contains core.pc) := by
    intro hstands
    rw [step_eq_breakpoint_iff.mpr ⟨hstands, rfl⟩] at h
    cases h
    exact hgoes rfl
  rcases step_ok h with ⟨rfl, _⟩ | ⟨i, hi, hfails, rfl, hbus⟩ | ⟨i, effects, hi, hexecute, rfl⟩
  · exact absurd rfl hgoes
  · rw [hi] at hsame
    have hnone : (core.footprint bus).stores = [] := by
      simp only [footprint, performed?_of_fails hi hfails, Option.elim_none]
    rw [step_of_instruction hpasses hsame, perform, if_neg (Bool.eq_false_iff.mp hfails), hnone]
    rfl
  · simp only [footprint, performed?_of_performs hi, Option.elim_some]
      at hloads hloadsIn hstoresIn ⊢
    obtain ⟨hi, hcondition⟩ := hi
    rw [hi] at hsame
    obtain ⟨reads, haccesses⟩ := i.execute_found core core.pc bus
    rw [hexecute] at haccesses
    cases haccesses with
    | completes loaded stored determined =>
      obtain ⟨rfl, hperformed⟩ := performLoads_elsewhere hsize hloadsIn hloads loaded
      have hstores := performStores_elsewhere hsize hstoresIn stored
      rw [step_of_instruction hpasses hsame, perform, if_pos hcondition,
        bind_of_ok _ (determined _ _ _ hperformed hstores)]
      rfl

end Steps

end ThumbSoc
