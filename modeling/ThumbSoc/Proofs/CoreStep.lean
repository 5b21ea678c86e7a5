import ThumbSoc.Proofs.Encoding.Loads
import ThumbSoc.Proofs.Transfer
import ThumbSoc.Step

/-!
# The cases of a step of a core

What it means that a step of a core succeeds with a certain outcome, and what it means that it
fails. A step that is not stopped by a breakpoint comes down to the execution of the
instruction that the core stands on.
-/

namespace ThumbSoc.ThumbCore

/-- The core stands on an instruction whose condition holds. -/
def Performs (core : ThumbCore) (bus : Bus) (i : Instruction) : Prop :=
  bus.instructionAt core.pc = .ok i ∧ i.condition.holds core.flags = true

variable {core : ThumbCore} {breakpoints : Breakpoints} {armed : Option Word} {bus bus' : Bus}
  {fault : CoreFault} {result : CoreStep}

/-- A decoded instruction that extends the sign does not load the program counter. -/
theorem Performs.signed {i : Instruction} (h : core.Performs bus i) (hsigned : i.signed = true) :
  i.rd ≠ some 15
  := by
  have hinstruction := h.1
  rw [Bus.instructionAt] at hinstruction
  split at hinstruction
  · cases hinstruction
  · next word length _ =>
    split at hinstruction
    · cases hinstruction
    · next hdecode =>
      cases hinstruction
      apply Instruction.decode_signed hdecode hsigned

/-- A step fails when the fetch or the decoding does, which has no effect, or when the
execution of the instruction does. -/
theorem step_error (h : core.step breakpoints armed bus = .error fault bus') :
  ((∀ i, bus.instructionAt core.pc ≠ .ok i) ∧ bus' = bus)
    ∨ ∃ i, core.Performs bus i ∧ i.execute core core.pc bus = .error fault bus'
  := by
  rw [step] at h
  split at h
  · cases h
  · split at h
    · next hfault =>
      cases h
      left
      constructor
      · intro i hok
        rw [hfault] at hok
        cases hok
      · rfl
    · next i hi =>
      right
      use i
      rw [perform] at h
      split at h
      · next hholds =>
        rcases bind_eq_error.mp h with hexecute | ⟨_, _, _, hpure⟩
        · apply And.intro ⟨hi, hholds⟩ hexecute
        · cases hpure
      · cases h

/-- A step succeeds by stopping at a breakpoint, by skipping an instruction, or by executing
one. -/
theorem step_ok (h : core.step breakpoints armed bus = .ok result bus') :
  (result = .breakpoint ∧ bus' = bus)
    ∨ (∃ i, bus.instructionAt core.pc = .ok i ∧ i.condition.holds core.flags = false
      ∧ result = .skipped i (core.setPc (i.next core.pc)) ∧ bus' = bus)
    ∨ ∃ i effects, core.Performs bus i ∧ i.execute core core.pc bus = .ok effects bus'
      ∧ result = .executed i effects.sleeps (effects.commit core)
  := by
  rw [step] at h
  split at h
  · cases h
    left
    apply And.intro rfl rfl
  · right
    split at h
    · cases h
    · next i hi =>
      rw [perform] at h
      split at h
      · next hholds =>
        obtain ⟨effects, mid, hexecute, hpure⟩ := bind_eq_ok.mp h
        cases hpure
        right
        use i, effects, ⟨hi, hholds⟩, hexecute
      · next hholds =>
        cases h
        left
        use i, hi, Bool.eq_false_iff.mpr hholds

/-- A step keeps what every execution keeps. -/
theorem step_keeps {R : Bus → Bus → Prop} (hrefl : ∀ bus, R bus bus) (core : ThumbCore)
    (hexecute : ∀ i : Instruction, Keeps R (i.execute core core.pc)) (breakpoints : Breakpoints)
    (armed : Option Word) :
  Keeps R (core.step breakpoints armed)
  := by
  intro bus
  cases hresult : core.step breakpoints armed bus with
  | ok result bus' =>
    rcases step_ok hresult with ⟨_, rfl⟩ | ⟨i, _, _, _, rfl⟩ | ⟨i, effects, _, hsuccess, _⟩
    · exact hrefl bus'
    · exact hrefl bus'
    · have hkeeps := hexecute i bus
      rw [hsuccess] at hkeeps
      exact hkeeps
  | error fault bus' =>
    rcases step_error hresult with ⟨_, rfl⟩ | ⟨i, _, hfailure⟩
    · exact hrefl bus'
    · have hkeeps := hexecute i bus
      rw [hfailure] at hkeeps
      exact hkeeps

/-- A step of a core stops at a breakpoint if the core stands on one and is not armed there,
and leaves the bus alone. -/
theorem step_eq_breakpoint_iff :
  core.step breakpoints armed bus = .ok .breakpoint bus'
    ↔ (armed ≠ some core.pc ∧ breakpoints.contains core.pc) ∧ bus' = bus
  := by
  constructor
  · intro h
    rw [step] at h
    split at h
    · next hstands =>
      cases h
      apply And.intro hstands rfl
    · split at h
      · cases h
      · rw [perform] at h
        split at h
        · obtain ⟨effects, mid, _, hpure⟩ := bind_eq_ok.mp h
          cases hpure
        · cases h
  · rintro ⟨hstands, rfl⟩
    rw [step, if_pos hstands]

end ThumbSoc.ThumbCore
