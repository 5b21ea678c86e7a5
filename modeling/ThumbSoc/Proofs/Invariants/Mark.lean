import ThumbSoc.Proofs.Exceptions.Kind
import ThumbSoc.Proofs.Invariants.Core

/-!
# The mark of a realigned frame

Bit 9 of a stacked status word says that the frame was moved down to be aligned. The bit
belongs to the stacked word only: leaving an exception takes it out of the word that is loaded
back, and no other effect of an instruction reaches it.
-/

namespace ThumbSoc

/-- The status register of a core does not show the mark of a realigned frame. -/
def Core.Unmarked : Core → Prop
  | .thumb core => Word.Clear Psr.realigned core.psr
  | .hart _ => True

/-- The status word that the effects set, if they set one, does not show the mark. -/
def Effects.Unmarked (effects : Effects) : Prop :=
  ∀ psr, effects.status = some psr → Word.Clear Psr.realigned psr

/-! ### The status register -/

/-- An exception number is too small to show the mark. -/
theorem Word.clear_realigned_number (number : UInt8) :
  Word.Clear Psr.realigned number.toUInt32
  := by
  have hlow : number.toUInt32 = number.toUInt32 &&& 0xFF := by
    apply UInt32.toNat_inj.mp
    rw [UInt32.toNat_and]
    have hlt := number.toNat_lt
    exact (Nat.and_two_pow_sub_one_of_lt_two_pow hlt).symm
  rw [hlow]
  apply Word.Clear.and_right
  decide

namespace ThumbCore

variable {core : ThumbCore}

theorem psr_write_ofNumber (number : Nat) (value : Word) :
  (core.write (Register.ofNumber number) value).psr = core.psr
  := by
  unfold Register.ofNumber
  simp only
  split
  · rfl
  · split
    · rfl
    · split <;> rfl

theorem clear_setFlag {mask flag : Word} {on : Bool} (hflag : Word.Clear mask flag)
    (h : Word.Clear mask core.psr) :
  Word.Clear mask (core.setFlag flag on).psr
  := by
  cases on with
  | false => apply h.and
  | true => apply h.or hflag

theorem clear_writeSpecial (h : Word.Clear Psr.realigned core.psr) (selector : Nat)
    (value : Word) :
  Word.Clear Psr.realigned (core.writeSpecial selector value).psr
  := by
  rw [writeSpecial]
  split
  · apply Word.Clear.or
    · apply h.and
    · apply Word.Clear.and_right
      decide
  all_goals apply h

end ThumbCore

/-! ### Writes by debug index -/

theorem Register.index_of_psr {index : Nat} (h : Register.ofIndex? index = some .psr) :
  index = 16
  := by
  rw [ofIndex?] at h
  split at h
  · cases h
  · split at h
    case h_4 => rfl
    all_goals cases h

/-- The status register can only be written by its own index. -/
theorem Core.Unmarked.write? {core after : Core} {index : Nat} {value : Word}
    (hindex : index ≠ 16) (hwrite : core.write? index value = some after) (h : core.Unmarked) :
  after.Unmarked
  := by
  cases core with
  | thumb core =>
    obtain ⟨register, hregister, rfl⟩ := Option.map_eq_some_iff.mp hwrite
    cases register with
    | psr => exact absurd (Register.index_of_psr hregister) hindex
    | _ => apply h
  | hart hart =>
    obtain ⟨after, _, rfl⟩ := Option.map_eq_some_iff.mp hwrite
    trivial

/-! ### Effects -/

namespace Effects

variable {effects : Effects}

/-- Unmarked effects leave an unmarked core unmarked. -/
theorem Unmarked.commit {core : ThumbCore} (h : effects.Unmarked)
    (hcore : Word.Clear Psr.realigned core.psr) :
  Word.Clear Psr.realigned (effects.commit core).psr
  := by
  apply effects.commit_keeps (P := fun core => Word.Clear Psr.realigned core.psr)
    _ _ _ _ _ _ hcore
  · intro core i value hcore
    rw [ThumbCore.psr_write_ofNumber]
    apply hcore
  · intro core psr hpsr _
    apply h psr hpsr
  · intro core hcore
    cases effects.flags with
    | keep => apply hcore
    | logical n z c =>
      apply ThumbCore.clear_setFlag (by decide)
      apply ThumbCore.clear_setFlag (by decide)
      apply ThumbCore.clear_setFlag (by decide) hcore
    | arithmetic flags =>
      apply ThumbCore.clear_setFlag (by decide)
      apply ThumbCore.clear_setFlag (by decide)
      apply ThumbCore.clear_setFlag (by decide)
      apply ThumbCore.clear_setFlag (by decide) hcore
  · intro core selector value hcore
    apply ThumbCore.clear_writeSpecial hcore
  · intro core transition hcore
    cases transition with
    | enter number =>
      apply Word.Clear.or
      · apply hcore.and
      · apply Word.clear_realigned_number
    | leave => apply hcore
  · intro core value hcore
    apply hcore

end Effects

/-! ### Execution -/

/-- An executed instruction does not set the mark in the status register. -/
theorem Instruction.execute_unmarked (i : Instruction) (core : ThumbCore) (pc : Word) :
  Yields Effects.Unmarked (i.execute core pc)
  := by
  intro bus effects bus' hexecute psr hpsr
  cases i.execute_kind core pc bus effects bus' hexecute with
  | plain hplain =>
    rw [hplain.1] at hpsr
    cases hpsr
  | entering number hstatus htransition =>
    rw [hstatus] at hpsr
    cases hpsr
  | leaving word hhandling hstatus htransition =>
    rw [hstatus] at hpsr
    cases hpsr
    apply Word.Clear.and_right
    decide

end ThumbSoc
