import ThumbSoc.Proofs.Commit
import ThumbSoc.Proofs.Invariants.Mark

/-!
# What effects leave alone

A part of a core changes only through those effects that are about it. Some fields no effect is
about; a register changes through a write to it; the status register changes in the flags that
an update sets, or as a whole.
-/

namespace ThumbSoc

namespace ThumbCore

variable {core other : ThumbCore}

/-- The fields that no instruction changes. -/
def fixed (core : ThumbCore) : Word × Word × Word × Word × Bool :=
  (core.msplim, core.psplim, core.fpscr, core.vtor, core.thumbMode)

/-- The fields that change only when a special register is written. -/
def masks (core : ThumbCore) : Word × Word × Word × Word × Word :=
  (core.primask, core.basepri, core.faultmask, core.control, core.psp)

/-- The registers that effects can write. -/
def held (core : ThumbCore) : Vector Word 13 × Word × Word :=
  (core.general, core.sp, core.lr)

theorem read_congr (h : core.held = other.held) (number : Fin 15) :
  core.read (.ofNumber number) = other.read (.ofNumber number)
  := by
  obtain ⟨hgeneral, hrest⟩ := Prod.mk.inj h
  obtain ⟨hsp, hlr⟩ := Prod.mk.inj hrest
  obtain ⟨hpc, hpsr⟩ := Register.ofNumber_ne number
  generalize Register.ofNumber number = register at *
  cases register with
  | general n => exact congrArg (·.get n) hgeneral
  | sp => exact hsp
  | lr => exact hlr
  | pc => contradiction
  | psr => contradiction

end ThumbCore

/-! ### Bits outside a mask -/

/-- Putting other bits under a mask. -/
theorem Word.insert_outside (w v mask : Word) :
  ((w &&& ~~~mask) ||| (v &&& mask)) &&& ~~~mask = w &&& ~~~mask
  := by
  apply UInt32.eq_of_toBitVec_eq
  ext i hi
  simp only [UInt32.toBitVec_or, UInt32.toBitVec_and, UInt32.toBitVec_not, BitVec.getElem_or,
    BitVec.getElem_and, BitVec.getElem_not]
  cases mask.toBitVec[i] with
  | false => rw [Bool.and_false, Bool.or_false, Bool.and_assoc, Bool.and_self]
  | true => rw [Bool.not_true, Bool.and_false, Bool.and_false]

/-- What agrees outside a mask agrees outside a mask that covers it. -/
theorem Word.outside_mono {w v inner mask : Word} (hclear : Clear inner (~~~mask))
    (h : w &&& ~~~inner = v &&& ~~~inner) :
  w &&& ~~~mask = v &&& ~~~mask
  := by
  rw [← hclear.and_not, UInt32.and_comm (~~~mask), ← UInt32.and_assoc, ← UInt32.and_assoc, h]

theorem ThumbCore.setFlag_outside (core : ThumbCore) {flag mask : Word}
    (h : Word.Clear flag (~~~mask)) (on : Bool) :
  (core.setFlag flag on).psr &&& ~~~mask = core.psr &&& ~~~mask
  := by
  apply Word.outside_mono h
  cases on with
  | true => exact Word.or_and_not core.psr flag
  | false =>
    change core.psr &&& ~~~flag &&& ~~~flag = _
    rw [UInt32.and_assoc, UInt32.and_self]

namespace FlagsUpdate

/-- The flags that an update sets. -/
def mask : FlagsUpdate → Word
  | keep => 0
  | logical _ _ _ => Psr.n ||| Psr.z ||| Psr.c
  | arithmetic _ => Psr.n ||| Psr.z ||| Psr.c ||| Psr.v

/-- An update changes nothing outside a mask that covers its flags. -/
theorem apply_outside (update : FlagsUpdate) {mask : Word}
    (h : Word.Clear update.mask (~~~mask)) (core : ThumbCore) :
  (update.apply core).psr &&& ~~~mask = core.psr &&& ~~~mask
  := by
  apply Word.outside_mono h
  cases update with
  | keep => rfl
  | logical n z c =>
    rw [apply, FlagsUpdate.mask, ThumbCore.setFlag_outside _ (by decide),
      ThumbCore.setFlag_outside _ (by decide), ThumbCore.setFlag_outside _ (by decide)]
  | arithmetic f =>
    rw [apply, FlagsUpdate.mask, ThumbCore.setFlags, ThumbCore.setFlag_outside _ (by decide),
      ThumbCore.setFlag_outside _ (by decide), ThumbCore.setFlag_outside _ (by decide),
      ThumbCore.setFlag_outside _ (by decide)]

end FlagsUpdate

/-! ### Special registers -/

namespace Special

/-- The views of the status register that show its flags. -/
theorem ofSelector_status {selector : Nat} {number : Bool}
    (h : ofSelector selector = status true number) :
  selector < 4
  := by
  unfold ofSelector at h
  split at h
  · simp only [status.injEq, beq_iff_eq] at h
    omega
  · split at h
    all_goals cases h

theorem ofSelector_msp {selector : Nat} (h : ofSelector selector = msp) :
  selector = 8
  := by
  unfold ofSelector at h
  split at h
  · cases h
  · split at h
    · rfl
    all_goals cases h

end Special

namespace ThumbCore

variable (core : ThumbCore) {selector : Nat}

theorem read_writeSpecial {number : Fin 15} (h : number.val = 13 → selector ≠ 8) (value : Word) :
  (core.writeSpecial selector value).read (.ofNumber number) = core.read (.ofNumber number)
  := by
  rw [writeSpecial]
  split
  case h_3 hmsp =>
    have hne : Register.sp ≠ Register.ofNumber number := by
      intro hsp
      have hnumber : (13 : Fin 15) = number := Register.ofNumber_inj hsp
      apply h (congrArg Fin.val hnumber.symm) (Special.ofSelector_msp hmsp)
    exact read_write_ne hne (value &&& ~~~3)
  all_goals
    apply read_congr
    rfl

theorem psr_writeSpecial {mask : Word}
    (h : selector < 4 → Word.Clear Psr.application (~~~mask)) (value : Word) :
  (core.writeSpecial selector value).psr &&& ~~~mask = core.psr &&& ~~~mask
  := by
  rw [writeSpecial]
  split
  · next hstatus =>
    apply Word.outside_mono (h (Special.ofSelector_status hstatus))
    exact Word.insert_outside core.psr value Psr.application
  all_goals rfl

end ThumbCore

/-! ### All effects -/

namespace Effects

variable {effects : Effects} (core : ThumbCore)

theorem commit_fixed (effects : Effects) :
  (effects.commit core).fixed = core.fixed
  := by
  apply effects.commit_keeps (P := fun after => after.fixed = core.fixed) _ _ _ _ _ _ rfl
  · intro before number value h
    cases Register.ofNumber number <;> exact h
  · intro before psr _ h
    exact h
  · intro before h
    cases effects.flags <;> exact h
  · intro before selector value h
    rw [ThumbCore.writeSpecial]
    split <;> exact h
  · intro before transition h
    cases transition <;> exact h
  · intro before value h
    exact h

theorem commit_masks (hspecial : effects.special = none) :
  (effects.commit core).masks = core.masks
  := by
  apply effects.commit_keeps_of (P := fun after => after.masks = core.masks) _ _ _ _ _ _ rfl
  · intro before number value _ h
    cases Register.ofNumber number <;> exact h
  · intro before psr _ h
    exact h
  · intro before h
    cases effects.flags <;> exact h
  · intro before selector value hsome
    rw [hspecial] at hsome
    cases hsome
  · intro before transition _ h
    cases transition <;> exact h
  · intro before h
    exact h

theorem commit_read {number : Fin 15} (hwrites : effects.writes.get number = none)
    (hspecial : number.val = 13 → ∀ value, effects.special ≠ some (8, value)) :
  (effects.commit core).read (.ofNumber number) = core.read (.ofNumber number)
  := by
  apply effects.commit_keeps_of
    (P := fun after => after.read (.ofNumber number) = core.read (.ofNumber number))
    _ _ _ _ _ _ rfl
  · intro before other value hsome h
    have hne : other ≠ number := by
      rintro rfl
      rw [hwrites] at hsome
      cases hsome
    rw [ThumbCore.read_write_ne (mt Register.ofNumber_inj hne), h]
  · intro before psr _ h
    rw [← h]
    apply ThumbCore.read_congr
    rfl
  · intro before h
    rw [← h]
    apply ThumbCore.read_congr
    cases effects.flags <;> rfl
  · intro before selector value hsome h
    rw [ThumbCore.read_writeSpecial, h]
    rintro hnumber rfl
    exact hspecial hnumber value hsome
  · intro before transition _ h
    rw [← h]
    apply ThumbCore.read_congr
    cases transition <;> rfl
  · intro before h
    rw [← h]
    apply ThumbCore.read_congr
    rfl

theorem commit_psr {mask : Word} (hstatus : effects.status = none)
    (htransition : effects.transition = none) (hflags : Word.Clear effects.flags.mask (~~~mask))
    (hspecial : ∀ selector value, effects.special = some (selector, value) → selector < 4 →
      Word.Clear Psr.application (~~~mask)) :
  (effects.commit core).psr &&& ~~~mask = core.psr &&& ~~~mask
  := by
  apply effects.commit_keeps_of (P := fun after => after.psr &&& ~~~mask = core.psr &&& ~~~mask)
    _ _ _ _ _ _ rfl
  · intro before number value _ h
    rw [ThumbCore.psr_write_ofNumber, h]
  · intro before psr hsome
    rw [hstatus] at hsome
    cases hsome
  · intro before h
    rw [effects.flags.apply_outside hflags, h]
  · intro before selector value hsome h
    rw [before.psr_writeSpecial (hspecial selector value hsome), h]
  · intro before transition hsome
    rw [htransition] at hsome
    cases hsome
  · intro before h
    exact h

end Effects

end ThumbSoc
