import Mathlib.Data.Nat.Init
import ThumbSoc.Core
import ThumbSoc.Effects
import ThumbSoc.Proofs.Word

/-!
# Sound cores

A core is sound if its registers have the form in which the operations of the library hold
them: the program counter is even, the special registers are no wider than they should be, the
count of exception levels agrees with the flag, and what no operation changes is as after a
reset. Whatever effects an instruction has, applying them to a sound core gives a sound core.
-/

namespace ThumbSoc

namespace ThumbCore

/-- The registers of a Thumb core are well formed, and its vector table lies at
`vectorTable`. -/
structure Sound (vectorTable : Word) (core : ThumbCore) : Prop where
  pc : core.pc.toNat % 2 = 0
  exception : core.inException = true ↔ 0 < core.exceptionLevel
  vtor : core.vtor = vectorTable
  thumbMode : core.thumbMode = true
  primask : core.primask ≤ 1
  faultmask : core.faultmask ≤ 1
  control : core.control ≤ 3
  basepri : core.basepri ≤ 0xFF
  psp : core.psp.toNat % 4 = 0

end ThumbCore

/-- The program counter of a hart is even, and `x0` is zero. -/
structure Hart.Sound (hart : Hart) : Prop where
  pc : hart.pc.toNat % 2 = 0
  zero : hart.x[0] = 0

/-- The registers of a core are well formed. -/
def Core.Sound (vectorTable : Word) : Core → Prop
  | .thumb core => core.Sound vectorTable
  | .hart h => h.Sound

theorem Word.and_not_three_aligned (w : Word) :
  (w &&& ~~~3).toNat % 4 = 0
  := by
  rw [Word.toNat_and_not_three]
  omega

/-! ### Operations on a Thumb core -/

namespace ThumbCore.Sound

variable {vectorTable : Word} {core : ThumbCore}

theorem reset (vectorTable sp : Word) :
  { ThumbCore.reset sp with vtor := vectorTable }.Sound vectorTable
  where
  pc := rfl
  exception := iff_of_false Bool.false_ne_true (UInt8.lt_irrefl 0)
  vtor := rfl
  thumbMode := rfl
  primask := UInt32.zero_le
  faultmask := UInt32.zero_le
  control := UInt32.zero_le
  basepri := UInt32.zero_le
  psp := rfl

theorem setPc (h : core.Sound vectorTable) (value : Word) :
  (core.setPc value).Sound vectorTable
  := { h with pc := Word.even_even value }

/-- Nothing is asked of the status register. -/
theorem withPsr (h : core.Sound vectorTable) (psr : Word) :
  { core with psr }.Sound vectorTable
  := { h with }

theorem write (h : core.Sound vectorTable) (register : Register) (value : Word) :
  (core.write register value).Sound vectorTable
  := by
  cases register with
  | pc => apply h.setPc
  | psr => apply h.withPsr
  | general n => exact { h with }
  | sp => exact { h with }
  | lr => exact { h with }

theorem raisedBasepri_le {current value : Word} (hcurrent : current ≤ 0xFF)
    (hvalue : value ≤ 0xFF) :
  raisedBasepri current value ≤ 0xFF
  := by
  rw [raisedBasepri]
  split
  · apply hvalue
  · apply hcurrent

theorem writeSpecial (h : core.Sound vectorTable) (selector : Nat) (value : Word) :
  (core.writeSpecial selector value).Sound vectorTable
  := by
  rw [ThumbCore.writeSpecial]
  split
  · apply h.withPsr
  · apply h
  · exact { h with }
  · exact { h with psp := Word.and_not_three_aligned value }
  · exact { h with primask := UInt32.and_le_right }
  · exact { h with basepri := UInt32.and_le_right }
  · exact { h with basepri := raisedBasepri_le h.basepri UInt32.and_le_right }
  · exact { h with faultmask := UInt32.and_le_right }
  · exact { h with control := UInt32.and_le_right }
  · apply h

theorem flags (h : core.Sound vectorTable) (update : FlagsUpdate) :
  (update.apply core).Sound vectorTable
  := by
  cases update with
  | keep => apply h
  | logical => apply h.withPsr
  | arithmetic => apply h.withPsr

/-- The count of levels and the flag move together. -/
theorem transition (h : core.Sound vectorTable) (transition : Transition) :
  (transition.apply core).Sound vectorTable
  := by
  cases transition with
  | enter number =>
    have hlevel : 0 < if core.exceptionLevel = 255 then 255 else core.exceptionLevel + 1 := by
      split
      · decide
      · next hmax =>
        rw [UInt8.lt_iff_toNat_lt, UInt8.toNat_add]
        rw [← UInt8.toNat_inj] at hmax
        have hbound := core.exceptionLevel.toNat_lt
        simp only [UInt8.reduceToNat] at hmax ⊢
        omega
    exact { h with exception := iff_of_true rfl hlevel }
  | leave =>
    have hlevel (level : UInt8) : decide (level ≠ 0) = true ↔ 0 < level := by
      rw [decide_eq_true_iff, UInt8.pos_iff_ne_zero]
    exact { h with exception := hlevel _ }

end ThumbCore.Sound

/-! ### Operations on any core -/

namespace Hart.Sound

variable {hart : Hart}

theorem reset (sp : Word) :
  (Hart.reset sp).Sound
  where
  pc := rfl
  zero := rfl

theorem setPc (h : hart.Sound) (value : Word) :
  (hart.setPc value).Sound
  := { h with pc := Word.even_even value }

/-- A register other than `x0` can be set. -/
theorem set (h : hart.Sound) {index : Nat} (hpos : index ≠ 0) (hlt : index < 32) (value : Word) :
  { hart with x := hart.x.set index value }.Sound
  where
  pc := h.pc
  zero := (Vector.getElem_set_ne hlt (by decide) hpos).trans h.zero

theorem write? (h : hart.Sound) {index : Nat} {value : Word} {after : Hart}
    (hwrite : hart.write? index value = some after) :
  after.Sound
  := by
  rw [Hart.write?] at hwrite
  split at hwrite
  · cases hwrite
    apply h
  · next hpos =>
    split at hwrite
    · next hlt =>
      cases hwrite
      apply h.set hpos hlt
    · split at hwrite
      · cases hwrite
        apply h.setPc
      · cases hwrite
        exact { h with }
      · cases hwrite

end Hart.Sound

namespace Core.Sound

variable {vectorTable : Word} {core : Core}

theorem setPc (h : core.Sound vectorTable) (value : Word) :
  (core.setPc value).Sound vectorTable
  := by
  cases core with
  | thumb core => apply ThumbCore.Sound.setPc h
  | hart hart => apply Hart.Sound.setPc h

theorem setSp (h : core.Sound vectorTable) (value : Word) :
  (core.setSp value).Sound vectorTable
  := by
  cases core with
  | thumb core => apply ThumbCore.Sound.write h .sp
  | hart hart => apply Hart.Sound.set h (by decide) (by decide)

theorem write? (h : core.Sound vectorTable) {index : Nat} {value : Word} {after : Core}
    (hwrite : core.write? index value = some after) :
  after.Sound vectorTable
  := by
  cases core with
  | thumb core =>
    obtain ⟨register, _, rfl⟩ := Option.map_eq_some_iff.mp hwrite
    apply ThumbCore.Sound.write h
  | hart hart =>
    obtain ⟨after, hafter, rfl⟩ := Option.map_eq_some_iff.mp hwrite
    apply Hart.Sound.write? h hafter

end Core.Sound

/-! ### Effects -/

/-- What every single change that is asked for keeps is kept by applying the effects. -/
theorem Effects.commit_keeps_of {P : ThumbCore → Prop} {core : ThumbCore} (effects : Effects)
    (hwrite : ∀ core (i : Fin 15) value, effects.writes.get i = some value → P core →
      P (core.write (Register.ofNumber i) value))
    (hstatus : ∀ core psr, effects.status = some psr → P core → P { core with psr })
    (hflags : ∀ core, P core → P (effects.flags.apply core))
    (hspecial : ∀ core selector value, effects.special = some (selector, value) → P core →
      P (core.writeSpecial selector value))
    (htransition : ∀ core transition, effects.transition = some transition → P core →
      P (Transition.apply core transition))
    (hpc : ∀ core, P core → P (core.setPc effects.nextPc)) (h : P core) :
  P (effects.commit core)
  := by
  have hwrites : P (effects.applyWrites core) := by
    apply List.foldlRecOn _ _ h
    intro core hcore i _
    split
    · next hsome => apply hwrite core i _ hsome hcore
    · apply hcore
  rw [commit]
  apply hpc
  split
  any_goals apply htransition _ _ (by assumption)
  all_goals
    split
    any_goals apply hspecial _ _ _ (by assumption)
    all_goals
      apply hflags
      split
      · next hsome => apply hstatus _ _ hsome hwrites
      · apply hwrites

/-- What every single change keeps is kept by applying the effects. -/
theorem Effects.commit_keeps {P : ThumbCore → Prop} {core : ThumbCore} (effects : Effects)
    (hwrite : ∀ core (i : Fin 15) value, P core → P (core.write (Register.ofNumber i) value))
    (hstatus : ∀ core psr, effects.status = some psr → P core → P { core with psr })
    (hflags : ∀ core, P core → P (effects.flags.apply core))
    (hspecial : ∀ core selector value, P core → P (core.writeSpecial selector value))
    (htransition : ∀ core transition, P core → P (Transition.apply core transition))
    (hpc : ∀ core value, P core → P (core.setPc value)) (h : P core) :
  P (effects.commit core)
  := effects.commit_keeps_of (fun core i value _ => hwrite core i value) hstatus hflags
    (fun core selector value _ => hspecial core selector value)
    (fun core transition _ => htransition core transition) (fun core => hpc core _) h

/-- Any effects on a sound core give a sound core. -/
theorem ThumbCore.Sound.commit {vectorTable : Word} {core : ThumbCore}
    (h : core.Sound vectorTable) (effects : Effects) :
  (effects.commit core).Sound vectorTable
  := by
  apply effects.commit_keeps _ _ _ _ _ _ h
  · intro core i value hcore
    apply hcore.write
  · intro core psr _ hcore
    apply hcore.withPsr
  · intro core hcore
    apply hcore.flags
  · intro core selector value hcore
    apply hcore.writeSpecial
  · intro core transition hcore
    apply hcore.transition
  · intro core value hcore
    apply hcore.setPc

end ThumbSoc
