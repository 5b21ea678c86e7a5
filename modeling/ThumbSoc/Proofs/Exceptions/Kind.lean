import ThumbSoc.Proofs.Transfer

/-!
# Kinds of effects

What the effects of an instruction have to do with exceptions. There are three kinds: effects
that have nothing to do with them, those of an entry, and those of a return, which only a core
that handles an exception can have. Only a return sets the whole status register.
-/

namespace ThumbSoc

namespace Effects

/-- Effects that neither set the whole status register nor change the level of exceptions. -/
def Plain (effects : Effects) : Prop :=
  effects.status = none ∧ effects.transition = none

/-- What the effects of an instruction on a core have to do with exceptions. -/
inductive Kind (core : ThumbCore) (effects : Effects) : Prop where
  | plain (plain : effects.Plain)
  | entering (number : UInt8) (status : effects.status = none)
      (transition : effects.transition = some (.enter number))
  | leaving (word : Word) (handling : core.inException = true)
      (status : effects.status = some (word &&& ~~~Psr.realigned))
      (transition : effects.transition = some .leave)

namespace Plain

variable {effects : Effects}

theorem goto (nextPc : Word) :
  (Effects.goto nextPc).Plain
  := And.intro rfl rfl

theorem jump (h : effects.Plain) (target : Word) :
  (effects.jump target).Plain
  := h

theorem write (h : effects.Plain) (number : Nat) (value : Word) :
  (effects.write number value).Plain
  := by
  rw [Effects.write]
  split
  · apply h
  · apply h

theorem write? (h : effects.Plain) (number : Option Nat) (value : Word) :
  (effects.write? number value).Plain
  := by
  cases number with
  | none => apply h
  | some number => apply h.write

theorem writeAll (h : effects.Plain) (writes : List (Nat × Word)) :
  (effects.writeAll writes).Plain
  := by
  induction writes generalizing effects with
  | nil => apply h
  | cons first rest ih => apply ih (h.write first.1 first.2)

theorem updatingFlags (h : effects.Plain) (i : Instruction) (update : FlagsUpdate) :
  (i.updatingFlags update effects).Plain
  := by
  rw [Instruction.updatingFlags]
  split
  · apply h
  · apply h

theorem yields {ε σ : Type} (core : ThumbCore) (h : effects.Plain) :
  Yields (Kind core) (pure effects : EStateM ε σ Effects)
  := by
  apply Yields.pure
  apply Kind.plain h

end Plain

end Effects

/-! ### Entry and return -/

namespace Exception

variable {effects : Effects} (core : ThumbCore)

theorem enter_kind (h : effects.Plain) (number : UInt8) :
  Yields (Effects.Kind core) (enter core number effects)
  := by
  apply Yields.bind
  intro _
  apply Yields.bind
  intro handler
  apply Yields.bind
  intro _
  apply Yields.pure
  apply Effects.Kind.entering number _ rfl
  apply h.1

theorem leave_kind (hhandling : core.inException = true) (start : Word) (effects : Effects) :
  Yields (Effects.Kind core) (leave start effects)
  := by
  apply Yields.bind
  intro words
  apply Yields.pure
  apply Effects.Kind.leaving _ hhandling rfl rfl

theorem branch_kind (h : effects.Plain) (target start : Word) :
  Yields (Effects.Kind core) (branch core target start effects)
  := by
  rw [branch]
  split
  · next hreturns => apply leave_kind _ (Bool.and_eq_true_iff.mp hreturns).1
  · apply Effects.Plain.yields core (h.jump target)

end Exception

/-! ### Instructions -/

namespace Instruction

variable (i : Instruction) (core : ThumbCore) (pc : Word)

theorem continuing_plain :
  (i.continuing pc).Plain
  := .goto _

theorem transferring_yields {P : Effects → Prop} {transfer : Transfer Effects}
    (h : Yields P transfer) :
  Yields P (transferring pc transfer)
  := by
  intro bus effects bus' htransfer
  apply h bus effects bus' (transferring_ok.mp htransfer)

theorem move_plain :
  (i.move core pc).Plain
  := ((i.continuing_plain pc).updatingFlags i _).write? _ _

theorem arithmetic_plain (operation : Word → Word → Sum) (destination : Option Nat) :
  (i.arithmetic core pc operation destination).Plain
  := ((i.continuing_plain pc).updatingFlags i _).write? _ _

theorem logical_plain (operation : Word → Word → Word) (destination : Option Nat) :
  (i.logical core pc operation destination).Plain
  := ((i.continuing_plain pc).updatingFlags i _).write? _ _

theorem load_kind :
  Yields (Effects.Kind core) (i.load core pc)
  := by
  rw [load]
  split
  · apply Effects.Plain.yields core (i.continuing_plain pc)
  · apply Yields.bind
    intro raw
    simp only
    split
    · apply Exception.branch_kind core (i.continuing_plain pc)
    · apply Effects.Plain.yields core ((i.continuing_plain pc).write _ _)

theorem loadMultiple_kind :
  Yields (Effects.Kind core) (i.loadMultiple core pc)
  := by
  rw [loadMultiple]
  split
  · apply Effects.Plain.yields core (i.continuing_plain pc)
  · apply Yields.bind
    intro values
    have hloaded := (i.continuing_plain pc).writeAll (i.registers.numbers.zip values)
    apply Effects.Plain.yields
    split
    · apply hloaded.write
    · apply hloaded

theorem pop_kind :
  Yields (Effects.Kind core) (i.pop core pc)
  := by
  apply Yields.bind
  intro values
  have hloaded (writes : List (Nat × Word)) (stop : Word) :
      (((i.continuing pc).writeAll writes).write 13 stop).Plain :=
    ((i.continuing_plain pc).writeAll writes).write 13 stop
  simp only
  split
  · apply Exception.branch_kind core (hloaded _ _)
  · apply Effects.Plain.yields core (hloaded _ _)

theorem store_kind :
  Yields (Effects.Kind core) (i.store core pc)
  := by
  apply Yields.bind
  intro _
  apply Effects.Plain.yields core (i.continuing_plain pc)

theorem storeMultiple_kind :
  Yields (Effects.Kind core) (i.storeMultiple core pc)
  := by
  rw [storeMultiple]
  split
  · apply Effects.Plain.yields core (i.continuing_plain pc)
  · apply Yields.bind
    intro stop
    apply Effects.Plain.yields
    split
    · apply (i.continuing_plain pc).write
    · apply i.continuing_plain pc

theorem push_kind :
  Yields (Effects.Kind core) (i.push core pc)
  := by
  apply Yields.bind
  intro _
  apply Effects.Plain.yields core ((i.continuing_plain pc).write _ _)

/-- The effects of every executed instruction are of one of the three kinds. -/
theorem execute_kind :
  Yields (Effects.Kind core) (i.execute core pc)
  := by
  rw [execute]
  cases i.opcode with
  | udf => rintro _ _ _ ⟨⟩
  | mov => apply Effects.Plain.yields core (i.move_plain core pc)
  | add | sub | cmp => apply Effects.Plain.yields core (i.arithmetic_plain core pc _ _)
  | and | orr | eor | tst => apply Effects.Plain.yields core (i.logical_plain core pc _ _)
  | bl | blx =>
    apply Effects.Plain.yields
    apply (i.continuing_plain pc).write
  | mrs => apply Effects.Plain.yields core ((i.continuing_plain pc).write? _ _)
  | b | msr | nop | wfi =>
    apply Effects.Plain.yields
    apply i.continuing_plain pc
  | bx => apply transferring_yields _ (Exception.branch_kind core (i.continuing_plain pc) _ _)
  | ldr => apply transferring_yields _ (i.load_kind core pc)
  | str => apply transferring_yields _ (i.store_kind core pc)
  | ldm => apply transferring_yields _ (i.loadMultiple_kind core pc)
  | stm => apply transferring_yields _ (i.storeMultiple_kind core pc)
  | push => apply transferring_yields _ (i.push_kind core pc)
  | pop => apply transferring_yields _ (i.pop_kind core pc)
  | svc => apply transferring_yields _ (Exception.enter_kind core (i.continuing_plain pc) _)

end Instruction

end ThumbSoc
