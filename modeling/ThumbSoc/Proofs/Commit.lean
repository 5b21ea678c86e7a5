import ThumbSoc.Effects

/-!
# Applying effects

Effects collect register writes and apply them together. Here a write that is added to the
effects is found to be a write to the core, so a chain of writes can be carried out one by one;
what is left of the effects changes no register. Effects that do nothing but write registers are
committed by carrying out their writes and setting the program counter.
-/

namespace ThumbSoc

/-! ### Reading and writing registers -/

theorem Register.ofNumber_inj :
  ∀ {i j : Fin 15}, Register.ofNumber i = Register.ofNumber j → i = j
  := by decide

theorem Register.ofNumber_ne (i : Fin 15) :
  Register.ofNumber i ≠ .pc ∧ Register.ofNumber i ≠ .psr
  := by decide +revert

theorem Register.ofNumber_general {i : Nat} (h : i < 13) :
  Register.ofNumber i = .general ⟨i, h⟩
  := by
  have hmod : i % 16 = i := by omega
  simp only [ofNumber, hmod, dif_pos h]

namespace ThumbCore

variable {core other : ThumbCore} {register register' : Register}

/-- The two registers that are not held as they are written are left out. -/
theorem read_write_self (hpc : register ≠ .pc) (hpsr : register ≠ .psr) (value : Word) :
  (core.write register value).read register = value
  := by
  cases register with
  | general n => apply Vector.getElem_set_self n.isLt
  | sp => rfl
  | lr => rfl
  | pc => contradiction
  | psr => contradiction

theorem read_write_ne (h : register ≠ register') (value : Word) :
  (core.write register value).read register' = core.read register'
  := by
  cases register with
  | general n =>
    cases register' with
    | general m =>
      apply Vector.getElem_set_ne n.isLt m.isLt
      intro heq
      apply h
      rw [Fin.ext heq]
    | _ => rfl
  | _ => cases register' <;> first | rfl | contradiction

/-- The core with all registers that effects can write cleared. -/
def rest (core : ThumbCore) : ThumbCore :=
  { core with general := Vector.replicate 13 0, sp := 0, lr := 0 }

theorem rest_write (core : ThumbCore) (number : Fin 15) (value : Word) :
  (core.write (.ofNumber number) value).rest = core.rest
  := by
  obtain ⟨hpc, hpsr⟩ := Register.ofNumber_ne number
  cases hregister : Register.ofNumber number with
  | general n => rfl
  | sp => rfl
  | lr => rfl
  | pc => contradiction
  | psr => contradiction

/-- A core is determined by the registers that effects can write and by the rest. -/
theorem ext_written (hrest : core.rest = other.rest)
    (h : ∀ number : Fin 15, core.read (.ofNumber number) = other.read (.ofNumber number)) :
  core = other
  := by
  have hgeneral : core.general = other.general := by
    apply Vector.ext
    intro i hi
    have hread := h ⟨i, by omega⟩
    rw [Register.ofNumber_general hi] at hread
    apply hread
  have hsp : core.sp = other.sp := h 13
  have hlr : core.lr = other.lr := h 14
  obtain ⟨⟩ := core
  obtain ⟨⟩ := other
  simp only [rest, mk.injEq] at hrest hgeneral hsp hlr ⊢
  apply And.intro hgeneral
  apply And.intro hsp
  apply And.intro hlr hrest.2.2.2

end ThumbCore

namespace Effects

variable {core : ThumbCore} {effects : Effects}

/-! ### The register writes together -/

/-- The core after the write to one register, if there is one. -/
def visit (effects : Effects) (core : ThumbCore) (number : Fin 15) : ThumbCore :=
  match effects.writes.get number with
  | some value => core.write (.ofNumber number) value
  | none => core

theorem applyWrites_eq (effects : Effects) (core : ThumbCore) :
  effects.applyWrites core = (List.finRange 15).foldl effects.visit core
  := rfl

theorem rest_visit (effects : Effects) (core : ThumbCore) (number : Fin 15) :
  (effects.visit core number).rest = core.rest
  := by
  rw [visit]
  split
  · apply ThumbCore.rest_write
  · rfl

theorem read_visit_self (number : Fin 15) :
  (effects.visit core number).read (.ofNumber number)
    = (effects.writes.get number).getD (core.read (.ofNumber number))
  := by
  obtain ⟨hpc, hpsr⟩ := Register.ofNumber_ne number
  rw [visit]
  split
  · next value hvalue => rw [hvalue, ThumbCore.read_write_self hpc hpsr, Option.getD_some]
  · next hnone => rw [hnone, Option.getD_none]

theorem read_visit_ne {number other : Fin 15} (h : other ≠ number) :
  (effects.visit core other).read (.ofNumber number) = core.read (.ofNumber number)
  := by
  rw [visit]
  split
  · apply ThumbCore.read_write_ne
    intro heq
    apply h (Register.ofNumber_inj heq)
  · rfl

theorem rest_foldl_visit (visited : List (Fin 15)) :
  (visited.foldl effects.visit core).rest = core.rest
  := by
  induction visited generalizing core with
  | nil => rfl
  | cons first later ih => rw [List.foldl_cons, ih, rest_visit]

/-- Visiting some registers changes no others. -/
theorem read_foldl_visit_of_notMem {visited : List (Fin 15)} {number : Fin 15}
    (h : number ∉ visited) :
  (visited.foldl effects.visit core).read (.ofNumber number) = core.read (.ofNumber number)
  := by
  induction visited generalizing core with
  | nil => rfl
  | cons first rest ih =>
    rw [List.mem_cons, not_or] at h
    obtain ⟨hne, hrest⟩ := h
    rw [List.foldl_cons, ih hrest, read_visit_ne (Ne.symm hne)]

theorem read_foldl_visit_of_mem {visited : List (Fin 15)} {number : Fin 15}
    (h : number ∈ visited) :
  (visited.foldl effects.visit core).read (.ofNumber number)
    = (effects.writes.get number).getD (core.read (.ofNumber number))
  := by
  induction visited generalizing core with
  | nil => cases h
  | cons first rest ih =>
    rw [List.foldl_cons]
    rcases Decidable.em (number ∈ rest) with hrest | hrest
    · rw [ih hrest]
      rcases Decidable.em (first = number) with rfl | hne
      -- Visiting the register again does not change it.
      · rw [read_visit_self]
        cases effects.writes.get first <;> rfl
      · rw [read_visit_ne hne]
    · obtain rfl | hmem := List.mem_cons.mp h
      · rw [read_foldl_visit_of_notMem hrest, read_visit_self]
      · exact absurd hmem hrest

theorem rest_applyWrites (effects : Effects) (core : ThumbCore) :
  (effects.applyWrites core).rest = core.rest
  := by
  rw [applyWrites_eq, rest_foldl_visit]

/-- A register holds what was written to it last, or what it held. -/
theorem read_applyWrites (effects : Effects) (core : ThumbCore) (number : Fin 15) :
  (effects.applyWrites core).read (.ofNumber number)
    = (effects.writes.get number).getD (core.read (.ofNumber number))
  := by
  rw [applyWrites_eq, read_foldl_visit_of_mem (List.mem_finRange number)]

/-! ### The register writes one by one -/

theorem applyWrites_goto (nextPc : Word) (core : ThumbCore) :
  (goto nextPc).applyWrites core = core
  := by
  apply ThumbCore.ext_written (rest_applyWrites _ _)
  intro number
  have hnone : (goto nextPc).writes.get number = none := Vector.getElem_replicate number.isLt
  rw [read_applyWrites, hnone, Option.getD_none]

/-- A write that is added last is carried out last. -/
theorem applyWrites_write (effects : Effects) (core : ThumbCore) {number : Nat}
    (h : number < 15) (value : Word) :
  (effects.write number value).applyWrites core
    = (effects.applyWrites core).write (.ofNumber number) value
  := by
  obtain ⟨hpc, hpsr⟩ := Register.ofNumber_ne ⟨number, h⟩
  apply ThumbCore.ext_written
  · rw [rest_applyWrites, ThumbCore.rest_write _ ⟨number, h⟩, rest_applyWrites]
  intro other
  rw [read_applyWrites, write, dif_pos h]
  rcases Decidable.em (number = other) with rfl | hne
  · rw [ThumbCore.read_write_self hpc hpsr]
    have hwritten : (effects.writes.set other (some value) h).get other = some value :=
      Vector.getElem_set_self h
    rw [hwritten, Option.getD_some]
  · have hkept : (effects.writes.set number (some value) h).get other = effects.writes.get other :=
      Vector.getElem_set_ne h other.isLt hne
    rw [hkept, ThumbCore.read_write_ne, read_applyWrites]
    intro heq
    apply hne (congrArg Fin.val (Register.ofNumber_inj (i := ⟨number, h⟩) heq))

/-! ### Nothing but register writes -/

section

variable {nextPc : Word}

/-- Effects that write registers, continue at `nextPc`, and do nothing else. -/
def WritesOnly (effects : Effects) (nextPc : Word) : Prop :=
  ∃ writes, effects = { goto nextPc with writes }

namespace WritesOnly

theorem goto (nextPc : Word) :
  (Effects.goto nextPc).WritesOnly nextPc
  := ⟨_, rfl⟩

theorem write (h : effects.WritesOnly nextPc) {number : Nat} (hnumber : number < 15)
    (value : Word) :
  (effects.write number value).WritesOnly nextPc
  := by
  obtain ⟨writes, rfl⟩ := h
  exact ⟨_, dif_pos hnumber⟩

theorem writeAll (h : effects.WritesOnly nextPc) (value : Nat → Word) {numbers : List Nat}
    (hlow : ∀ n ∈ numbers, n < 13) :
  (effects.writeAll (numbers.map fun n => (n, value n))).WritesOnly nextPc
  := by
  induction numbers generalizing effects with
  | nil => exact h
  | cons first rest ih =>
    rw [List.forall_mem_cons] at hlow
    have hfirst : first < 15 := by omega
    apply ih (h.write hfirst (value first)) hlow.2

theorem jump (h : effects.WritesOnly nextPc) (target : Word) :
  (effects.jump target).WritesOnly (Word.even target)
  := by
  obtain ⟨writes, rfl⟩ := h
  exact ⟨writes, rfl⟩

theorem commit (h : effects.WritesOnly nextPc) (core : ThumbCore) :
  effects.commit core = (effects.applyWrites core).setPc nextPc
  := by
  obtain ⟨writes, rfl⟩ := h
  rfl

end WritesOnly

end

end Effects

end ThumbSoc
