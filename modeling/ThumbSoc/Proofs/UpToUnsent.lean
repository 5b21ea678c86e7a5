import ThumbSoc.Proofs.Bus.Unsent
import ThumbSoc.Proofs.CoreStep

/-!
# Execution up to unsent bytes

An instruction does the same on two buses that differ in the transmit queue of the first serial
port, unless it is executed and one of its loads shows the status register of that port. In
particular an instruction that faults on one of them faults on the other one in the same way: a
value that the status register shows leaves no exception, so that no further transfer depends on
it.
-/

namespace ThumbSoc

open Bus

/-! ### Branches -/

theorem Exception.isReturn_of_lt {target : Word} (h : target.toNat < 256) :
  Exception.isReturn target = false
  := by
  cases hreturn : Exception.isReturn target with
  | false => rfl
  | true => exact absurd h (Nat.not_lt.mpr (Exception.isReturn_ge hreturn))

/-- Branches to targets that are close have the same effects, if the targets and the effects before
are the same, unless the frame shows the status register. -/
theorem Exception.branch_unsent {bus other : Bus} (h : bus.UpToUnsent other) (core : ThumbCore)
    {target target' : Word} (htargets : Close target target') (start : Word)
    (effects effects' : Effects) :
  Agree (fun after after' => target = target' → effects = effects' →
      bus.SameUnlessShown (branchLoads core target start) after after')
    UpToUnsent (branch core target start effects bus) (branch core target' start effects' other)
  := by
  rcases htargets with rfl | ⟨hlt, hlt'⟩
  · rw [branch, branch, branchLoads]
    split
    · apply (h.readWords start frameWords).bind
      rintro words words' last last' _ ⟨_, hwords⟩ hlast
      apply Agree.ok _ hlast
      rintro _ rfl
      exact hwords.congr (by rintro rfl; rfl)
    · apply Agree.ok _ h
      rintro _ rfl
      exact .inl rfl
  · rw [branch, branch, isReturn_of_lt hlt, isReturn_of_lt hlt', Bool.and_false]
    apply Agree.ok _ h
    rintro rfl rfl
    exact .inl rfl

namespace Instruction

variable {i : Instruction} {core : ThumbCore} {pc : Word} {bus other : Bus}

/-! ### Single operations -/

theorem load_unsent (h : bus.UpToUnsent other) (hsigned : i.signed = true → i.rd ≠ some 15) :
  Agree (bus.SameUnlessShown (i.loadLoads core pc bus)) UpToUnsent (i.load core pc bus)
    (i.load core pc other)
  := by
  rw [load, loadLoads]
  cases hrd : i.rd with
  | none => exact .ok (.inl rfl) h
  | some rt =>
    apply (h.read (i.address core pc) i.width).bind
    rintro raw raw' mid mid' hread ⟨hclose, hvalues⟩ hmid
    simp only [hread]
    split
    · next hbranch =>
      have hunsigned : i.signed = false := by
        cases hs : i.signed with
        | false => rfl
        | true => exact absurd (hrd.trans (congrArg some hbranch)) (hsigned hs)
      simp only [hunsigned, loadedValue, Bool.false_eq_true, if_false]
      apply (Exception.branch_unsent hmid core hclose _ _ _).mono
      intro after after' hafter
      rw [SameUnlessShown, showsStatus_read hread] at hafter
      exact hvalues.append (fun heq => hafter heq rfl)
    · apply Agree.ok _ hmid
      apply hvalues.append
      rintro rfl
      exact .inl rfl

theorem loadMultiple_unsent (h : bus.UpToUnsent other) {rn : Nat} (hrn : i.rn = some rn) :
  Agree (bus.SameUnlessShown (wordLoads (core.operand pc rn) i.registers.size)) UpToUnsent
    (i.loadMultiple core pc bus) (i.loadMultiple core pc other)
  := by
  rw [loadMultiple, hrn]
  apply (h.readWords (core.operand pc rn) i.registers.size).bind
  rintro values values' mid mid' _ ⟨_, hvalues⟩ hmid
  exact .ok (hvalues.congr (by rintro rfl; rfl)) hmid

/-- Values that are close belong to the same numbers. -/
theorem lookup_close {numbers : List Nat} {values values' : List Word}
    (h : List.Forall₂ Close values values') (number : Nat) :
  Option.Rel Close ((numbers.zip values).lookup number) ((numbers.zip values').lookup number)
  := by
  induction h generalizing numbers with
  | nil =>
    rw [List.zip_nil_right]
    exact .none
  | cons hclose hrest ih =>
    cases numbers with
    | nil => exact .none
    | cons n numbers =>
      simp only [List.zip_cons_cons, List.lookup_cons]
      split
      · exact .some hclose
      · exact ih

theorem pop_unsent (h : bus.UpToUnsent other) :
  Agree (bus.SameUnlessShown (i.popLoads core bus)) UpToUnsent (i.pop core pc bus)
    (i.pop core pc other)
  := by
  rw [pop, popLoads]
  apply (h.readWords core.sp i.registers.size).bind
  rintro values values' mid mid' hread ⟨hclose, hvalues⟩ hmid
  have hlookup : Option.Rel Close ((i.registers.numbers.zip values).lookup 15)
      ((i.registers.numbers.zip values').lookup 15) := lookup_close hclose 15
  simp only [hread]
  generalize htarget : (i.registers.numbers.zip values).lookup 15 = target at hlookup
  generalize htarget' : (i.registers.numbers.zip values').lookup 15 = target' at hlookup
  cases hlookup with
  | none =>
    apply Agree.ok _ hmid
    apply hvalues.append
    rintro rfl
    exact .inl rfl
  | some htargets =>
    apply (Exception.branch_unsent hmid core htargets _ _ _).mono
    intro after after' hafter
    rw [SameUnlessShown, showsStatus_readWords hread] at hafter
    apply hvalues.append
    rintro rfl
    rw [htarget] at htarget'
    exact hafter (Option.some.inj htarget') rfl

theorem enter_unsent (h : bus.UpToUnsent other) (core : ThumbCore) (number : UInt8)
    (effects : Effects) :
  Agree (bus.SameUnlessShown [⟨core.vtor + 4 * number.toUInt32, .word⟩]) UpToUnsent
    (Exception.enter core number effects bus) (Exception.enter core number effects other)
  := by
  apply (h.probeWords _ _).bind
  intro _ _ checked checked' hprobe _ hchecked
  obtain ⟨rfl, _⟩ := probeWords_ok hprobe
  apply (hchecked.read _ _).bind
  rintro handler handler' mid mid' _ ⟨_, hhandler⟩ hmid
  apply (hmid.storeWords _ _).bind
  intro _ _ last last' _ _ hlast
  exact .ok (hhandler.congr (by rintro rfl; rfl)) hlast

theorem transferring_unsent {α : Type} {V : α → α → Prop} {transfer transfer' : Transfer α}
    (h : Agree V UpToUnsent (transfer bus) (transfer' other)) (pc : Word) :
  Agree V UpToUnsent (transferring pc transfer bus) (transferring pc transfer' other)
  := by
  simp only [transferring]
  generalize transfer bus = result at h ⊢
  generalize transfer' other = result' at h ⊢
  cases h with
  | ok values states => exact .ok values states
  | error e states => exact .error _ states

/-! ### Execution -/

/-- An instruction that stores words agrees with itself. -/
theorem storeMultiple_unsent (h : bus.UpToUnsent other) :
  Agree Eq UpToUnsent (i.storeMultiple core pc bus) (i.storeMultiple core pc other)
  := by
  rw [storeMultiple]
  cases i.rn with
  | none => exact .ok rfl h
  | some rn =>
    apply (h.storeWords _ _).bind
    rintro stop _ mid mid' _ rfl hmid
    exact .ok rfl hmid

theorem execute_unsent (h : bus.UpToUnsent other) (hsigned : i.signed = true → i.rd ≠ some 15) :
  Agree (bus.SameUnlessShown (i.loads core pc bus)) UpToUnsent (i.execute core pc bus)
    (i.execute core pc other)
  := by
  have same {result result' : EStateM.Result CoreFault Bus Effects}
      (hsame : Agree Eq UpToUnsent result result') :
      Agree (bus.SameUnlessShown (i.loads core pc bus)) UpToUnsent result result' :=
    hsame.mono fun _ _ => .inl
  cases hopcode : i.opcode with
  | ldr =>
    simp only [execute, loads, hopcode]
    exact transferring_unsent (load_unsent h hsigned) pc
  | ldm =>
    simp only [execute, loads, hopcode]
    apply transferring_unsent _ pc
    cases hrn : i.rn with
    | none =>
      rw [loadMultiple, hrn]
      exact .ok (.inl rfl) h
    | some rn => exact loadMultiple_unsent h hrn
  | pop =>
    simp only [execute, loads, hopcode]
    exact transferring_unsent (pop_unsent h) pc
  | bx =>
    simp only [execute, loads, hopcode]
    apply transferring_unsent _ pc
    apply (Exception.branch_unsent h core (.inl rfl) _ _ _).mono
    intro after after' hafter
    exact hafter rfl rfl
  | svc =>
    simp only [execute, loads, hopcode]
    exact transferring_unsent (enter_unsent h core _ _) pc
  | str =>
    apply same
    simp only [execute, hopcode]
    apply transferring_unsent _ pc
    apply (h.write _ _ _).bind
    intro _ _ mid mid' _ _ hmid
    exact .ok rfl hmid
  | stm =>
    apply same
    simp only [execute, hopcode]
    exact transferring_unsent (storeMultiple_unsent h) pc
  | push =>
    apply same
    simp only [execute, hopcode]
    apply transferring_unsent _ pc
    apply (h.storeWords _ _).bind
    intro _ _ mid mid' _ _ hmid
    exact .ok rfl hmid
  | udf =>
    apply same
    simp only [execute, hopcode]
    exact .error _ h
  | _ =>
    apply same
    simp only [execute, hopcode]
    exact .ok rfl h

end Instruction

/-! ### Steps -/

/-- Instructions are fetched from memory. -/
theorem Bus.UpToUnsent.instructionAt {bus other : Bus} (h : bus.UpToUnsent other) (pc : Word) :
  bus.instructionAt pc = other.instructionAt pc
  := by
  have hfetch : bus.fetch = other.fetch := by
    funext address
    simp only [Bus.fetch, h.route, h.sram]
  simp only [Bus.instructionAt, Bus.fetchEncoding, hfetch]

namespace ThumbCore

/-- The loads of the instruction that a step of a core executes, if it executes one. -/
def loads (core : ThumbCore) (breakpoints : Breakpoints) (armed : Option Word) (bus : Bus) :
    List Load :=
  match core.step breakpoints armed bus with
  | .ok (.executed i _ _) _ => i.loads core core.pc bus
  | _ => []

theorem loads_of_executed {core : ThumbCore} {breakpoints : Breakpoints} {armed : Option Word}
    {bus bus' : Bus} {i : Instruction} {sleeps : Bool} {after : ThumbCore}
    (h : core.step breakpoints armed bus = .ok (.executed i sleeps after) bus') :
  core.loads breakpoints armed bus = i.loads core core.pc bus
  := by rw [loads, h]

/-- A core loads nothing if the instruction on which it stands does not. -/
theorem loads_eq_nil {core : ThumbCore} {bus : Bus} {i : Instruction}
    (hi : bus.instructionAt core.pc = .ok i) (hnone : i.loads core core.pc bus = [])
    (breakpoints : Breakpoints) (armed : Option Word) :
  core.loads breakpoints armed bus = []
  := by
  rw [loads]
  split
  · next h =>
    rcases step_ok h with ⟨hresult, _⟩ | ⟨_, _, _, hresult, _⟩ | ⟨_, _, hperforms, _, hresult⟩
    · cases hresult
    · cases hresult
    · cases hresult
      rw [hperforms.1] at hi
      cases hi
      exact hnone
  · rfl

section Step

variable {core : ThumbCore} {breakpoints : Breakpoints} {armed : Option Word} {bus : Bus}

theorem step_of_fault {fault : CoreFault}
    (hgoes : ¬(armed ≠ some core.pc ∧ breakpoints.contains core.pc))
    (hi : bus.instructionAt core.pc = .error fault) :
  core.step breakpoints armed bus = .error fault bus
  := by simp only [step, if_neg hgoes, hi]

theorem step_of_instruction {i : Instruction}
    (hgoes : ¬(armed ≠ some core.pc ∧ breakpoints.contains core.pc))
    (hi : bus.instructionAt core.pc = .ok i) :
  core.step breakpoints armed bus = core.perform i bus
  := by simp only [step, if_neg hgoes, hi]

end Step

/-- A step in which no executed load shows the status register does the same up to unsent
bytes. -/
theorem step_unsent {bus other : Bus} (h : bus.UpToUnsent other) (core : ThumbCore)
    (breakpoints : Breakpoints) (armed : Option Word)
    (hquiet : ∀ load ∈ core.loads breakpoints armed bus, bus.showsStatus load = false) :
  Agree Eq UpToUnsent (core.step breakpoints armed bus) (core.step breakpoints armed other)
  := by
  by_cases hstands : armed ≠ some core.pc ∧ breakpoints.contains core.pc
  · rw [step_eq_breakpoint_iff.mpr ⟨hstands, rfl⟩, step_eq_breakpoint_iff.mpr ⟨hstands, rfl⟩]
    exact .ok rfl h
  · have hsame := h.instructionAt core.pc
    cases hi : bus.instructionAt core.pc with
    | error fault =>
      rw [hi] at hsame
      rw [step_of_fault hstands hi, step_of_fault hstands hsame.symm]
      exact .error fault h
    | ok i =>
      rw [hi] at hsame
      have hstep := step_of_instruction hstands hi
      rw [hstep, step_of_instruction hstands hsame.symm]
      cases hholds : i.condition.holds core.flags with
      | false =>
        simp only [perform, hholds, Bool.false_eq_true, if_false]
        exact .ok rfl h
      | true =>
        have hperforms : core.Performs bus i := ⟨hi, hholds⟩
        have hperform : core.perform i = do
            let effects ← i.execute core core.pc
            return .executed i effects.sleeps (effects.commit core) := by
          rw [perform, if_pos hholds]
        rw [hperform] at hstep ⊢
        apply (Instruction.execute_unsent h hperforms.signed).bind
        intro effects effects' after after' hexecute heffects hafter
        rw [bind_of_ok _ hexecute] at hstep
        rcases heffects with rfl | ⟨load, hmem, hload⟩
        · exact .ok rfl hafter
        · rw [← loads_of_executed hstep] at hmem
          rw [hquiet load hmem] at hload
          cases hload

end ThumbCore

end ThumbSoc
