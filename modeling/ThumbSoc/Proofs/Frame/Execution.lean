import ThumbSoc.Proofs.BlockTransfer.Decoding
import ThumbSoc.Proofs.Encoding.Operands
import ThumbSoc.Proofs.Exceptions.Kind
import ThumbSoc.Proofs.Frame.Commit

/-!
# What an instruction can reach

Its fields tell which registers an instruction may write, which bits of the status register it may
change, and whether execution may go on elsewhere than behind it. The effects of an instruction are
within these bounds, unless it enters or leaves an exception.
-/

namespace ThumbSoc

namespace Instruction

variable (i : Instruction)

/-- The registers, by number, that the instruction may write. -/
def written : List Nat :=
  match i.opcode with
  | .mov | .add | .sub | .and | .orr | .eor | .ldr | .mrs => i.rd.toList
  | .ldm => i.registers.numbers ++ if i.writeback then i.rn.toList else []
  | .stm => i.rn.toList
  | .push => [13]
  | .pop => 13 :: i.registers.numbers
  | .bl | .blx => [14]
  | .msr => if i.selector = 8 then [13] else []
  | _ => []

/-- The bits of the status register that the instruction may change. -/
def statusMask : Word :=
  match i.opcode with
  | .add | .sub | .cmp => if i.setFlags then Psr.n ||| Psr.z ||| Psr.c ||| Psr.v else 0
  | .mov | .and | .orr | .eor | .tst => if i.setFlags then Psr.n ||| Psr.z ||| Psr.c else 0
  | .msr => if i.selector < 4 then Psr.application else 0
  | _ => 0

/-- Execution may go on elsewhere than behind the instruction. -/
def Diverts : Prop :=
  i.opcode ∈ [.b, .bl, .bx, .blx] ∨ i.rd = some 15
    ∨ i.opcode = .pop ∧ i.registers.contains 15 = true

end Instruction

namespace Effects

/-- Effects that stay within the bounds of an instruction at `pc`, which is no call of the
supervisor. -/
structure Within (i : Instruction) (pc : Word) (effects : Effects) : Prop where
  call : i.opcode ≠ .svc
  status : effects.status = none
  transition : effects.transition = none
  written : ∀ number : Fin 15, number.val ∉ i.written → effects.writes.get number = none
  flags : Word.Clear effects.flags.mask (~~~i.statusMask)
  special : ∀ selector value, effects.special = some (selector, value) →
    i.opcode = .msr ∧ selector = i.selector
  next : ¬ i.Diverts → effects.nextPc = i.next pc

/-- The effects of an instruction: either within its bounds, or those of an entry into an exception
or of a return from one. -/
inductive Bounded (i : Instruction) (core : ThumbCore) (pc : Word) (effects : Effects) : Prop where
  | within (within : effects.Within i pc)
  | entering (number : UInt8) (call : i.opcode = .svc) (special : effects.special = none)
      (transition : effects.transition = some (.enter number))
  | leaving (handling : core.inException = true) (diverts : i.Diverts)
      (special : effects.special = none) (transition : effects.transition = some .leave)

theorem special_write (effects : Effects) (number : Nat) (value : Word) :
  (effects.write number value).special = effects.special
  := by
  rw [write]
  split
  · rfl
  · rfl

theorem special_writeAll (effects : Effects) (writes : List (Nat × Word)) :
  (effects.writeAll writes).special = effects.special
  := by
  induction writes generalizing effects with
  | nil => rfl
  | cons first rest ih =>
    rw [← special_write effects first.1 first.2]
    apply ih

namespace Within

variable {i : Instruction} {pc : Word} {effects : Effects}

theorem continuing (hcall : i.opcode ≠ .svc) :
  (i.continuing pc).Within i pc
  where
  call := hcall
  status := rfl
  transition := rfl
  written number _ := Vector.getElem_replicate number.isLt
  flags := by
    change ~~~i.statusMask &&& 0 = 0
    exact UInt32.and_zero
  special := by rintro _ _ ⟨⟩
  next _ := rfl

theorem special_none (h : effects.Within i pc) (hopcode : i.opcode ≠ .msr) :
  effects.special = none
  := by
  apply Option.eq_none_iff_forall_ne_some.mpr
  rintro ⟨selector, value⟩ hsome
  exact hopcode (h.special selector value hsome).1

theorem jump (h : effects.Within i pc) (hdiverts : i.Diverts) (target : Word) :
  (effects.jump target).Within i pc
  := { h with next := fun hstays => absurd hdiverts hstays }

theorem write (h : effects.Within i pc) {number : Nat} (hlt : number < 15)
    (hwritten : number ∈ i.written) (value : Word) :
  (effects.write number value).Within i pc
  := by
  rw [Effects.write, dif_pos hlt]
  refine { h with written := ?_ }
  intro other hother
  have hne : number ≠ other.val := by
    rintro rfl
    exact hother hwritten
  rw [← h.written other hother]
  exact Vector.getElem_set_ne hlt other.isLt hne

theorem writeAll (h : effects.Within i pc) {writes : List (Nat × Word)}
    (hwrites : ∀ w ∈ writes, w.1 < 15 ∧ w.1 ∈ i.written) :
  (effects.writeAll writes).Within i pc
  := by
  induction writes generalizing effects with
  | nil => exact h
  | cons first rest ih =>
    obtain ⟨⟨hlt, hwritten⟩, hrest⟩ := List.forall_mem_cons.mp hwrites
    exact ih (h.write hlt hwritten first.2) hrest

/-- A write to the destination, which is a jump if it is the program counter. -/
theorem writeDestination (h : effects.Within i pc) (hnamed : ∀ n ∈ i.named, n < 16)
    (hwritten : i.written = i.rd.toList) (value : Word) :
  (effects.write? i.rd value).Within i pc
  := by
  cases hrd : i.rd with
  | none => exact h
  | some n =>
    have hn : n < 16 := by
      apply hnamed
      simp [Instruction.named, hrd]
    have hmem : n ∈ i.written := by
      rw [hwritten, hrd]
      exact .head _
    rcases Nat.lt_or_ge n 15 with hlt | hge
    · exact h.write hlt hmem value
    · obtain rfl : n = 15 := by omega
      exact h.jump (.inr (.inl hrd)) value

theorem updatingFlags (h : effects.Within i pc) {update : FlagsUpdate}
    (hflags : i.setFlags = true → Word.Clear update.mask (~~~i.statusMask)) :
  (i.updatingFlags update effects).Within i pc
  := by
  rw [Instruction.updatingFlags]
  split
  · next hset => exact { h with flags := hflags hset }
  · exact h

theorem yields {ε σ : Type} (core : ThumbCore) (h : effects.Within i pc) :
  Yields (Bounded i core pc) (pure effects : EStateM ε σ Effects)
  := by
  apply Yields.pure
  exact .within h

end Within

namespace Bounded

variable {i : Instruction} {core : ThumbCore} {pc : Word} {effects : Effects}

theorem special_none (h : effects.Bounded i core pc) (hopcode : i.opcode ≠ .msr) :
  effects.special = none
  := by
  cases h with
  | within within => exact within.special_none hopcode
  | entering _ _ special => exact special
  | leaving _ _ special => exact special

theorem within_of_transition (h : effects.Bounded i core pc) (hnone : effects.transition = none) :
  effects.Within i pc
  := by
  cases h with
  | within within => exact within
  | entering _ _ _ transition =>
    rw [transition] at hnone
    cases hnone
  | leaving _ _ _ transition =>
    rw [transition] at hnone
    cases hnone

theorem cause (h : effects.Bounded i core pc) (hsome : effects.transition ≠ none) :
  i.opcode = .svc ∨ core.inException = true ∧ i.Diverts
  := by
  cases h with
  | within within => exact absurd within.transition hsome
  | entering _ call => exact .inl call
  | leaving handling diverts => exact .inr ⟨handling, diverts⟩

end Bounded

end Effects

/-! ### Branches and calls -/

namespace Exception

variable {i : Instruction} {pc : Word} {effects : Effects} (core : ThumbCore)

theorem branch_bounded (h : effects.Within i pc) (hdiverts : i.Diverts) (hopcode : i.opcode ≠ .msr)
    (target start : Word) :
  Yields (Effects.Bounded i core pc) (branch core target start effects)
  := by
  rw [branch]
  split
  · next hreturns =>
    apply Yields.bind
    intro words
    apply Yields.pure
    apply Effects.Bounded.leaving (Bool.and_eq_true_iff.mp hreturns).1 hdiverts _ rfl
    have hloaded := effects.special_writeAll ([0, 1, 2, 3, 12, 14].zip words)
    rw [h.special_none hopcode] at hloaded
    exact hloaded
  · exact (h.jump hdiverts target).yields core

theorem enter_bounded (hcall : i.opcode = .svc) (number : UInt8) :
  Yields (Effects.Bounded i core pc) (enter core number (i.continuing pc))
  := by
  apply Yields.bind
  intro _
  apply Yields.bind
  intro handler
  apply Yields.bind
  intro _
  apply Yields.pure
  exact .entering number hcall rfl rfl

end Exception

/-! ### Instructions -/

namespace Instruction

variable {i : Instruction} (core : ThumbCore) (pc : Word)

theorem written_destination (h : i.opcode ∈ [.mov, .add, .sub, .and, .orr, .eor, .ldr, .mrs]) :
  i.written = i.rd.toList
  := by
  rw [written]
  generalize i.opcode = opcode at h
  cases opcode
  all_goals first
    | rfl
    | exact absurd h (by decide)

theorem statusMask_logical (h : i.opcode ∈ [.mov, .and, .orr, .eor, .tst])
    (hset : i.setFlags = true) :
  i.statusMask = Psr.n ||| Psr.z ||| Psr.c
  := by
  rw [statusMask, hset]
  generalize i.opcode = opcode at h
  cases opcode
  all_goals first
    | rfl
    | exact absurd h (by decide)

theorem statusMask_sum (h : i.opcode ∈ [.add, .sub, .cmp]) (hset : i.setFlags = true) :
  i.statusMask = Psr.n ||| Psr.z ||| Psr.c ||| Psr.v
  := by
  rw [statusMask, hset]
  generalize i.opcode = opcode at h
  cases opcode
  all_goals first
    | rfl
    | exact absurd h (by decide)

/-- Flags that the instruction sets if it sets any. -/
theorem flagged_within (hcall : i.opcode ≠ .svc) {update : FlagsUpdate}
    (hmask : i.setFlags = true → i.statusMask = update.mask) :
  (i.updatingFlags update (i.continuing pc)).Within i pc
  := by
  apply (Effects.Within.continuing hcall).updatingFlags
  intro hset
  rw [hmask hset]
  exact UInt32.not_and_self

theorem load_bounded (hopcode : i.opcode = .ldr) (hnamed : ∀ n ∈ i.named, n < 16) :
  Yields (Effects.Bounded i core pc) (i.load core pc)
  := by
  have hcontinuing : (i.continuing pc).Within i pc := .continuing (by rw [hopcode]; decide)
  rw [load]
  split
  · exact hcontinuing.yields core
  · next rt hrd =>
    apply Yields.bind
    intro raw
    simp only
    split
    · next hpc =>
      subst hpc
      apply Exception.branch_bounded core hcontinuing (.inr (.inl hrd))
      rw [hopcode]
      decide
    · next hne =>
      have hwritten : i.written = i.rd.toList := by
        apply written_destination
        rw [hopcode]
        decide
      have hwrite := hcontinuing.writeDestination hnamed hwritten
      rw [hrd] at hwrite
      exact (hwrite _).yields core

theorem loadMultiple_bounded (hopcode : i.opcode = .ldm)
    (hlow : ∀ n ∈ i.registers.numbers, n < 15) (hbase : ∀ n ∈ i.rn, n < 15) :
  Yields (Effects.Bounded i core pc) (i.loadMultiple core pc)
  := by
  have hcontinuing : (i.continuing pc).Within i pc := .continuing (by rw [hopcode]; decide)
  have hwritten : i.written = i.registers.numbers ++ if i.writeback then i.rn.toList else [] := by
    rw [written, hopcode]
  rw [loadMultiple]
  split
  · exact hcontinuing.yields core
  · next rn hrn =>
    apply Yields.bind
    intro values
    have hloaded : ((i.continuing pc).writeAll (i.registers.numbers.zip values)).Within i pc := by
      apply hcontinuing.writeAll
      intro w hw
      have hlisted := (List.of_mem_zip hw).1
      use hlow _ hlisted
      rw [hwritten]
      exact List.mem_append_left _ hlisted
    apply Effects.Within.yields
    split
    · next hwriteback =>
      apply hloaded.write (hbase rn hrn)
      rw [hwritten, if_pos hwriteback, hrn]
      exact List.mem_append_right _ (.head _)
    · exact hloaded

theorem storeMultiple_bounded (hopcode : i.opcode = .stm) (hbase : ∀ n ∈ i.rn, n < 15) :
  Yields (Effects.Bounded i core pc) (i.storeMultiple core pc)
  := by
  have hcontinuing : (i.continuing pc).Within i pc := .continuing (by rw [hopcode]; decide)
  rw [storeMultiple]
  split
  · exact hcontinuing.yields core
  · next rn hrn =>
    apply Yields.bind
    intro stop
    apply Effects.Within.yields
    split
    · apply hcontinuing.write (hbase rn hrn)
      rw [written, hopcode, hrn]
      exact .head _
    · exact hcontinuing

theorem push_bounded (hopcode : i.opcode = .push) :
  Yields (Effects.Bounded i core pc) (i.push core pc)
  := by
  have hcontinuing : (i.continuing pc).Within i pc := .continuing (by rw [hopcode]; decide)
  apply Yields.bind
  intro _
  apply Effects.Within.yields
  apply hcontinuing.write (by decide)
  rw [written, hopcode]
  exact .head _

theorem pop_bounded (hopcode : i.opcode = .pop) :
  Yields (Effects.Bounded i core pc) (i.pop core pc)
  := by
  have hcontinuing : (i.continuing pc).Within i pc := .continuing (by rw [hopcode]; decide)
  have hwritten : i.written = 13 :: i.registers.numbers := by rw [written, hopcode]
  apply Yields.bind
  intro values
  have hloaded (stop : Word) : (((i.continuing pc).writeAll
      ((i.registers.numbers.zip values).filter (·.1 ≠ 15))).write 13 stop).Within i pc := by
    apply Effects.Within.write _ (by decide)
    · rw [hwritten]
      exact .head _
    · apply hcontinuing.writeAll
      intro w hw
      obtain ⟨hzip, hne⟩ := List.mem_filter.mp hw
      have hlisted := (List.of_mem_zip hzip).1
      have hlt := (RegisterList.mem_numbers.mp hlisted).1
      rw [decide_eq_true_iff] at hne
      use by omega
      rw [hwritten]
      exact .tail _ hlisted
  simp only
  split
  · next target htarget =>
    have hlisted : 15 ∈ i.registers.numbers := by
      obtain ⟨before, after, hzip, -⟩ := List.lookup_eq_some_iff.mp htarget
      have hmem : (15, target) ∈ i.registers.numbers.zip values := by
        rw [hzip]
        exact List.mem_append_right _ (.head _)
      exact (List.of_mem_zip hmem).1
    apply Exception.branch_bounded core (hloaded _)
    · exact .inr (.inr ⟨hopcode, (RegisterList.mem_numbers.mp hlisted).2⟩)
    · rw [hopcode]
      decide
  · exact (hloaded _).yields core

/-- Whatever a decoded instruction does is within its bounds, or an entry into an exception or a
return from one. -/
theorem execute_bounded {w : Word} {length : Nat} (h : decode w length = .ok i) :
  Yields (Effects.Bounded i core pc) (i.execute core pc)
  := by
  have hnamed := (decode_encoded h).named
  have hmultiple (hopcode : i.opcode = .stm ∨ i.opcode = .ldm) :
      (∀ n ∈ i.registers.numbers, n < 15) ∧ ∀ n ∈ i.rn, n < 15 := by
    obtain ⟨hlow, base, hbase, hrn, -⟩ := multiple_of_decode h hopcode
    constructor
    · intro n hn
      have hlt := hlow n (RegisterList.mem_numbers.mp hn).2
      omega
    · intro n hn
      rw [hrn] at hn
      cases hn
      omega
  rcases Decidable.em (i.opcode = .svc) with hcall | hcall
  · rw [execute, hcall]
    apply transferring_yields _ (Exception.enter_bounded core hcall _)
  have hcontinuing : (i.continuing pc).Within i pc := .continuing hcall
  have hdestination (h : i.opcode ∈ [.mov, .add, .sub, .and, .orr, .eor, .ldr, .mrs])
      {effects : Effects} (hwithin : effects.Within i pc) (value : Word) :
      (effects.write? i.rd value).Within i pc :=
    hwithin.writeDestination hnamed (written_destination h) value
  have hlogical (h : i.opcode ∈ [.mov, .and, .orr, .eor, .tst]) (value : Word) (carry : Bool) :
      (i.updatingFlags (.ofLogical value carry) (i.continuing pc)).Within i pc :=
    flagged_within pc hcall (statusMask_logical h)
  have hsum (h : i.opcode ∈ [.add, .sub, .cmp]) (sum : Sum) :
      (i.updatingFlags (.ofSum sum) (i.continuing pc)).Within i pc :=
    flagged_within pc hcall (statusMask_sum h)
  rw [execute]
  cases hopcode : i.opcode with
  | svc => contradiction
  | udf => rintro _ _ _ ⟨⟩
  | mov | and | orr | eor =>
    apply Effects.Within.yields core
    exact hdestination (by simp [hopcode]) (hlogical (by simp [hopcode]) _ _) _
  | add | sub =>
    apply Effects.Within.yields core
    exact hdestination (by simp [hopcode]) (hsum (by simp [hopcode]) _) _
  | tst => exact Effects.Within.yields core (hlogical (by simp [hopcode]) _ _)
  | cmp => exact Effects.Within.yields core (hsum (by simp [hopcode]) _)
  | mrs => exact Effects.Within.yields core (hdestination (by simp [hopcode]) hcontinuing _)
  | msr =>
    apply Effects.Within.yields
    refine { hcontinuing with special := ?_ }
    rintro selector value ⟨⟩
    exact ⟨hopcode, rfl⟩
  | nop | wfi => exact Effects.Within.yields core { hcontinuing with }
  | b =>
    have hdiverts : i.Diverts := .inl (by simp [hopcode])
    exact Effects.Within.yields core
      { hcontinuing with next := fun hstays => absurd hdiverts hstays }
  | bl | blx =>
    have hdiverts : i.Diverts := .inl (by simp [hopcode])
    have hlink (value : Word) : ((i.continuing pc).write 14 value).Within i pc := by
      apply hcontinuing.write (by decide)
      rw [written, hopcode]
      exact .head _
    exact Effects.Within.yields core
      { hlink _ with next := fun hstays => absurd hdiverts hstays }
  | bx =>
    have hdiverts : i.Diverts := .inl (by simp [hopcode])
    apply transferring_yields
    apply Exception.branch_bounded core hcontinuing hdiverts (by simp [hopcode])
  | str =>
    apply transferring_yields
    apply Yields.bind
    intro _
    exact hcontinuing.yields core
  | ldr => apply transferring_yields _ (load_bounded core pc hopcode hnamed)
  | ldm =>
    obtain ⟨hlow, hbase⟩ := hmultiple (.inr hopcode)
    apply transferring_yields _ (loadMultiple_bounded core pc hopcode hlow hbase)
  | stm =>
    obtain ⟨-, hbase⟩ := hmultiple (.inl hopcode)
    apply transferring_yields _ (storeMultiple_bounded core pc hopcode hbase)
  | push => apply transferring_yields _ (push_bounded core pc hopcode)
  | pop => apply transferring_yields _ (pop_bounded core pc hopcode)

end Instruction

end ThumbSoc
