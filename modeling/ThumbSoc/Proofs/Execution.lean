import ThumbSoc.Proofs.Bus.Burst

/-!
# The transfers of an instruction

An instruction makes at most one single transfer, one burst of reads and one burst of writes
that matter here. This module names the bursts that an instruction makes, and says how its
execution can fail: without a trace, by a burst of reads, or by a burst of writes that tears.
-/

namespace ThumbSoc

/-! ### Branches -/

theorem Exception.isReturn_ge {target : Word} (h : Exception.isReturn target = true) :
  256 ≤ target.toNat
  := by
  have htop : target &&& 0xF0000000 = 0xF0000000 := by simpa [isReturn] using h
  have hle : (target &&& 0xF0000000).toNat ≤ target.toNat := by
    rw [UInt32.toNat_and]
    apply Nat.and_le_left
  rw [htop] at hle
  apply Nat.le_trans _ hle
  decide

/-- Leaving an exception fails only by its burst. -/
theorem Exception.leave_error {bus bus' : Bus} {start : Word} {effects : Effects}
    {fault : BusFault} :
  leave start effects bus = .error fault bus'
    ↔ Bus.readWords start frameWords bus = .error fault bus'
  := by
  constructor
  · intro h
    rcases bind_eq_error.mp h with hread | ⟨_, _, _, hpure⟩
    · apply hread
    · cases hpure
  · intro h
    apply bind_eq_error.mpr
    left
    apply h

/-- A branch fails only by leaving an exception. -/
theorem Exception.branch_error {core : ThumbCore} {bus bus' : Bus} {target start : Word}
    {effects : Effects} {fault : BusFault} :
  branch core target start effects bus = .error fault bus'
    ↔ (core.inException = true ∧ isReturn target = true)
      ∧ Bus.readWords start frameWords bus = .error fault bus'
  := by
  simp only [branch, Bool.and_eq_true]
  split
  · next hleave =>
    rw [leave_error]
    simp [hleave]
  · next hstay =>
    constructor
    · intro h
      cases h
    · intro h
      exact absurd h.1 hstay

namespace Instruction

variable (i : Instruction) (core : ThumbCore) (pc : Word)

/-! ### Bursts -/

/-- The consecutive words that an instruction stores, with the address of the first one. -/
def storedWords : Option (Word × List Word) :=
  match i.opcode with
  | .stm => i.rn.map fun rn => (core.operand pc rn, i.listedValues core pc)
  | .push => some (core.sp - 4 * UInt32.ofNat i.registers.size, i.listedValues core pc)
  | .svc => some (Exception.frameBelow core.sp, Exception.frame core (i.next pc))
  | _ => none

/-- The bursts of reads that an instruction makes on a bus. The frame of an exception is read
only by a branch that leaves the exception. -/
inductive Reads (bus : Bus) : Word → Nat → Prop where
  | loadMultiple {rn : Nat}
      (opcode : i.opcode = .ldm)
      (base : i.rn = some rn) :
      Reads bus (core.operand pc rn) i.registers.size
  | pop
      (opcode : i.opcode = .pop) :
      Reads bus core.sp i.registers.size
  /-- The frame above popped words, the last of which leaves the exception. -/
  | popFrame {values : List Word} {target : Word}
      (opcode : i.opcode = .pop)
      (popped : Bus.readWords core.sp i.registers.size bus = .ok values bus)
      (loaded : (i.registers.numbers.zip values).lookup 15 = some target)
      (leaves : core.inException = true ∧ Exception.isReturn target = true) :
      Reads bus (core.sp + 4 * UInt32.ofNat i.registers.size) Exception.frameWords
  | exchangeFrame
      (opcode : i.opcode = .bx)
      (leaves : core.inException = true
        ∧ Exception.isReturn (core.operandOr pc i.rm 0) = true) :
      Reads bus core.sp Exception.frameWords
  | loadFrame {raw : Word}
      (opcode : i.opcode = .ldr)
      (destination : i.rd = some 15)
      (loaded : Bus.read (i.address core pc) i.width bus = .ok raw bus)
      (leaves : core.inException = true
        ∧ Exception.isReturn (if i.signed then i.width.signExtend raw else raw) = true) :
      Reads bus core.sp Exception.frameWords

end Instruction

/-! ### Failing bursts -/

/-- The value that belongs to the highest number of an ascending list is the last one. -/
theorem lookup_highest {numbers : List Nat} {values : List Word} {highest : Nat} {value : Word}
    (hascending : numbers.Pairwise (· < ·)) (hhighest : ∀ n ∈ numbers, n ≤ highest)
    (hlength : values.length = numbers.length)
    (h : (numbers.zip values).lookup highest = some value) :
  values.getLast? = some value
  := by
  induction numbers generalizing values with
  | nil => cases h
  | cons n numbers ih =>
    obtain ⟨v, values, rfl⟩ := List.exists_cons_of_length_eq_add_one hlength
    obtain ⟨hbelow, hascending⟩ := List.pairwise_cons.mp hascending
    have hrest : values.length = numbers.length := Nat.succ.inj hlength
    simp only [List.zip_cons_cons, List.lookup_cons] at h
    by_cases hn : highest = n
    · -- Nothing is above the highest number, so the list ends here.
      subst hn
      simp only [beq_self_eq_true] at h
      cases numbers with
      | nil =>
        rw [List.length_eq_zero_iff.mp hrest]
        apply h
      | cons next _ =>
        have hlt := hbelow next List.mem_cons_self
        have hle := hhighest next (List.mem_cons_of_mem _ List.mem_cons_self)
        omega
    · have hne : (highest == n) = false := beq_false_of_ne hn
      simp only [hne] at h
      have hlast := ih hascending (fun m hm => hhighest m (List.mem_cons_of_mem _ hm)) hrest h
      rw [List.getLast?_cons, hlast]
      rfl

theorem RegisterList.numbers_ascending (list : RegisterList) :
  list.numbers.Pairwise (· < ·)
  := List.Pairwise.filter _ List.pairwise_lt_range

namespace Instruction

variable {i : Instruction} {core : ThumbCore} {pc : Word} {bus bus' : Bus}

/-- A burst of reads of an instruction, with the fault that ends it and what is left then. -/
def ReadFails (i : Instruction) (core : ThumbCore) (pc : Word) (bus : Bus) (cause : BusFault)
    (bus' : Bus) : Prop :=
  ∃ start count, i.Reads core pc bus start count
    ∧ Bus.readWords start count bus = .error cause bus'

/-- A load fails without a trace or by the frame that it reads. -/
theorem load_error {cause : BusFault} (hsigned : i.signed = true → i.rd ≠ some 15)
    (hopcode : i.opcode = .ldr) (h : i.load core pc bus = .error cause bus') :
  bus' = bus ∨ i.ReadFails core pc bus cause bus'
  := by
  cases hrd : i.rd with
  | none =>
    simp only [load, hrd] at h
    cases h
  | some rt =>
    simp only [load, hrd] at h
    rcases bind_eq_error.mp h with hread | ⟨raw, mid, hread, hrest⟩
    · left
      apply (Bus.read_error hread).1
    · by_cases hpc : rt = 15
      · rw [if_pos hpc] at hrest
        obtain ⟨hleaves, hframe⟩ := Exception.branch_error.mp hrest
        rw [hpc] at hrd
        have hunsigned : i.signed = false := by
          cases hs : i.signed with
          | false => rfl
          | true => exact absurd hrd (hsigned hs)
        rcases Bus.read_lt hread with rfl | hlt
        · right
          use core.sp, Exception.frameWords, .loadFrame hopcode hrd hread hleaves
        · -- A received byte leaves no exception.
          have hge := Exception.isReturn_ge hleaves.2
          rw [hunsigned] at hge
          exact absurd hlt (Nat.not_lt.mpr hge)
      · rw [if_neg hpc] at hrest
        cases hrest

/-- A load of several registers fails by its burst. -/
theorem loadMultiple_error {cause : BusFault} (hopcode : i.opcode = .ldm)
    (h : i.loadMultiple core pc bus = .error cause bus') :
  i.ReadFails core pc bus cause bus'
  := by
  cases hrn : i.rn with
  | none =>
    simp only [loadMultiple, hrn] at h
    cases h
  | some rn =>
    simp only [loadMultiple, hrn] at h
    rcases bind_eq_error.mp h with hread | ⟨_, _, _, hpure⟩
    · use core.operand pc rn, i.registers.size, .loadMultiple hopcode hrn
    · cases hpure

/-- A pop fails by its burst, or by the frame above it. -/
theorem pop_error {cause : BusFault} (hopcode : i.opcode = .pop)
    (h : i.pop core pc bus = .error cause bus') :
  i.ReadFails core pc bus cause bus'
  := by
  rcases bind_eq_error.mp h with hread | ⟨values, mid, hread, hrest⟩
  · use core.sp, i.registers.size, .pop hopcode
  · cases hloaded : (i.registers.numbers.zip values).lookup 15 with
    | none =>
      simp only [hloaded] at hrest
      cases hrest
    | some target =>
      simp only [hloaded] at hrest
      obtain ⟨hleaves, hframe⟩ := Exception.branch_error.mp hrest
      have hlast : values.getLast? = some target := by
        apply lookup_highest i.registers.numbers_ascending _ (Bus.readWords_length hread) hloaded
        intro n hn
        have hlt := (RegisterList.mem_numbers.mp hn).1
        omega
      rcases Bus.readWords_last hread with rfl | ⟨last, hsome, hlt⟩
      · use core.sp + 4 * UInt32.ofNat i.registers.size, Exception.frameWords,
          .popFrame hopcode hread hloaded hleaves
      · -- A received byte leaves no exception, nor does the zero behind it.
        obtain rfl : target = last := Option.some.inj (hlast.symm.trans hsome)
        exact absurd hlt (Nat.not_lt.mpr (Exception.isReturn_ge hleaves.2))

/-- A store of several words fails without a trace, or tears. -/
theorem storedWords_error {cause : BusFault} {start : Word} {values : List Word}
    (h : Bus.storeWords start values bus = .error cause bus') :
  bus' = bus ∨ bus.Tears start values.length
  := by
  rcases Bus.storeWords_error h with ⟨hsame, _⟩ | htears
  · left
    apply hsame
  · right
    apply htears

/-- Entering an exception fails without a trace, or tears. -/
theorem enter_error {number : UInt8} {effects : Effects} {cause : BusFault}
    (h : Exception.enter core number effects bus = .error cause bus') :
  bus' = bus ∨ bus.Tears (Exception.frameBelow core.sp) Exception.frameWords
  := by
  rcases bind_eq_error.mp h with hprobe | ⟨_, mid, hprobe, hrest⟩
  · left
    apply (Bus.probeWords_error hprobe).1
  · obtain ⟨rfl, hrouted⟩ := Bus.probeWords_ok hprobe
    rcases bind_eq_error.mp hrest with hread | ⟨handler, mid', hread, hrest⟩
    · left
      apply (Bus.read_error hread).1
    · rcases bind_eq_error.mp hrest with hstore | ⟨_, _, _, hpure⟩
      · right
        -- The read leaves the size of memory alone, so the frame is still routed.
        obtain ⟨target, _, hmid⟩ := Bus.read_ok hread
        have hsize : mid'.sram.size = mid.sram.size := by rw [hmid, Bus.afterRead_sram]
        rcases Bus.storeWords_error hstore with
          ⟨_, hunrouted | ⟨target', hroute, hreadOnly⟩⟩ | htears
        · exact absurd (hrouted.congr hsize) hunrouted
        · have hwritten := (hrouted.congr hsize).first_written hroute
          rw [hwritten] at hreadOnly
          cases hreadOnly
        · apply htears.congr hsize.symm
      · cases hpure

/-- Execution fails without a trace, by a burst of reads, or by a burst of writes that
tears. -/
theorem execute_error {fault : CoreFault} (hsigned : i.signed = true → i.rd ≠ some 15)
    (h : i.execute core pc bus = .error fault bus') :
  bus' = bus ∨ (∃ cause, i.ReadFails core pc bus cause bus')
    ∨ ∃ start values, i.storedWords core pc = some (start, values)
      ∧ bus.Tears start values.length
  := by
  cases hopcode : i.opcode with
  | ldr =>
    simp only [execute, hopcode] at h
    obtain ⟨cause, _, h⟩ := transferring_error.mp h
    rcases load_error hsigned hopcode h with hsame | hfails
    · left
      apply hsame
    · right
      left
      use cause
  | ldm =>
    simp only [execute, hopcode] at h
    obtain ⟨cause, _, h⟩ := transferring_error.mp h
    right
    left
    apply Exists.intro cause (loadMultiple_error hopcode h)
  | pop =>
    simp only [execute, hopcode] at h
    obtain ⟨cause, _, h⟩ := transferring_error.mp h
    right
    left
    apply Exists.intro cause (pop_error hopcode h)
  | bx =>
    simp only [execute, hopcode] at h
    obtain ⟨cause, _, h⟩ := transferring_error.mp h
    obtain ⟨hleaves, hframe⟩ := Exception.branch_error.mp h
    right
    left
    use cause, core.sp, Exception.frameWords, .exchangeFrame hopcode hleaves
  | str =>
    simp only [execute, hopcode] at h
    obtain ⟨cause, _, h⟩ := transferring_error.mp h
    left
    rcases bind_eq_error.mp h with hwrite | ⟨_, _, _, hpure⟩
    · apply (Bus.write_error hwrite).1
    · cases hpure
  | stm =>
    simp only [execute, hopcode] at h
    obtain ⟨cause, _, h⟩ := transferring_error.mp h
    cases hrn : i.rn with
    | none =>
      simp only [storeMultiple, hrn] at h
      cases h
    | some rn =>
      simp only [storeMultiple, hrn] at h
      rcases bind_eq_error.mp h with hstore | ⟨_, _, _, hpure⟩
      · rcases storedWords_error hstore with hsame | htears
        · left
          apply hsame
        · right
          right
          use core.operand pc rn, i.listedValues core pc
          simp only [storedWords, hopcode, hrn]
          apply And.intro rfl htears
      · cases hpure
  | push =>
    simp only [execute, hopcode] at h
    obtain ⟨cause, _, h⟩ := transferring_error.mp h
    rcases bind_eq_error.mp h with hstore | ⟨_, _, _, hpure⟩
    · rcases storedWords_error hstore with hsame | htears
      · left
        apply hsame
      · right
        right
        use core.sp - 4 * UInt32.ofNat i.registers.size, i.listedValues core pc
        simp only [storedWords, hopcode]
        apply And.intro trivial htears
    · cases hpure
  | svc =>
    simp only [execute, hopcode] at h
    obtain ⟨cause, _, h⟩ := transferring_error.mp h
    rcases enter_error h with hsame | htears
    · left
      apply hsame
    · right
      right
      use Exception.frameBelow core.sp, Exception.frame core (i.next pc)
      simp only [storedWords, hopcode]
      apply And.intro trivial htears
  | udf =>
    simp only [execute, hopcode] at h
    cases h
    left
    rfl
  | _ =>
    simp only [execute, hopcode] at h
    cases h

/-- If a burst of reads of an instruction fails, so does its execution. -/
theorem Reads.fails {start : Word} {count : Nat} {cause : BusFault}
    (hreads : i.Reads core pc bus start count)
    (h : Bus.readWords start count bus = .error cause bus') :
  i.execute core pc bus = .error (.bus pc cause) bus'
  := by
  cases hreads with
  | loadMultiple opcode base =>
    simp only [execute, opcode]
    apply transferring_error.mpr
    use cause, rfl
    simp only [Instruction.loadMultiple, base]
    apply bind_eq_error.mpr (Or.inl h)
  | pop opcode =>
    simp only [execute, opcode]
    apply transferring_error.mpr
    use cause, rfl
    apply bind_eq_error.mpr (Or.inl h)
  | @popFrame values target opcode popped loaded leaves =>
    simp only [execute, opcode]
    apply transferring_error.mpr
    use cause, rfl
    apply bind_eq_error.mpr
    right
    use values, bus, popped
    rw [loaded]
    apply Exception.branch_error.mpr
    use leaves
  | exchangeFrame opcode leaves =>
    simp only [execute, opcode]
    apply transferring_error.mpr
    use cause, rfl
    apply Exception.branch_error.mpr
    use leaves
  | loadFrame opcode destination loaded leaves =>
    simp only [execute, opcode]
    apply transferring_error.mpr
    use cause, rfl
    simp only [load, destination]
    apply bind_eq_error.mpr
    right
    apply Exists.intro _
    use bus, loaded
    apply Exception.branch_error.mpr
    use leaves

end Instruction

end ThumbSoc
