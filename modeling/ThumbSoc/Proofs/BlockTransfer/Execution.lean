import Mathlib.Data.List.Basic
import ThumbSoc.Proofs.BlockTransfer.Decoding
import ThumbSoc.Proofs.Bus.KeptWords
import ThumbSoc.Proofs.Commit

/-!
# Restored registers

A pop takes back a push, and a load of several registers takes back a store: the words come back
into the registers that they were taken from. The registers may have been put to any use in
between, and the devices and the rest of memory may have changed, if only the words were kept.
-/

namespace ThumbSoc

/-- The core with given values in the listed general registers. -/
def ThumbCore.fill (core : ThumbCore) (list : RegisterList) (value : Nat → Word) : ThumbCore :=
  { core with
    general := .ofFn fun n => if list.contains n then value n else core.general.get n }

theorem ThumbCore.fill_congr (core : ThumbCore) {list : RegisterList} {value value' : Nat → Word}
    (h : ∀ n < 13, value n = value' n) :
  core.fill list value = core.fill list value'
  := by
  have hgeneral : ∀ n : Fin 13, value n = value' n := fun n => h n n.isLt
  simp only [fill, hgeneral]

/-- The core with the listed general registers of another core. -/
def ThumbCore.restore (later core : ThumbCore) (list : RegisterList) : ThumbCore :=
  later.fill list fun n => core.read (.ofNumber n)

/-! ### Registers that are written together -/

namespace Effects

/-- Each register of a list is given the value that belongs to its number. -/
theorem applyWrites_writeAll (effects : Effects) (core : ThumbCore) (value : Nat → Word)
    {numbers : List Nat} (h : ∀ n ∈ numbers, n < 13) :
  (effects.writeAll (numbers.map fun n => (n, value n))).applyWrites core
    = { effects.applyWrites core with
        general := .ofFn fun n =>
          if n.val ∈ numbers then value n else (effects.applyWrites core).general.get n }
  := by
  induction numbers generalizing effects with
  | nil =>
    have hsame : (effects.applyWrites core).general
        = .ofFn fun n => (effects.applyWrites core).general.get n := by
      apply Vector.ext
      intro n hn
      rw [Vector.getElem_ofFn]
      rfl
    simp only [List.not_mem_nil, if_false, ← hsame]
    rfl
  | cons first rest ih =>
    rw [List.forall_mem_cons] at h
    obtain ⟨hfirst, hrest⟩ := h
    have hfirst' : first < 15 := by omega
    rw [List.map_cons, writeAll, List.foldl_cons, ← writeAll, ih _ hrest,
      applyWrites_write _ _ hfirst', Register.ofNumber_general hfirst]
    generalize effects.applyWrites core = applied
    simp only [ThumbCore.write, ThumbCore.mk.injEq, and_true]
    apply Vector.ext
    intro n hn
    rw [Vector.getElem_ofFn, Vector.getElem_ofFn]
    simp only [List.mem_cons]
    by_cases hmem : n ∈ rest
    · simp only [hmem, if_true, or_true]
    · simp only [hmem, if_false, or_false]
      change (applied.general.set first (value first) hfirst)[n] = _
      rw [Vector.getElem_set]
      by_cases heq : first = n
      · subst heq
        simp only [if_true]
      · simp only [if_neg heq, if_neg (Ne.symm heq)]
        rfl

theorem applyWrites_fill (effects : Effects) (core : ThumbCore) (list : RegisterList)
    (value : Nat → Word) {numbers : List Nat} (hlow : ∀ n ∈ numbers, n < 13)
    (hlisted : ∀ n < 13, n ∈ numbers ↔ list.contains n = true) :
  (effects.writeAll (numbers.map fun n => (n, value n))).applyWrites core
    = (effects.applyWrites core).fill list value
  := by
  have hmem : ∀ n : Fin 13, n.val ∈ numbers ↔ list.contains n = true := fun n => hlisted n n.isLt
  rw [applyWrites_writeAll effects core value hlow]
  simp only [ThumbCore.fill, hmem]

end Effects

namespace Instruction

variable {i : Instruction} {core : ThumbCore} {pc : Word} {bus bus' : Bus} {effects : Effects}
  {value : Nat → Word}

theorem listedValues_length (i : Instruction) (core : ThumbCore) (pc : Word) :
  (i.listedValues core pc).length = i.registers.size
  := List.length_map _

/-- The values that are stored, for registers other than the program counter. -/
theorem listedValues_eq (core : ThumbCore) (pc : Word)
    (h : ∀ n, i.registers.contains n = true → n ≠ 15) :
  i.listedValues core pc = i.registers.numbers.map fun n => core.read (.ofNumber n)
  := by
  apply List.map_congr_left
  intro n hn
  apply if_neg
  apply h n (RegisterList.mem_numbers.mp hn).2

/-! ### Stores -/

/-- A push stores its registers below the stack pointer, and moves it down over them. -/
theorem execute_push (hopcode : i.opcode = .push) :
  i.execute core pc bus = .ok effects bus'
    ↔ ∃ stop, Bus.storeWords (core.sp - 4 * UInt32.ofNat i.registers.size)
        (i.listedValues core pc) bus = .ok stop bus'
      ∧ effects = (i.continuing pc).write 13 (core.sp - 4 * UInt32.ofNat i.registers.size)
  := by
  simp only [execute, hopcode, transferring_ok, push, bind_eq_ok]
  constructor
  · rintro ⟨stop, _, hstore, ⟨⟩⟩
    exact ⟨stop, hstore, rfl⟩
  · rintro ⟨stop, hstore, rfl⟩
    exact ⟨stop, bus', hstore, rfl⟩

/-- A store of several registers stores them at its base. -/
theorem execute_storeMultiple (hopcode : i.opcode = .stm) {rn : Nat} (hrn : i.rn = some rn) :
  i.execute core pc bus = .ok effects bus'
    ↔ ∃ stop, Bus.storeWords (core.operand pc rn) (i.listedValues core pc) bus = .ok stop bus'
      ∧ effects = if i.writeback then (i.continuing pc).write rn stop else i.continuing pc
  := by
  simp only [execute, hopcode, transferring_ok, storeMultiple, hrn, bind_eq_ok]
  constructor
  · rintro ⟨stop, _, hstore, ⟨⟩⟩
    exact ⟨stop, hstore, rfl⟩
  · rintro ⟨stop, hstore, rfl⟩
    exact ⟨stop, bus', hstore, rfl⟩

/-! ### Loads -/

/-- The listed registers without the program counter. -/
theorem mem_filter_numbers {list : RegisterList} {n : Nat} :
  n ∈ list.numbers.filter (· ≠ 15) ↔ list.contains n = true ∧ n ≠ 15
  := by
  simp only [List.mem_filter, RegisterList.mem_numbers, decide_eq_true_eq]
  constructor
  · rintro ⟨⟨_, hlisted⟩, hne⟩
    exact ⟨hlisted, hne⟩
  · rintro ⟨hlisted, hne⟩
    exact ⟨⟨RegisterList.lt_of_contains hlisted, hlisted⟩, hne⟩

/-- The program counter is loaded if it is listed. -/
theorem lookup_numbers (list : RegisterList) (value : Nat → Word) :
  (list.numbers.map fun n => (n, value n)).lookup 15
    = if list.contains 15 then some (value 15) else none
  := by
  cases hlink : list.contains 15 with
  | true => exact List.lookup_graph value (RegisterList.mem_numbers.mpr ⟨by decide, hlink⟩)
  | false =>
    apply List.lookup_eq_none_iff.mpr
    intro p hp
    obtain ⟨n, hn, rfl⟩ := List.mem_map.mp hp
    rw [bne_iff_ne]
    rintro rfl
    rw [(RegisterList.mem_numbers.mp hn).2] at hlink
    cases hlink

/-- A pop puts the words that it finds into its registers, moves the stack pointer up over them,
and continues at a word for the program counter, unless that leaves an exception. -/
theorem execute_pop (hopcode : i.opcode = .pop) (hlist : i.registers.LowOr 15) (pc : Word)
    (hread : Bus.readWords core.sp i.registers.size bus = .ok (i.registers.numbers.map value) bus)
    (hstays : i.registers.contains 15 = true →
      ¬ (core.inException = true ∧ Exception.isReturn (value 15) = true)) :
  ∃ effects, i.execute core pc bus = .ok effects bus
    ∧ effects.commit core
      = ThumbCore.setPc
        { core.fill i.registers value with sp := core.sp + 4 * UInt32.ofNat i.registers.size }
        (if i.registers.contains 15 then value 15 else i.next pc)
  := by
  let numbers := i.registers.numbers.filter (· ≠ 15)
  let stop := core.sp + 4 * UInt32.ofNat i.registers.size
  let popped := ((i.continuing pc).writeAll (numbers.map fun n => (n, value n))).write 13 stop
  have hlow : ∀ n ∈ numbers, n < 13 := by
    intro n hn
    obtain ⟨hlisted, hne⟩ := mem_filter_numbers.mp hn
    have hlt := (hlist n hlisted).resolve_right hne
    omega
  have hlisted : ∀ n < 13, n ∈ numbers ↔ i.registers.contains n = true := by
    intro n hn
    have hne : n ≠ 15 := by omega
    rw [mem_filter_numbers, and_iff_left hne]
  have hplain : popped.WritesOnly (i.next pc) :=
    (Effects.WritesOnly.writeAll (.goto _) value hlow).write (by decide) stop
  have hwrites : popped.applyWrites core = { core.fill i.registers value with sp := stop } := by
    rw [Effects.applyWrites_write _ _ (by decide),
      Effects.applyWrites_fill _ _ i.registers value hlow hlisted, continuing,
      Effects.applyWrites_goto]
    rfl
  simp only [execute, hopcode, transferring, pop]
  rw [bind_of_ok _ hread, ← List.map_prod_left_eq_zip, List.filter_map, lookup_numbers]
  cases hlink : i.registers.contains 15 with
  | true =>
    simp only [if_true, Exception.branch, Bool.and_eq_true, if_neg (hstays hlink)]
    refine ⟨popped.jump (value 15), rfl, ?_⟩
    rw [(hplain.jump _).commit, ThumbCore.setPc, Word.even_eq_self (Word.even_even _)]
    exact congrArg (ThumbCore.setPc · (value 15)) hwrites
  | false =>
    refine ⟨popped, rfl, ?_⟩
    rw [hplain.commit, hwrites]
    rfl

/-- A load of several registers puts the words that it finds into its registers, and its base
behind the last word, unless it is listed. -/
theorem execute_loadMultiple {base : Nat} (hopcode : i.opcode = .ldm) (hrn : i.rn = some base)
    (hbase : base < 8) (hlist : ∀ n, i.registers.contains n = true → n < 8)
    (hwriteback : i.writeback = !i.registers.contains base) (pc : Word)
    (hread : Bus.readWords (core.operand pc base) i.registers.size bus
      = .ok (i.registers.numbers.map value) bus) :
  ∃ effects, i.execute core pc bus = .ok effects bus
    ∧ effects.commit core
      = ThumbCore.setPc
        (if i.registers.contains base then core.fill i.registers value
        else (core.fill i.registers value).write (.ofNumber base)
          (core.operand pc base + 4 * UInt32.ofNat i.registers.size))
        (i.next pc)
  := by
  let numbers := i.registers.numbers
  let stop := core.operand pc base + 4 * UInt32.ofNat i.registers.size
  let loaded := (i.continuing pc).writeAll (numbers.map fun n => (n, value n))
  have hlow : ∀ n ∈ numbers, n < 13 := by
    intro n hn
    have hlt := hlist n (RegisterList.mem_numbers.mp hn).2
    omega
  have hlisted : ∀ n < 13, n ∈ numbers ↔ i.registers.contains n = true := by
    intro n hn
    have hlt : n < 16 := by omega
    rw [RegisterList.mem_numbers, and_iff_right hlt]
  have hplain : loaded.WritesOnly (i.next pc) := Effects.WritesOnly.writeAll (.goto _) value hlow
  have hwrites : loaded.applyWrites core = core.fill i.registers value := by
    rw [Effects.applyWrites_fill _ _ i.registers value hlow hlisted, continuing,
      Effects.applyWrites_goto]
  have hload : i.execute core pc bus
      = .ok (if i.writeback then loaded.write base stop else loaded) bus := by
    simp only [execute, hopcode, transferring, loadMultiple, hrn]
    rw [bind_of_ok _ hread, ← List.map_prod_left_eq_zip]
    rfl
  rw [hload, hwriteback]
  cases hlisted : i.registers.contains base with
  | true =>
    refine ⟨_, rfl, ?_⟩
    simp only [Bool.not_true, Bool.false_eq_true, if_false, if_true]
    rw [hplain.commit, hwrites]
  | false =>
    have hnumber : base < 15 := by omega
    refine ⟨_, rfl, ?_⟩
    simp only [Bool.not_false, Bool.false_eq_true, if_false, if_true]
    rw [(hplain.write hnumber _).commit, Effects.applyWrites_write _ _ hnumber, hwrites]

end Instruction

/-! ### There and back -/

/-- The list of a pop that takes back a push: the same low registers, and the program counter in
the place of the link register. -/
structure RegisterList.Returns (popped pushed : RegisterList) : Prop where
  low : ∀ n < 8, popped.contains n = pushed.contains n
  link : popped.contains 15 = pushed.contains 14

/-- The two lists name the registers of the same words, word by word. -/
theorem RegisterList.Returns.map_numbers {popped pushed : RegisterList}
    (h : popped.Returns pushed) (hpopped : popped.LowOr 15) (hpushed : pushed.LowOr 14)
    (read : Nat → Word) :
  pushed.numbers.map read = popped.numbers.map fun n => read (if n = 15 then 14 else n)
  := by
  have hlow : popped.low = pushed.low := by
    apply List.filter_congr
    intro n hn
    apply h.low n (List.mem_range.mp hn)
  have hsame : popped.low.map (fun n => read (if n = 15 then 14 else n)) = popped.low.map read := by
    apply List.map_congr_left
    intro n hn
    have hne : n ≠ 15 := by
      have hlt := (mem_low.mp hn).1
      omega
    rw [if_neg hne]
  rw [hpopped.numbers (.inr rfl), hpushed.numbers (.inl rfl), List.map_append, List.map_append,
    hsame, hlow, h.link]
  cases pushed.contains 14 <;> rfl

namespace Instruction

/-- A pop takes back a push that stores its words in memory at `start`. -/
structure PopRestores (push pop : Instruction) (core : ThumbCore) (pc : Word) (bus : Bus)
    (start : Word) : Prop where
  /-- An aligned push is done, in a memory of permitted size. -/
  pushes : start.toNat % 4 = 0 → bus.sram.size ≤ sramWindow →
    ∃ pushing pushed, push.execute core pc bus = .ok pushing pushed
  /-- A pop from the stack pointer that the push left finds the words as long as they are kept. It
  brings back the registers and the stack pointer, it continues at the link value if that was
  pushed, and it changes nothing else. -/
  pops : ∀ pushing pushed, push.execute core pc bus = .ok pushing pushed →
    ∀ (later : ThumbCore) (laterPc : Word) (laterBus : Bus),
    later.sp = (pushing.commit core).sp →
    pushed.KeepsWords start push.registers.size laterBus →
    (push.registers.contains 14 = true →
      ¬ (later.inException = true ∧ Exception.isReturn core.lr = true)) →
    ∃ popping, pop.execute later laterPc laterBus = .ok popping laterBus
      ∧ popping.commit later
        = ThumbCore.setPc { later.restore core pop.registers with sp := core.sp }
          (if push.registers.contains 14 then core.lr else pop.next laterPc)

/-- A load of several registers from the register `base` takes back a store that stores its words
in memory at `start`. -/
structure LoadRestores (store load : Instruction) (core : ThumbCore) (pc : Word) (bus : Bus)
    (start : Word) (base : Nat) : Prop where
  /-- An aligned store is done, in a memory of permitted size. -/
  stores : start.toNat % 4 = 0 → bus.sram.size ≤ sramWindow →
    ∃ storing stored, store.execute core pc bus = .ok storing stored
  /-- A load from the same address finds the words as long as they are kept. It brings back the
  registers, it moves a base that is not among them behind the last word, and it changes nothing
  else. -/
  loads : ∀ storing stored, store.execute core pc bus = .ok storing stored →
    ∀ (later : ThumbCore) (laterPc : Word) (laterBus : Bus),
    later.read (.ofNumber base) = start →
    stored.KeepsWords start store.registers.size laterBus →
    ∃ loading, load.execute later laterPc laterBus = .ok loading laterBus
      ∧ loading.commit later
        = ThumbCore.setPc
          (if load.registers.contains base then later.restore core load.registers
          else (later.restore core load.registers).write (.ofNumber base)
            (start + 4 * UInt32.ofNat store.registers.size))
          (load.next laterPc)

section

variable {first second : Instruction} {core : ThumbCore} {pc : Word} {bus : Bus}

/-- The stack pointer after a push. -/
theorem commit_push_sp (nextPc start : Word) (core : ThumbCore) :
  (((Effects.goto nextPc).write 13 start).commit core).sp = start
  := by
  rw [(Effects.WritesOnly.write (.goto nextPc) (by decide) start).commit,
    Effects.applyWrites_write _ _ (by decide)]
  rfl

theorem popRestores (hpush : first.opcode = .push) (hpop : second.opcode = .pop)
    (hpushed : first.registers.LowOr 14) (hpopped : second.registers.LowOr 15)
    (hlists : second.registers.Returns first.registers)
    (hspan : bus.WordsInMemory (core.sp - 4 * UInt32.ofNat first.registers.size)
      first.registers.size) :
  PopRestores first second core pc bus (core.sp - 4 * UInt32.ofNat first.registers.size)
  := by
  have hlength := first.listedValues_length core pc
  constructor
  case pushes =>
    intro halign hsize
    obtain ⟨stop, pushed, hstore⟩ := hspan.storeWords hlength halign hsize
    exact ⟨_, pushed, (execute_push hpush).mpr ⟨stop, hstore, rfl⟩⟩
  case pops =>
    intro pushing pushed hpushing later laterPc laterBus hsp hkept hstays
    obtain ⟨stop, hstore, rfl⟩ := (execute_push hpush).mp hpushing
    rw [continuing, commit_push_sp] at hsp
    have hvalues := listedValues_eq core pc fun n hn => by
      have hcases := hpushed n hn
      omega
    rw [hlists.map_numbers hpopped hpushed] at hvalues
    have hsize : second.registers.size = first.registers.size := by
      rw [← hlength, hvalues, List.length_map, RegisterList.size]
    have hread := hkept.readWords hlength hspan hstore
    rw [hvalues, ← hsp, ← hsize] at hread
    obtain ⟨popping, hpopping, hcommit⟩ := execute_pop hpop hpopped laterPc hread
      (fun hlink => hstays (hlists.link.symm.trans hlink))
    have hrestore : later.fill second.registers
        (fun n => core.read (.ofNumber (if n = 15 then 14 else n)))
        = later.restore core second.registers := by
      apply later.fill_congr
      intro n hn
      have hne : n ≠ 15 := by omega
      rw [if_neg hne]
    use popping, hpopping
    rw [hcommit, hlists.link, hsize, hsp, UInt32.sub_add_cancel, hrestore]
    rfl

theorem loadRestores {rn base : Nat} (hstore : first.opcode = .stm) (hload : second.opcode = .ldm)
    (hlow : ∀ n, first.registers.contains n = true → n < 8)
    (hlists : second.registers = first.registers)
    (hrn : first.rn = some rn) (hrn_lt : rn < 8) (hbase : second.rn = some base)
    (hbase_lt : base < 8) (hwriteback : second.writeback = !second.registers.contains base)
    (hspan : bus.WordsInMemory (core.read (.ofNumber rn)) first.registers.size) :
  LoadRestores first second core pc bus (core.read (.ofNumber rn)) base
  := by
  have hlength := first.listedValues_length core pc
  have hstart : core.operand pc rn = core.read (.ofNumber rn) := if_neg (by omega)
  constructor
  case stores =>
    intro halign hsize
    obtain ⟨stop, stored, hstored⟩ := hspan.storeWords hlength halign hsize
    rw [← hstart] at hstored
    exact ⟨_, stored, (execute_storeMultiple hstore hrn).mpr ⟨stop, hstored, rfl⟩⟩
  case loads =>
    intro storing stored hstoring later laterPc laterBus hat hkept
    obtain ⟨stop, hstored, rfl⟩ := (execute_storeMultiple hstore hrn).mp hstoring
    rw [hstart] at hstored
    have hvalues := listedValues_eq core pc fun n hn => by
      have hlt := hlow n hn
      omega
    have hplace : later.operand laterPc base = core.read (.ofNumber rn) := by
      rw [← hat]
      apply if_neg
      omega
    have hread := hkept.readWords hlength hspan hstored
    rw [hvalues, ← hplace, ← hlists] at hread
    rw [← hlists] at hlow
    obtain ⟨loading, hloading, hcommit⟩ :=
      execute_loadMultiple hload hbase hbase_lt hlow hwriteback laterPc hread
    use loading, hloading
    rw [hcommit, hplace, hlists]
    rfl

end

/-- **A pop takes back a push, and a load of several registers takes back a store.** If the words
of a push fit in memory, the push is done, provided that they are aligned and memory is of
permitted size. A pop of the same registers, the program counter for the link register, later
finds these words again, whatever the registers and the bus have become, if only the stack pointer
and the words are what they were left as. Then each listed low register has the value that was
pushed, the stack pointer is where it was before the push, execution continues at the link value
that was pushed, if one was and it does not leave an exception, and all else is as it was before
the pop. The same holds for a store of several registers and a load of the same registers from a
base with the same address; the base ends behind the last word, unless it is listed. -/
theorem execute_restores {w w' : Word} {length length' : Nat} {first second : Instruction}
    (hfirst : decode w length = .ok first) (hsecond : decode w' length' = .ok second)
    (core : ThumbCore) (pc : Word) (bus : Bus) :
  (first.opcode = .push → second.opcode = .pop → second.registers.Returns first.registers →
    let start := core.sp - 4 * UInt32.ofNat first.registers.size
    bus.WordsInMemory start first.registers.size → PopRestores first second core pc bus start)
  ∧ (first.opcode = .stm → second.opcode = .ldm → second.registers = first.registers →
    ∀ rn base, first.rn = some rn → second.rn = some base →
    let start := core.read (.ofNumber rn)
    bus.WordsInMemory start first.registers.size →
      LoadRestores first second core pc bus start base)
  := by
  constructor
  · intro hpush hpop hlists start hspan
    have hpushed : first.registers.LowOr 14 := by
      simpa [hpush] using stack_of_decode hfirst (.inl hpush)
    have hpopped : second.registers.LowOr 15 := by
      simpa [hpop] using stack_of_decode hsecond (.inr hpop)
    apply popRestores hpush hpop hpushed hpopped hlists hspan
  · intro hstore hload hlists rn base hrn hbase start hspan
    obtain ⟨hlow, _, hrn_lt, hrn', _⟩ := multiple_of_decode hfirst (.inl hstore)
    obtain ⟨_, _, hbase_lt, hbase', hkind⟩ := multiple_of_decode hsecond (.inr hload)
    cases hrn.symm.trans hrn'
    cases hbase.symm.trans hbase'
    have hwriteback : second.writeback = !second.registers.contains base := by
      simpa [hload] using hkind
    apply loadRestores hstore hload hlow hlists hrn hrn_lt hbase hbase_lt hwriteback hspan

/-! ### A call -/

/-- The instruction `push {r4, lr}`. -/
def pushLink : Instruction :=
  { plain .push 0xB510 2 with rn := some 13, registers := ⟨0x4010⟩ }

/-- The instruction `pop {r4, pc}`. -/
def popLink : Instruction :=
  { plain .pop 0xBD10 2 with rn := some 13, registers := ⟨0x8010⟩ }

/-- The instruction `stmia r0!, {r1, r2}`. -/
def storePair : Instruction :=
  { plain .stm 0xC006 2 with rn := some 0, registers := ⟨6⟩, writeback := true }

/-- The instruction `ldmia r3!, {r1, r2}`. -/
def loadPair : Instruction :=
  { plain .ldm 0xCB06 2 with rn := some 3, registers := ⟨6⟩, writeback := true }

/-- A core that has been called. -/
def called : ThumbCore :=
  { ThumbCore.reset 0x20000010 with
    general := #v[0x20000000, 5, 6, 0, 7, 0, 0, 0, 0, 0, 0, 0, 0]
    lr := 0x20000101 }

/-- A core that is about to return. -/
def returning : ThumbCore :=
  { ThumbCore.reset 0x20000008 with
    general := #v[0, 0, 0, 0x20000000, 0, 0, 0, 0, 0, 0, 0, 0, 0] }

/-- A bus with the words of the push in memory. -/
def pushedBus : Bus :=
  { Bus.initial 16 with sram := ⟨#[0, 0, 0, 0, 0, 0, 0, 0, 7, 0, 0, 0, 1, 1, 0, 0x20]⟩ }

/-- A bus with the words of the store in memory. -/
def storedBus : Bus :=
  { Bus.initial 16 with sram := ⟨#[5, 0, 0, 0, 6, 0, 0, 0, 0, 0, 0, 0, 0, 0, 0, 0]⟩ }

theorem returning_restores :
  (∃ popping, popLink.execute returning 0x20000020 pushedBus = .ok popping pushedBus
    ∧ popping.commit returning
      = { returning with
          general := #v[0, 0, 0, 0x20000000, 7, 0, 0, 0, 0, 0, 0, 0, 0]
          sp := 0x20000010
          pc := 0x20000100 })
  ∧ ∃ loading, loadPair.execute returning 0x20000020 storedBus = .ok loading storedBus
    ∧ loading.commit returning
      = { returning with
          general := #v[0, 5, 6, 0x20000008, 0, 0, 0, 0, 0, 0, 0, 0, 0]
          pc := 0x20000022 }
  := by
  constructor
  · have hdecode : decode 0xB510 2 = .ok pushLink := rfl
    have hdecode' : decode 0xBD10 2 = .ok popLink := rfl
    have hpush : pushLink.execute called 0x20000000 (Bus.initial 16)
        = .ok ((pushLink.continuing 0x20000000).write 13 0x20000008) pushedBus := by
      with_unfolding_all rfl
    have hspan : pushedBus.WordsInMemory 0x20000008 2 := by constructor <;> decide
    obtain ⟨hrestores, _⟩ :=
      execute_restores hdecode hdecode' called 0x20000000 (Bus.initial 16)
    have hlists : popLink.registers.Returns pushLink.registers := by constructor <;> decide
    obtain ⟨_, hpops⟩ := hrestores rfl rfl hlists (by constructor <;> decide)
    obtain ⟨popping, hpop, hcommit⟩ := hpops _ _ hpush returning 0x20000020 pushedBus
      rfl ⟨hspan, fun _ _ _ => rfl⟩ (by decide)
    use popping, hpop
    rw [hcommit]
    decide +kernel
  · have hdecode : decode 0xC006 2 = .ok storePair := rfl
    have hdecode' : decode 0xCB06 2 = .ok loadPair := rfl
    have hstore : storePair.execute called 0x20000000 (Bus.initial 16)
        = .ok ((storePair.continuing 0x20000000).write 0 0x20000008) storedBus := by
      with_unfolding_all rfl
    have hspan : storedBus.WordsInMemory 0x20000000 2 := by constructor <;> decide
    obtain ⟨_, hrestores⟩ :=
      execute_restores hdecode hdecode' called 0x20000000 (Bus.initial 16)
    obtain ⟨_, hloads⟩ := hrestores rfl rfl rfl 0 3 rfl rfl (by constructor <;> decide)
    obtain ⟨loading, hload, hcommit⟩ := hloads _ _ hstore returning 0x20000020 storedBus
      rfl ⟨hspan, fun _ _ _ => rfl⟩
    use loading, hload
    rw [hcommit]
    decide +kernel

end Instruction

end ThumbSoc
