import ThumbSoc.Proofs.Bus.ByteMemory
import ThumbSoc.Proofs.Stores

/-!
# Stores of several words

A store of several words happens completely or not at all, in a memory of permitted size. If it
happens, its words are written one after the other at ascending addresses, which never run off
the end of the address space; in memory they are found afterwards byte by byte, and nothing else
has changed.

The check beforehand asks whether a register answers and not whether it takes writes, so by
itself it does not promise that every write succeeds. That the store is complete all the same is
because no register that takes no writes comes after one that does. Instructions that store
several words inherit this, also the one whose vector is read between the check and the stores.
-/

namespace ThumbSoc

/-- Stored words are found byte by byte, the least significant one first. -/
theorem Sram.byte_setWords_inside {memory : Sram} {offset k j : Nat} {words : List Word}
    {word : Word} (hword : words[k]? = some word) (hj : j < 4)
    (hfits : offset + 4 * words.length ≤ memory.size) :
  (memory.setWords offset words).byte (offset + 4 * k + j) = word.byteAt j
  := by
  induction words generalizing memory offset k with
  | nil => cases hword
  | cons first rest ih =>
    rw [List.length_cons] at hfits
    rw [setWords]
    cases k with
    | zero =>
      cases hword
      rw [byte_setWords (by omega), byte_setValue_inside (by omega) (by omega) (by omega)]
      congr 1
      omega
    | succ k =>
      have hrest : offset + 4 * (k + 1) + j = offset + 4 + 4 * k + j := by omega
      rw [hrest, ih hword]
      rw [size_setValue]
      omega

namespace Bus

variable {bus bus' : Bus} {start : Word} {words : List Word}

/-- A span of consecutive words lies in memory. -/
def WordsInMemory (bus : Bus) (start : Word) (count : Nat) : Prop :=
  sramBase.toNat ≤ start.toNat ∧ start.toNat + 4 * count ≤ sramBase.toNat + bus.sram.size

theorem WordsInMemory.offset {count : Nat} (h : bus.WordsInMemory start count) :
  sramOffset? start (4 * count) bus.sram.size = some (start.toNat - sramBase.toNat)
  := if_pos h

/-- What a store of consecutive words in memory makes of a bus: each word is in its place, and
nothing else has changed. -/
structure Stored (bus : Bus) (start : Word) (words : List Word) (after : Bus) : Prop where
  inside : ∀ k word, words[k]? = some word → ∀ j < 4,
    after.byteAt (start.toNat + 4 * k + j) = word.byteAt j
  outside : ∀ a, sramBase.toNat ≤ a → a < start.toNat ∨ start.toNat + 4 * words.length ≤ a →
    after.byteAt a = bus.byteAt a
  size : after.sram.size = bus.sram.size
  devices : after = { bus with sram := after.sram }

theorem WordsInMemory.stored (h : bus.WordsInMemory start words.length) :
  bus.Stored start words
    { bus with sram := bus.sram.setWords (start.toNat - sramBase.toNat) words }
  := by
  obtain ⟨hbase, hend⟩ := h
  constructor
  case inside =>
    intro k word hword j hj
    have hindex : start.toNat + 4 * k + j - sramBase.toNat
        = start.toNat - sramBase.toNat + 4 * k + j := by omega
    rw [byteAt, hindex]
    apply Sram.byte_setWords_inside hword hj
    omega
  case outside =>
    intro a ha hout
    rw [byteAt, Sram.byte_setWords (by omega), byteAt]
  case size => apply Sram.size_setWords
  case devices => rfl

/-! ### Ascending addresses -/

/-- A routed burst does not run off the end of the address space. -/
theorem Routed.lt_next {count : Nat} (h : bus.Routed start (count + 2)) :
  start < start + 4
  := by
  have hnext := UInt32.le_iff_toNat_le.mp h.next
  have hbound := start.toNat_lt
  rw [UInt32.lt_iff_toNat_lt]
  rw [UInt32.toNat_add] at hnext ⊢
  change 0x20000000 ≤ (start.toNat + 4) % 4294967296 at hnext
  change start.toNat < (start.toNat + 4) % 4294967296
  omega

/-- The addresses of a routed burst ascend, from its start on. -/
theorem Routed.ascending (h : bus.Routed start words.length) :
  (∀ store ∈ wordStores start words, start ≤ store.address)
    ∧ (wordStores start words).Pairwise (·.address < ·.address)
  := by
  induction words generalizing start with
  | nil => exact ⟨List.forall_mem_nil _, List.Pairwise.nil⟩
  | cons word rest ih =>
    cases h with
    | cons first others =>
      obtain ⟨habove, hascending⟩ := ih others
      have hlt : ∀ store ∈ wordStores (start + 4) rest, start < store.address := by
        intro store hstore
        cases rest with
        | nil => cases hstore
        | cons second rest =>
          have hburst : bus.Routed start (rest.length + 2) := .cons first others
          apply UInt32.lt_of_lt_of_le hburst.lt_next (habove store hstore)
      constructor
      · rw [wordStores, List.forall_mem_cons]
        use UInt32.le_refl start
        intro store hstore
        apply UInt32.le_of_lt (hlt store hstore)
      · apply List.Pairwise.cons hlt hascending

/-! ### All or nothing -/

/-- In a memory of permitted size, a store of several words is rejected without a trace, or every
word is routed and written. -/
theorem storeWords_cases (hsize : bus.sram.size ≤ sramWindow) (start : Word) (words : List Word) :
  (∃ fault, storeWords start words bus = .error fault bus)
    ∨ bus.Routed start words.length ∧ ∃ after, writeWords start words bus = .ok () after
      ∧ storeWords start words bus = .ok (start + 4 * UInt32.ofNat words.length) after
  := by
  rcases storeWords_eq bus start words with ⟨_, hfault⟩ | ⟨hrouted, hwrites⟩
  · left
    apply hfault
  · cases hwrite : writeWords start words bus with
    | ok u after =>
      rw [hwrite] at hwrites
      right
      use hrouted, after
    | error fault after =>
      rw [hwrite] at hwrites
      left
      use fault
      rcases writeWords_error hrouted hwrite with ⟨rfl, _⟩ | htears
      · apply hwrites
      · exact absurd htears.size (Nat.not_lt.mpr hsize)

/-- A check of a write accepts the status register of the first serial port, and the write is
rejected. -/
theorem probe_status (hsize : bus.sram.size ≤ sramWindow) :
  bus.probe 0x40034018 .word .write = .ok ()
    ∧ ∀ value, Bus.write 0x40034018 .word value bus = .error (.readOnly 0x40034018) bus
  := by
  have hnone : sramOffset? 0x40034018 Width.word.bytes bus.sram.size = none := by
    apply if_neg
    change ¬ (0x20000000 ≤ 0x40034018 ∧ 0x40034018 + 4 ≤ 0x20000000 + bus.sram.size)
    change bus.sram.size ≤ 0x42800 at hsize
    omega
  obtain ⟨target, hroute, hreadOnly⟩ := refuses_iff.mp ⟨by decide, hnone, by decide⟩
  constructor
  · rw [probe, hroute]
    rfl
  · intro value
    have hwrite := write_routed hroute value
    rw [hreadOnly, if_pos rfl] at hwrite
    apply hwrite

end Bus

/-- An instruction that stores several words and faults leaves the bus as it was. -/
theorem Instruction.block_error {i : Instruction} {core : ThumbCore} {pc : Word} {bus bus' : Bus}
    {fault : CoreFault} (hsize : bus.sram.size ≤ sramWindow)
    (hblock : i.opcode = .stm ∨ i.opcode = .push ∨ i.opcode = .svc)
    (h : i.execute core pc bus = .error fault bus') :
  bus' = bus
  := by
  have hwhole {start : Word} {count : Nat} : ¬ bus.Tears start count :=
    fun htears => absurd htears.size (Nat.not_lt.mpr hsize)
  rcases hblock with hopcode | hopcode | hopcode
  · simp only [execute, hopcode] at h
    obtain ⟨cause, _, herror⟩ := transferring_error.mp h
    cases hrn : i.rn with
    | none =>
      simp only [storeMultiple, hrn] at herror
      cases herror
    | some rn =>
      simp only [storeMultiple, hrn] at herror
      rcases bind_eq_error.mp herror with hstore | ⟨_, _, _, hpure⟩
      · apply (storedWords_error hstore).resolve_right hwhole
      · cases hpure
  · simp only [execute, hopcode] at h
    obtain ⟨cause, _, herror⟩ := transferring_error.mp h
    rcases bind_eq_error.mp herror with hstore | ⟨_, _, _, hpure⟩
    · apply (storedWords_error hstore).resolve_right hwhole
    · cases hpure
  · simp only [execute, hopcode] at h
    obtain ⟨cause, _, herror⟩ := transferring_error.mp h
    apply (enter_error herror).resolve_right hwhole

/-- **Stores of several words are all or nothing.** In a memory of permitted size, a store of
several words is rejected and leaves the bus as it was, or it succeeds with the address behind its
last word. Then it has written each word once, at ascending addresses, and if its span lies in
memory, the words are there, least significant byte first, and nothing else has changed. So the
instructions that store several words leave the whole bus as it was if they fault. This is so
although there is a register that a check of a write accepts and no write succeeds at. -/
theorem Bus.storeWords_allOrNothing (bus : Bus) (hsize : bus.sram.size ≤ sramWindow) :
  (∀ start words,
      (∃ fault, storeWords start words bus = .error fault bus)
      ∨ ∃ after, storeWords start words bus = .ok (start + 4 * UInt32.ofNat words.length) after
        ∧ performStores (wordStores start words) bus = .ok () after
        ∧ (wordStores start words).Pairwise (·.address < ·.address)
        ∧ (bus.WordsInMemory start words.length → bus.Stored start words after))
    ∧ (∀ (i : Instruction) (core : ThumbCore) (pc : Word) (fault : CoreFault) (bus' : Bus),
      i.opcode = .stm ∨ i.opcode = .push ∨ i.opcode = .svc →
      i.execute core pc bus = .error fault bus' → bus' = bus)
    ∧ ∃ address, bus.probe address .word .write = .ok ()
      ∧ ∀ value, Bus.write address .word value bus = .error (.readOnly address) bus
  := by
  constructor
  · intro start words
    rcases storeWords_cases hsize start words with hrejected | ⟨hrouted, after, hwrite, hstore⟩
    · left
      apply hrejected
    · right
      use after, hstore
      rw [performStores_words]
      use hwrite, hrouted.ascending.2
      intro hspan
      rw [writeWords_memory hrouted hspan.offset] at hwrite
      cases hwrite
      apply hspan.stored
  constructor
  · intro i core pc fault bus' hblock hfault
    apply Instruction.block_error hsize hblock hfault
  · use 0x40034018
    apply probe_status hsize

/-- In a memory of two words, two words can be stored at its start, and none if they would run off
its end. -/
theorem initial_storeWords_allOrNothing :
  (Bus.initial 8).sram.size ≤ sramWindow
    ∧ Bus.storeWords 0x20000004 [0x11223344, 5] (Bus.initial 8)
      = .error (.unmapped 0x20000008) (Bus.initial 8)
    ∧ ∃ after, Bus.storeWords 0x20000000 [0x11223344, 5] (Bus.initial 8) = .ok 0x20000008 after
      ∧ (Bus.initial 8).Stored 0x20000000 [0x11223344, 5] after
  := by
  have hsize : (Bus.initial 8).sram.size ≤ sramWindow := by decide
  use hsize, by with_unfolding_all rfl
  obtain ⟨hstores, _⟩ := Bus.storeWords_allOrNothing (Bus.initial 8) hsize
  rcases hstores 0x20000000 [0x11223344, 5] with ⟨fault, hfault⟩ | ⟨after, hstore, _, _, hstored⟩
  · have hok : ∃ after, Bus.storeWords 0x20000000 [0x11223344, 5] (Bus.initial 8)
        = .ok 0x20000008 after := ⟨_, by with_unfolding_all rfl⟩
    obtain ⟨after, hok⟩ := hok
    rw [hok] at hfault
    cases hfault
  · use after, hstore
    apply hstored
    constructor <;> decide

end ThumbSoc
