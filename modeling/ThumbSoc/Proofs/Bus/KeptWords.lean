import ThumbSoc.Proofs.BlockStores

/-!
# Words that are kept

A store of consecutive words in memory succeeds if it is aligned, in a memory of permitted size.
As long as nobody touches the words they are read back as they were stored, also by a bus that
has otherwise become a different one.
-/

namespace ThumbSoc.Bus

variable {bus stored later : Bus} {start stop : Word} {values : List Word} {count : Nat}

/-- Consecutive words lie in the memory of a later bus, and are there what they were. -/
structure KeepsWords (stored : Bus) (start : Word) (count : Nat) (later : Bus) : Prop where
  span : later.WordsInMemory start count
  bytes : ∀ a, start.toNat ≤ a → a < start.toNat + 4 * count → later.byteAt a = stored.byteAt a

/-- In a memory of permitted size, the addresses of aligned words are routed. -/
theorem WordsInMemory.routed (h : bus.WordsInMemory start count)
    (halign : start.toNat % 4 = 0) (hsize : bus.sram.size ≤ sramWindow) :
  bus.Routed start count
  := by
  induction count generalizing start with
  | zero => exact .nil
  | succ count ih =>
    have hfirst := sramOffset?_first h.offset
    have hrights := (inMemory_iff.mpr ⟨_, hfirst⟩ : bus.InMemory start .word).rights hsize
    apply Routed.cons (route_of_span halign hrights hfirst)
    obtain ⟨hbase, hend⟩ := h
    have hnext : (start + 4).toNat = start.toNat + 4 := by
      have hsum : (start + 4).toNat = (start.toNat + 4) % 4294967296 := UInt32.toNat_add start 4
      change start.toNat + 4 * (count + 1) ≤ 0x20000000 + bus.sram.size at hend
      change bus.sram.size ≤ 0x42800 at hsize
      omega
    apply ih
    · rw [WordsInMemory, hnext]
      omega
    · omega

/-- A routed store of words in memory is done. -/
theorem Routed.storeWords (hrouted : bus.Routed start values.length)
    (hspan : bus.WordsInMemory start values.length) :
  Bus.storeWords start values bus
    = .ok (start + 4 * UInt32.ofNat values.length)
        { bus with sram := bus.sram.setWords (start.toNat - sramBase.toNat) values }
  := by
  rcases storeWords_eq bus start values with ⟨hunrouted, _⟩ | ⟨_, hstores⟩
  · exact absurd hrouted hunrouted
  · rw [hstores, writeWords_memory hrouted hspan.offset]

/-- A store that was done was routed. -/
theorem routed_of_storeWords (h : storeWords start values bus = .ok stop stored) :
  bus.Routed start values.length
  := by
  rcases storeWords_eq bus start values with ⟨_, fault, hfault⟩ | ⟨hrouted, _⟩
  · rw [hfault] at h
    cases h
  · apply hrouted

/-- An aligned store of words in memory is done, in a memory of permitted size. -/
theorem WordsInMemory.storeWords (h : bus.WordsInMemory start count)
    (hlength : values.length = count) (halign : start.toNat % 4 = 0)
    (hsize : bus.sram.size ≤ sramWindow) :
  ∃ stop stored, Bus.storeWords start values bus = .ok stop stored
  := by
  subst hlength
  exact ⟨_, _, (h.routed halign hsize).storeWords h⟩

/-- Stored words that are kept read back. -/
theorem KeepsWords.readWords (hkept : stored.KeepsWords start count later)
    (hlength : values.length = count) (hspan : bus.WordsInMemory start count)
    (h : storeWords start values bus = .ok stop stored) :
  Bus.readWords start count later = .ok values later
  := by
  subst hlength
  have hrouted := routed_of_storeWords h
  rw [hrouted.storeWords hspan] at h
  cases h
  obtain ⟨hbase, hend⟩ := hspan
  have hfits : start.toNat - sramBase.toNat + 4 * values.length ≤ bus.sram.size := by omega
  have hbytes : ∀ i, start.toNat - sramBase.toNat ≤ i →
      i < start.toNat - sramBase.toNat + 4 * values.length →
      later.sram.byte i
        = (bus.sram.setWords (start.toNat - sramBase.toNat) values).byte i := by
    intro i hi hlt
    have hbyte := hkept.bytes (sramBase.toNat + i) (by omega) (by omega)
    simp only [byteAt, Nat.add_sub_cancel_left] at hbyte
    apply hbyte
  rw [readWords_memory hrouted hkept.span.offset, Sram.words_congr hbytes,
    Sram.words_setWords hfits]

end ThumbSoc.Bus
