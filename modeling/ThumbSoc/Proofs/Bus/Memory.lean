import ThumbSoc.Proofs.Bus.Burst

/-!
# Words in memory

Memory as a list of words: what is stored at an offset is what is found there afterwards, and
whatever lies beside it stays. A burst whose span lies in memory reads and writes exactly the
words there, once its addresses are routed.
-/

namespace ThumbSoc

namespace Sram

variable {memory memory' : Sram} {offset i length : Nat}

/-! ### Bytes -/

theorem byte_setByte_self (h : offset < memory.size) (value : UInt8) :
  (memory.setByte offset value).byte offset = value
  := by
  rw [byte, setByte, Array.getD_eq_getD_getElem?, Array.getElem?_setIfInBounds_self_of_lt h]
  rfl

theorem byte_setByte_ne (h : offset ≠ i) (value : UInt8) :
  (memory.setByte offset value).byte i = memory.byte i
  := by
  rw [byte, setByte, Array.getD_eq_getD_getElem?, Array.getElem?_setIfInBounds_ne h,
    ← Array.getD_eq_getD_getElem?, byte]

/-- A stored number changes no byte outside its span. -/
theorem byte_setValue (h : i < offset ∨ offset + length ≤ i) (value : Word) :
  (memory.setValue offset value length).byte i = memory.byte i
  := by
  induction length generalizing memory offset value with
  | zero => rfl
  | succ n ih =>
    rw [setValue, ih (by omega), byte_setByte_ne (by omega)]

/-- Spans with the same bytes, the second of which is in memory. -/
theorem byte_of_readBytes? (h : memory.readBytes? offset length = memory'.readBytes? offset length)
    (hfits : offset + length ≤ memory'.size) :
  offset + length ≤ memory.size
    ∧ ∀ i, offset ≤ i → i < offset + length → memory.byte i = memory'.byte i
  := by
  simp only [readBytes?, fits, decide_eq_true_eq, if_pos hfits] at h
  split at h
  · next hfits' =>
    use hfits'
    intro i hi hlt
    have hbytes := List.map_inj_left.mp (Option.some.inj h) (i - offset)
      (List.mem_range.mpr (by omega))
    rwa [Nat.add_sub_of_le hi] at hbytes
  · cases h

/-! ### Numbers -/

/-- A number depends on the bytes of its span only. -/
theorem value_congr
    (h : ∀ i, offset ≤ i → i < offset + length → memory.byte i = memory'.byte i) :
  memory.value offset length = memory'.value offset length
  := by
  induction length generalizing offset with
  | zero => rfl
  | succ n ih =>
    rw [value, value, h offset (Nat.le_refl _) (by omega), ih]
    intro i hi hlt
    apply h i (by omega) (by omega)

/-- A byte below a number that leaves room for it. -/
theorem toNat_or_shift (b : UInt8) {rest : Word} (h : rest.toNat < Nat.pow 2 24) :
  (b.toUInt32 ||| (rest <<< 8)).toNat = b.toNat + 256 * rest.toNat
  := by
  have hb : b.toNat < 2 ^ 8 := b.toNat_lt
  have hshift : (rest <<< 8).toNat = rest.toNat <<< 8 := by
    rw [UInt32.toNat_shiftLeft]
    apply Nat.mod_eq_of_lt
    rw [Nat.shiftLeft_eq]
    change rest.toNat * 256 < 4294967296
    change rest.toNat < 16777216 at h
    omega
  rw [UInt32.toNat_or, UInt8.toNat_toUInt32, hshift, Nat.or_comm,
    ← Nat.shiftLeft_add_eq_or_of_lt hb, Nat.shiftLeft_eq]
  omega

/-- A stored number reads back, cut to its length. -/
theorem toNat_value_setValue (hfits : offset + length ≤ memory.size) (hlength : length ≤ 4)
    (value : Word) :
  ((memory.setValue offset value length).value offset length).toNat
    = value.toNat % Nat.pow 256 length
  := by
  induction length generalizing memory offset value with
  | zero => apply (Nat.mod_one _).symm
  | succ n ih =>
    have hfits' : offset + 1 + n ≤ (memory.setByte offset value.toUInt8).size := by
      rw [size_setByte]
      omega
    have hrest := ih hfits' (by omega) (value >>> 8)
    have hbound : Nat.pow 256 n ≤ Nat.pow 256 3 := Nat.pow_le_pow_right (by decide) (by omega)
    have hroom : (((memory.setByte offset value.toUInt8).setValue (offset + 1) (value >>> 8) n).value
        (offset + 1) n).toNat < Nat.pow 2 24 := by
      rw [hrest]
      apply Nat.lt_of_lt_of_le (Nat.mod_lt _ (Nat.pow_pos (by decide))) hbound
    have hshift : (value >>> 8).toNat = value.toNat / 256 := by
      rw [UInt32.toNat_shiftRight, Nat.shiftRight_eq_div_pow]
      rfl
    have hsplit : Nat.pow 256 (n + 1) = 256 * Nat.pow 256 n := Nat.mul_comm _ _
    rw [setValue, Sram.value, toNat_or_shift _ hroom, hrest, hshift, hsplit, Nat.mod_mul,
      byte_setValue (by omega), byte_setByte_self (by omega), UInt32.toNat_toUInt8]

theorem value_setValue (h : offset + 4 ≤ memory.size) (value : Word) :
  (memory.setValue offset value 4).value offset 4 = value
  := by
  apply UInt32.toNat_inj.mp
  rw [toNat_value_setValue h (Nat.le_refl 4)]
  apply Nat.mod_eq_of_lt value.toNat_lt

/-! ### Lists of words -/

/-- The words of a span. -/
def words (memory : Sram) (offset : Nat) : Nat → List Word
  | 0 => []
  | count + 1 => memory.value offset 4 :: memory.words (offset + 4) count

/-- The memory with consecutive words stored in it. -/
def setWords (memory : Sram) (offset : Nat) : List Word → Sram
  | [] => memory
  | value :: rest => (memory.setValue offset value 4).setWords (offset + 4) rest

@[simp]
theorem size_setWords (memory : Sram) (offset : Nat) (values : List Word) :
  (memory.setWords offset values).size = memory.size
  := by
  induction values generalizing memory offset with
  | nil => rfl
  | cons value rest ih => rw [setWords, ih, size_setValue]

/-- Stored words change no byte outside their span. -/
theorem byte_setWords {values : List Word} (h : i < offset ∨ offset + 4 * values.length ≤ i) :
  (memory.setWords offset values).byte i = memory.byte i
  := by
  induction values generalizing memory offset with
  | nil => rfl
  | cons value rest ih =>
    rw [List.length_cons] at h
    rw [setWords, ih (by omega), byte_setValue (by omega)]

theorem words_congr {count : Nat}
    (h : ∀ i, offset ≤ i → i < offset + 4 * count → memory.byte i = memory'.byte i) :
  memory.words offset count = memory'.words offset count
  := by
  induction count generalizing offset with
  | zero => rfl
  | succ count ih =>
    rw [words, words, ih, value_congr]
    · intro i hi hlt
      apply h i hi (by omega)
    · intro i hi hlt
      apply h i (by omega) (by omega)

/-- Stored words read back. -/
theorem words_setWords {values : List Word} (h : offset + 4 * values.length ≤ memory.size) :
  (memory.setWords offset values).words offset values.length = values
  := by
  induction values generalizing memory offset with
  | nil => rfl
  | cons value rest ih =>
    rw [List.length_cons] at h
    have hfits : offset + 4 + 4 * rest.length ≤ (memory.setValue offset value 4).size := by
      rw [size_setValue]
      omega
    have hkeeps : ((memory.setValue offset value 4).setWords (offset + 4) rest).value offset 4
        = (memory.setValue offset value 4).value offset 4 :=
      value_congr fun i _ hlt => byte_setWords (Or.inl hlt)
    rw [setWords, List.length_cons, words, hkeeps, value_setValue (by omega), ih hfits]

end Sram

namespace Bus

variable {bus later : Bus} {start : Word} {count offset size : Nat}

/-! ### Bursts in memory -/

/-- The first word of a span in memory. -/
theorem sramOffset?_first (h : sramOffset? start (4 * (count + 1)) size = some offset) :
  sramOffset? start 4 size = some offset
  := by
  obtain ⟨hbase, hend, hoffset⟩ := sramOffset?_some h
  have hspan : sramBase.toNat ≤ start.toNat ∧ start.toNat + 4 ≤ sramBase.toNat + size := by omega
  simp only [sramOffset?, if_pos hspan, hoffset]

/-- The rest of a span in memory, if the addresses go on. -/
theorem sramOffset?_rest (h : sramOffset? start (4 * (count + 1)) size = some offset)
    (hnext : sramBase ≤ start + 4) :
  sramOffset? (start + 4) (4 * count) size = some (offset + 4)
  := by
  obtain ⟨hbase, hend, hoffset⟩ := sramOffset?_some h
  have hlt := start.toNat_lt
  have hsum : (start + 4).toNat = (start.toNat + 4) % 4294967296 := UInt32.toNat_add start 4
  have hle := UInt32.le_iff_toNat_le.mp hnext
  have hsramBase : sramBase.toNat = 536870912 := rfl
  have hexact : (start + 4).toNat = start.toNat + 4 := by omega
  have hspan : sramBase.toNat ≤ start.toNat + 4
      ∧ start.toNat + 4 + 4 * count ≤ sramBase.toNat + size := by omega
  simp only [sramOffset?, hexact, if_pos hspan, Option.some.injEq]
  omega

/-- A routed transfer whose span lies in memory goes there. -/
theorem route_memory {address : Word} {width : Width} {purpose : Purpose} {target : Target}
    (h : bus.route address width purpose = .ok target)
    (hspan : sramOffset? address width.bytes bus.sram.size = some offset) :
  bus.route address width purpose = .ok (.sram offset)
  := route_of_span (route_ok h).1 (checkRights_of_route h) hspan

/-- The addresses of a routed burst go on. -/
theorem Routed.next (h : bus.Routed start (count + 2)) :
  sramBase ≤ start + 4
  := by
  cases h with
  | cons first rest =>
    cases rest with
    | cons second rest => apply sramBase_le_of_write (checkRights_of_route second)

theorem Routed.aligned (h : bus.Routed start (count + 1)) :
  start.toNat % 4 = 0
  := by
  cases h with
  | cons first rest => apply (route_ok first).1

/-- A burst of writes whose span lies in memory stores its words there. -/
theorem writeWords_memory {values : List Word} (hrouted : bus.Routed start values.length)
    (hspan : sramOffset? start (4 * values.length) bus.sram.size = some offset) :
  writeWords start values bus = .ok () { bus with sram := bus.sram.setWords offset values }
  := by
  induction values generalizing bus start offset with
  | nil => rfl
  | cons value values ih =>
    have hfirst := sramOffset?_first hspan
    cases hrouted with
    | cons first rest =>
      let mid : Bus := { bus with sram := bus.sram.setValue offset value 4 }
      have hsize : mid.sram.size = bus.sram.size := Sram.size_setValue _ _ _ _
      have hwrite : Bus.write start .word value bus = .ok () mid := by
        simp only [Bus.write, route_memory first hfirst, writeTarget, Width.bytes, mid]
      rw [writeWords, bind_of_ok _ hwrite, Sram.setWords]
      cases values with
      | nil => rfl
      | cons second values =>
        have hburst : bus.Routed start (values.length + 2) := .cons first rest
        have hrest := sramOffset?_rest hspan hburst.next
        rw [← hsize] at hrest
        apply ih (rest.congr hsize) hrest

/-- A burst of reads whose span lies in memory, where it could also be written, finds the words
there and has no effect. -/
theorem readWords_memory (hrouted : bus.Routed start count)
    (hspan : sramOffset? start (4 * count) later.sram.size = some offset) :
  readWords start count later = .ok (later.sram.words offset count) later
  := by
  induction count generalizing start offset with
  | zero => rfl
  | succ count ih =>
    have halign := hrouted.aligned
    cases hrouted with
    | cons first rest =>
      have hroute : later.route start .word .read = .ok (.sram offset) :=
        route_of_span halign (checkRights_read (checkRights_of_route first))
          (sramOffset?_first hspan)
      have hread : Bus.read start .word later = .ok (later.sram.value offset 4) later := by
        simp only [Bus.read, hroute]
        rfl
      have hrest : readWords (start + 4) count later
          = .ok (later.sram.words (offset + 4) count) later := by
        cases count with
        | zero => rfl
        | succ count =>
          apply ih rest
          apply sramOffset?_rest hspan (Routed.cons first rest).next
      rw [readWords, bind_of_ok _ hread, bind_of_ok _ hrest]
      rfl

end Bus

end ThumbSoc
