import ThumbSoc.Proofs.Bus.ByteMemory
import ThumbSoc.Proofs.Machine.FreshStart

/-!
# Loading images

An image is loaded as a whole or not at all. Once every segment is known to lie in memory no
placement can fail, so even a loader that keeps what it placed before a failure never leaves a part
of an image behind. After a load each byte of memory is that of the last segment that covers it, and
bytes that no later segment covers read back.
-/

namespace ThumbSoc

/-! ### Segments -/

namespace Segment

/-- All bytes of the segment have their place in a memory of `size` bytes. -/
def LiesIn (size : Nat) (segment : Segment) : Prop :=
  sramBase.toNat ≤ segment.address.toNat
    ∧ segment.address.toNat + segment.data.length ≤ sramBase.toNat + size

instance (size : Nat) (segment : Segment) : Decidable (segment.LiesIn size) :=
  inferInstanceAs (Decidable (_ ∧ _))

/-- The byte of the segment for an address, if the segment covers it. -/
def byte? (segment : Segment) (a : Nat) : Option UInt8 :=
  if segment.address.toNat ≤ a then segment.data[a - segment.address.toNat]? else none

/-- No address is covered by both segments. -/
def Disjoint (segment other : Segment) : Prop :=
  ∀ a, segment.byte? a = none ∨ other.byte? a = none

theorem byte?_add (segment : Segment) (k : Nat) :
  segment.byte? (segment.address.toNat + k) = segment.data[k]?
  := by rw [byte?, if_pos (Nat.le_add_right _ _), Nat.add_sub_cancel_left]

/-- Among segments, the first one that does not lie in memory. -/
def FirstOutside (size : Nat) (segments : List Segment) (segment : Segment) : Prop :=
  ∃ before later, segments = before ++ segment :: later
    ∧ (∀ s ∈ before, s.LiesIn size) ∧ ¬ segment.LiesIn size

end Segment

namespace Sram

variable {memory : Sram} {offset i : Nat}

/-- Stored bytes change the bytes of their span to their own. -/
theorem byte_setBytes {data : List UInt8} (hfits : offset + data.length ≤ memory.size) :
  (memory.setBytes offset data).byte i
    = (if offset ≤ i then data[i - offset]? else none).getD (memory.byte i)
  := by
  induction data generalizing memory offset with
  | nil =>
    rw [setBytes, List.getElem?_nil, ite_self, Option.getD_none]
  | cons b rest ih =>
    rw [List.length_cons] at hfits
    have hfits' : offset + 1 + rest.length ≤ (memory.setByte offset b).size := by
      rw [size_setByte]
      omega
    rw [setBytes, ih hfits']
    rcases Nat.lt_trichotomy i offset with hlt | rfl | hgt
    · rw [if_neg (by omega), if_neg (by omega), Option.getD_none, Option.getD_none,
        byte_setByte_ne (by omega)]
    · rw [if_neg (by omega), if_pos (Nat.le_refl i), Option.getD_none, Nat.sub_self,
        byte_setByte_self (by omega)]
      rfl
    · have hindex : i - offset = (i - (offset + 1)) + 1 := by omega
      have hnext : offset + 1 ≤ i := hgt
      rw [if_pos hnext, if_pos (Nat.le_of_lt hgt), hindex, List.getElem?_cons_succ,
        byte_setByte_ne (by omega)]

/-- The memory with the bytes of a segment in their place. -/
def place (memory : Sram) (segment : Segment) : Sram :=
  memory.setBytes (segment.address.toNat - sramBase.toNat) segment.data

/-- The memory with the bytes of segments in their places, one after the other. -/
def placeAll (memory : Sram) (segments : List Segment) : Sram :=
  segments.foldl place memory

@[simp]
theorem size_place (memory : Sram) (segment : Segment) :
  (memory.place segment).size = memory.size
  := size_setBytes ..

@[simp]
theorem size_placeAll (memory : Sram) (segments : List Segment) :
  (memory.placeAll segments).size = memory.size
  := by
  induction segments generalizing memory with
  | nil => rfl
  | cons segment rest ih => exact (ih (memory.place segment)).trans (size_place memory segment)

theorem byte_place {segment : Segment} (h : segment.LiesIn memory.size) {a : Nat}
    (ha : sramBase.toNat ≤ a) :
  (memory.place segment).byte (a - sramBase.toNat)
    = (segment.byte? a).getD (memory.byte (a - sramBase.toNat))
  := by
  obtain ⟨hbase, hend⟩ := h
  have hindex : a - sramBase.toNat - (segment.address.toNat - sramBase.toNat)
      = a - segment.address.toNat := by omega
  have hfits : segment.address.toNat - sramBase.toNat + segment.data.length ≤ memory.size := by
    omega
  rw [place, byte_setBytes hfits, hindex]
  by_cases hspan : segment.address.toNat ≤ a
  · have hshift : segment.address.toNat - sramBase.toNat ≤ a - sramBase.toNat := by omega
    rw [if_pos hshift, Segment.byte?, if_pos hspan]
  · have hshift : ¬ segment.address.toNat - sramBase.toNat ≤ a - sramBase.toNat := by omega
    rw [if_neg hshift, Segment.byte?, if_neg hspan]

/-- The last segment that covers an address decides on its byte. -/
theorem byte_placeAll {segments : List Segment} (h : ∀ s ∈ segments, s.LiesIn memory.size) {a : Nat}
    (ha : sramBase.toNat ≤ a) :
  (memory.placeAll segments).byte (a - sramBase.toNat)
    = (segments.reverse.findSome? (·.byte? a)).getD (memory.byte (a - sramBase.toNat))
  := by
  have hstep : ∀ mid : Sram, mid.size = memory.size → ∀ segment ∈ segments,
      (mid.place segment).size = memory.size
        ∧ (mid.place segment).byte (a - sramBase.toNat)
          = (segment.byte? a).getD (mid.byte (a - sramBase.toNat)) := by
    intro mid hmid segment hsegment
    have hlies : segment.LiesIn mid.size := hmid ▸ h segment hsegment
    exact ⟨(size_place mid segment).trans hmid, byte_place hlies ha⟩
  exact (foldl_last (P := fun mid : Sram => mid.size = memory.size)
    (f := fun mid : Sram => mid.byte (a - sramBase.toNat)) hstep rfl).2

/-- The bytes of a segment are found in their place if no later segment covers them. -/
theorem byte_placeAll_inside {before later : List Segment} {segment : Segment}
    (h : ∀ s ∈ before ++ segment :: later, s.LiesIn memory.size)
    (hdisjoint : ∀ other ∈ later, segment.Disjoint other) {k : Nat} (hk : k < segment.data.length) :
  segment.data[k]? = some ((memory.placeAll (before ++ segment :: later)).byte
    (segment.address.toNat + k - sramBase.toNat))
  := by
  have hbase := (h segment (List.mem_append_right _ (.head _))).1
  have hcovers : segment.byte? (segment.address.toNat + k) = some segment.data[k] := by
    rw [Segment.byte?_add, List.getElem?_eq_getElem hk]
  have hlater : later.reverse.findSome? (·.byte? (segment.address.toNat + k)) = none := by
    rw [List.findSome?_eq_none_iff]
    intro other hother
    apply (hdisjoint other (List.mem_reverse.mp hother) _).resolve_left
    rw [hcovers]
    apply Option.some_ne_none
  rw [byte_placeAll h (Nat.le_add_right_of_le hbase), List.reverse_append, List.reverse_cons,
    List.findSome?_append, List.findSome?_append, hlater, List.findSome?_singleton, hcovers,
    List.getElem?_eq_getElem hk]
  rfl

/-- A single byte reads back as it is. -/
theorem toUInt8_value (memory : Sram) (offset : Nat) :
  (memory.value offset 1).toUInt8 = memory.byte offset
  := by
  rw [value, value]
  simp

end Sram

/-! ### The checks -/

namespace Bus

variable {bus : Bus} {segment : Segment}

/-- Placing bytes with a check of its own in each layer: the span of addresses lies in memory,
and the offset leaves room for the bytes. -/
def loadChecked? (bus : Bus) (address : Word) (data : List UInt8) : Option Bus :=
  (sramOffset? address data.length bus.sram.size).bind fun offset =>
    (bus.sram.load? offset data).map fun sram => { bus with sram }

theorem sramOffset?_of_liesIn {size : Nat} (h : segment.LiesIn size) :
  sramOffset? segment.address segment.data.length size
    = some (segment.address.toNat - sramBase.toNat)
  := if_pos h

theorem sramOffset?_of_not_liesIn {size : Nat} (h : ¬ segment.LiesIn size) :
  sramOffset? segment.address segment.data.length size = none
  := if_neg h

/-- The check of the offset never fails after the check of the span. -/
theorem loadChecked?_eq (bus : Bus) (segment : Segment) :
  bus.loadChecked? segment.address segment.data
    = if segment.LiesIn bus.sram.size then some { bus with sram := bus.sram.place segment } else none
  := by
  by_cases h : segment.LiesIn bus.sram.size
  · have hfits : bus.sram.fits (segment.address.toNat - sramBase.toNat) segment.data.length := by
      obtain ⟨hbase, hend⟩ := h
      apply decide_eq_true
      omega
    rw [if_pos h, loadChecked?, sramOffset?_of_liesIn h, Option.bind_some, Sram.load?, if_pos hfits]
    rfl
  · rw [if_neg h, loadChecked?, sramOffset?_of_not_liesIn h, Option.bind_none]

theorem load?_eq (bus : Bus) (segment : Segment) :
  bus.load? segment.address segment.data
    = if segment.LiesIn bus.sram.size then some { bus with sram := bus.sram.place segment } else none
  := by
  by_cases h : segment.LiesIn bus.sram.size
  · rw [if_pos h, load?, sramOffset?_of_liesIn h]
    rfl
  · rw [if_neg h, load?, sramOffset?_of_not_liesIn h]

/-- Bytes that lie in memory are read back one after the other, without any effect. -/
theorem readBytes_memory (hsize : bus.sram.size ≤ sramWindow) {address : Word} {data : List UInt8}
    (hlies : Segment.LiesIn bus.sram.size ⟨address, data⟩)
    (hdata : ∀ k < data.length, data[k]? = some (bus.byteAt (address.toNat + k)))
    (collected : Array UInt8) :
  readBytes address collected data.length bus = .ok (collected ++ data.toArray) bus
  := by
  induction data generalizing address collected with
  | nil =>
    rw [Array.append_empty]
    rfl
  | cons b rest ih =>
    obtain ⟨hbase, hend⟩ := hlies
    simp only [List.length_cons] at hbase hend
    have hmemory : bus.InMemory address .byte := by
      intro k hk
      change k < 1 at hk
      omega
    have hread := ((inSram_iff hsize).mpr hmemory).read_eq (Nat.mod_one _)
    have hfirst : (bus.sram.value (address.toNat - sramBase.toNat) Width.byte.bytes).toUInt8 = b := by
      have hbyte := hdata 0 (Nat.succ_pos _)
      rw [List.getElem?_cons_zero] at hbyte
      apply (Sram.toUInt8_value _ _).trans (Option.some.inj hbyte).symm
    -- The next address does not wrap, since the window ends far below the last address.
    have hnext : (address + 1).toNat = address.toNat + 1 := by
      rw [UInt32.toNat_add]
      apply Nat.mod_eq_of_lt
      change address.toNat + (rest.length + 1) ≤ 0x20000000 + bus.sram.size at hend
      change bus.sram.size ≤ 0x42800 at hsize
      change address.toNat + 1 < 0x100000000
      omega
    have hlies' : Segment.LiesIn bus.sram.size ⟨address + 1, rest⟩ := by
      simp only [Segment.LiesIn, hnext]
      omega
    have hdata' : ∀ k < rest.length, rest[k]? = some (bus.byteAt ((address + 1).toNat + k)) := by
      intro k hk
      rw [hnext, Nat.add_assoc, Nat.add_comm 1, ← hdata (k + 1) (Nat.succ_lt_succ hk),
        List.getElem?_cons_succ]
    have hrest := ih hlies' hdata' (collected.push b)
    rw [List.length_cons, readBytes]
    simp only [bind, EStateM.bind, hread, hfirst]
    rw [hrest, List.push_append_toArray]

end Bus

/-! ### Loads -/

theorem Core.pc_setPc (core : Core) (value : Word) :
  (core.setPc value).pc = Word.even value
  := by
  cases core
  all_goals rfl

namespace Machine

variable {machine after : Machine} {segments : List Segment} {segment : Segment} {image : Image}

theorem accepts_iff :
  machine.accepts segment = true ↔ segment.LiesIn machine.bus.sram.size
  := by
  by_cases h : segment.LiesIn machine.bus.sram.size
  · rw [accepts, Bus.sramOffset?_of_liesIn h]
    apply iff_of_true rfl h
  · rw [accepts, Bus.sramOffset?_of_not_liesIn h]
    apply iff_of_false Bool.false_ne_true h

theorem find?_accepts_eq_none :
  (segments.find? fun segment => !machine.accepts segment) = none
    ↔ ∀ s ∈ segments, s.LiesIn machine.bus.sram.size
  := by simp only [List.find?_eq_none, Bool.not_eq_true, Bool.not_eq_false', accepts_iff]

theorem firstOutside_of_find?
    (h : (segments.find? fun segment => !machine.accepts segment) = some segment) :
  Segment.FirstOutside machine.bus.sram.size segments segment
  := by
  obtain ⟨hsegment, before, later, rfl, hbefore⟩ := List.find?_eq_some_iff_append.mp h
  use before, later, rfl
  constructor
  · intro s hs
    have haccepted := hbefore s hs
    rw [Bool.not_not] at haccepted
    apply accepts_iff.mp haccepted
  · intro hlies
    rw [accepts_iff.mpr hlies] at hsegment
    cases hsegment

/-- The machine with segments placed in its memory. -/
def placeAll (machine : Machine) (segments : List Segment) : Machine :=
  { machine with bus := { machine.bus with sram := machine.bus.sram.placeAll segments } }

theorem loadBytes_eq (machine : Machine) (segment : Segment) :
  machine.loadBytes segment.address segment.data
    = if segment.LiesIn machine.bus.sram.size then .ok (machine.placeAll [segment])
      else .error (.outOfRange segment.address segment.data.length)
  := by
  rw [loadBytes, Bus.load?_eq]
  by_cases h : segment.LiesIn machine.bus.sram.size
  · rw [if_pos h, if_pos h]
    rfl
  · rw [if_neg h, if_neg h]

/-- Placing a segment leaves the later ones acceptable. -/
theorem liesIn_placeAll {rest : List Segment}
    (h : ∀ s ∈ segment :: rest, s.LiesIn machine.bus.sram.size) :
  ∀ s ∈ rest, s.LiesIn (machine.placeAll [segment]).bus.sram.size
  := by
  intro s hs
  rw [placeAll, Sram.size_placeAll]
  apply h s (.tail _ hs)

/-- No placement of an accepted segment fails, whatever was placed before it. -/
theorem foldlM_loadBytes (h : ∀ s ∈ segments, s.LiesIn machine.bus.sram.size) :
  segments.foldlM (fun m segment => m.loadBytes segment.address segment.data) machine
    = .ok (machine.placeAll segments)
  := by
  induction segments generalizing machine with
  | nil => rfl
  | cons segment rest ih =>
    rw [List.foldlM_cons, loadBytes_eq, if_pos (h segment (.head _))]
    apply ih (liesIn_placeAll h)

/-- An image is loaded if all its segments lie in memory. -/
theorem loadImage_placed (h : ∀ s ∈ image.segments, s.LiesIn machine.bus.sram.size) :
  machine.loadImage image = .ok ((machine.placeAll image.segments).enterAt image.entry)
  := by
  rw [loadImage, find?_accepts_eq_none.mpr h, foldlM_loadBytes h]
  rfl

/-- Segments are placed one by one, and what was placed before a failure stays. -/
def placeEach : List Segment → EStateM LoadError Machine Unit
  | [] => pure ()
  | segment :: rest => fun machine =>
    match machine.bus.loadChecked? segment.address segment.data with
    | some bus => placeEach rest { machine with bus }
    | none => .error (.outOfRange segment.address segment.data.length) machine

theorem placeEach_placed (h : ∀ s ∈ segments, s.LiesIn machine.bus.sram.size) :
  placeEach segments machine = .ok () (machine.placeAll segments)
  := by
  induction segments generalizing machine with
  | nil => rfl
  | cons segment rest ih =>
    have hplaced : machine.bus.loadChecked? segment.address segment.data
        = some (machine.placeAll [segment]).bus := by
      rw [Bus.loadChecked?_eq, if_pos (h segment (.head _))]
      rfl
    simp only [placeEach, hplaced]
    apply ih (liesIn_placeAll h)

/-- Loads an image in place, with a check of its own for each placement. -/
def loadInPlace (image : Image) : EStateM LoadError Machine Unit := fun machine =>
  match image.segments.find? fun segment => !machine.accepts segment with
  | some segment => .error (.outOfRange segment.address segment.data.length) machine
  | none =>
    match placeEach image.segments machine with
    | .ok () after => .ok () (after.enterAt image.entry)
    | .error e after => .error e after

theorem loadInPlace_placed (h : ∀ s ∈ image.segments, s.LiesIn machine.bus.sram.size) :
  loadInPlace image machine = .ok () ((machine.placeAll image.segments).enterAt image.entry)
  := by simp only [loadInPlace, find?_accepts_eq_none.mpr h, placeEach_placed h]

/-- Nothing is placed if some segment does not lie in memory. -/
theorem loadImage_refused
    (h : (image.segments.find? fun segment => !machine.accepts segment) = some segment) :
  machine.loadImage image = .error (.outOfRange segment.address segment.data.length)
    ∧ loadInPlace image machine
      = .error (.outOfRange segment.address segment.data.length) machine
  := by
  constructor
  · rw [loadImage, h]
  · simp only [loadInPlace, h]

/-- What a load of an image makes of a machine. -/
structure Loaded (machine : Machine) (image : Image) (after : Machine) : Prop where
  /-- Each byte of memory is that of the last segment that covers it, or else the old one. -/
  bytes : ∀ a, sramBase.toNat ≤ a → after.bus.byteAt a
    = (image.segments.reverse.findSome? (·.byte? a)).getD (machine.bus.byteAt a)
  /-- Memory has the size that it had. -/
  size : after.bus.sram.size = machine.bus.sram.size
  /-- The first core stands at the entry. -/
  entered : ∀ slot, after.slots[0]? = some slot → slot.core.pc = Word.even image.entry
  /-- Nothing else changes. -/
  others : after = { machine with
    bus := { machine.bus with sram := after.bus.sram }
    slots := machine.slots.modify 0 fun slot =>
      { slot with core := slot.core.setPc image.entry } }

theorem loaded_placed (h : ∀ s ∈ image.segments, s.LiesIn machine.bus.sram.size) :
  machine.Loaded image ((machine.placeAll image.segments).enterAt image.entry)
  where
  bytes _ ha := Sram.byte_placeAll h ha
  size := Sram.size_placeAll ..
  entered slot hslot := by
    simp only [enterAt, modifySlot, Array.getElem?_modify, if_true, Option.map_eq_some_iff] at hslot
    obtain ⟨old, _, rfl⟩ := hslot
    apply Core.pc_setPc
  others := rfl

theorem placed_of_loadImage (h : machine.loadImage image = .ok after) :
  (∀ s ∈ image.segments, s.LiesIn machine.bus.sram.size)
    ∧ after = (machine.placeAll image.segments).enterAt image.entry
  := by
  cases hfind : image.segments.find? fun segment => !machine.accepts segment with
  | some segment =>
    simp only [loadImage, hfind] at h
    cases h
  | none =>
    have hlies := find?_accepts_eq_none.mp hfind
    rw [loadImage_placed hlies] at h
    use hlies, (Except.ok.inj h).symm

theorem placed_of_loadBytes {address : Word} {data : List UInt8}
    (h : machine.loadBytes address data = .ok after) :
  Segment.LiesIn machine.bus.sram.size ⟨address, data⟩
    ∧ after = machine.placeAll [⟨address, data⟩]
  := by
  have heq := loadBytes_eq machine ⟨address, data⟩
  rw [h] at heq
  split at heq
  · next hlies => use hlies, Except.ok.inj heq
  · cases heq

/-- A segment reads back if no later one covers any of its bytes. -/
theorem readBytes_placed (hsize : machine.bus.sram.size ≤ sramWindow) {before later : List Segment}
    (hlies : ∀ s ∈ before ++ segment :: later, s.LiesIn machine.bus.sram.size)
    (hdisjoint : ∀ other ∈ later, segment.Disjoint other)
    (hsram : after.bus.sram = machine.bus.sram.placeAll (before ++ segment :: later)) :
  after.readBytes segment.address segment.data.length = .ok segment.data.toArray after
  := by
  have hkept : after.bus.sram.size = machine.bus.sram.size := by rw [hsram, Sram.size_placeAll]
  have hread : Bus.readBytes segment.address #[] segment.data.length after.bus
      = .ok (#[] ++ segment.data.toArray) after.bus := by
    apply Bus.readBytes_memory (hkept.trans_le hsize)
    · rw [hkept]
      apply hlies segment (List.mem_append_right _ (.head _))
    · intro k hk
      rw [Bus.byteAt, hsram]
      apply Sram.byte_placeAll_inside hlies hdisjoint hk
  rw [readBytes, transfer, onBus_eq, hread, Array.empty_append]

/-- A load fails exactly if some segment does not lie in memory. The error reports the first such
segment, and a load in place leaves the machine as it was. -/
theorem loadImage_error (machine : Machine) (image : Image) :
  ((∃ e, machine.loadImage image = .error e)
      ↔ ∃ segment ∈ image.segments, ¬ segment.LiesIn machine.bus.sram.size)
    ∧ ∀ e, machine.loadImage image = .error e →
      loadInPlace image machine = .error e machine
        ∧ ∃ segment, Segment.FirstOutside machine.bus.sram.size image.segments segment
          ∧ e = .outOfRange segment.address segment.data.length
  := by
  cases hfind : image.segments.find? fun segment => !machine.accepts segment with
  | some segment =>
    obtain ⟨herror, hinPlace⟩ := loadImage_refused hfind
    have hfirst := firstOutside_of_find? hfind
    constructor
    · apply iff_of_true ⟨_, herror⟩
      obtain ⟨before, later, hsegments, _, houtside⟩ := hfirst
      use segment, hsegments ▸ List.mem_append_right _ (.head _)
    · intro e he
      cases herror.symm.trans he
      use hinPlace, segment, hfirst
  | none =>
    have hlies := find?_accepts_eq_none.mp hfind
    have hok := loadImage_placed hlies
    constructor
    · apply iff_of_false
      · rintro ⟨e, he⟩
        cases hok.symm.trans he
      · rintro ⟨segment, hmem, houtside⟩
        apply houtside (hlies segment hmem)
    · intro e he
      cases hok.symm.trans he

/-- The memory of a machine never exceeds its window. -/
theorem create_performAll_window {config : Config} (h : create config = .ok machine)
    (operations : List Operation) :
  (machine.performAll operations).bus.sram.size ≤ sramWindow
  := by
  have hstable := Core.Sound.stable config
  have hrespects : ∀ operation ∈ operations, operation.Respects (Core.Sound config.vectorTable) :=
    fun operation _ => operation.respects_sound _
  have hsound := (Sound.create hstable h).performAll hstable hrespects
  have hcheck := check_of_create h
  rw [hsound.bus.sram]
  simp only [Config.check] at hcheck
  split at hcheck
  · cases hcheck
  · split at hcheck
    · cases hcheck
    · next hpermitted =>
      apply Nat.le_of_not_lt
      intro hlarge
      apply hpermitted (.inr (.inl hlarge))

/-- Loading is all or nothing, and exact. It fails exactly if some segment does not lie in memory,
and reports the first such segment; even a load in place then leaves the whole machine as it was.
Otherwise each byte of memory is that of the last segment that covers it, or else the old one, the
first core stands at the entry, and nothing else changes. Bytes that no later segment covers read
back. -/
theorem loadImage_exact (machine : Machine) (image : Image) :
  ((∃ e, machine.loadImage image = .error e)
      ↔ ∃ segment ∈ image.segments, ¬ segment.LiesIn machine.bus.sram.size)
    ∧ (∀ e, machine.loadImage image = .error e →
      loadInPlace image machine = .error e machine
        ∧ ∃ segment, Segment.FirstOutside machine.bus.sram.size image.segments segment
          ∧ e = .outOfRange segment.address segment.data.length)
    ∧ (∀ after, machine.loadImage image = .ok after →
      loadInPlace image machine = .ok () after ∧ machine.Loaded image after)
    ∧ (machine.bus.sram.size ≤ sramWindow →
      (∀ after before segment later, machine.loadImage image = .ok after →
        image.segments = before ++ segment :: later →
        (∀ other ∈ later, segment.Disjoint other) →
        after.readBytes segment.address segment.data.length = .ok segment.data.toArray after)
      ∧ ∀ address data after, machine.loadBytes address data = .ok after →
        after.readBytes address data.length = .ok data.toArray after)
  := by
  obtain ⟨hfails, herror⟩ := loadImage_error machine image
  use hfails, herror
  constructor
  · intro after hload
    obtain ⟨hlies, rfl⟩ := placed_of_loadImage hload
    exact ⟨loadInPlace_placed hlies, loaded_placed hlies⟩
  · intro hsize
    constructor
    · intro after before segment later hload hsegments hdisjoint
      obtain ⟨hlies, rfl⟩ := placed_of_loadImage hload
      rw [hsegments] at hlies ⊢
      apply readBytes_placed hsize hlies hdisjoint rfl
    · intro address data after hload
      obtain ⟨hlies, rfl⟩ := placed_of_loadBytes hload
      have hall : ∀ s ∈ [] ++ [⟨address, data⟩], Segment.LiesIn machine.bus.sram.size s :=
        List.forall_mem_singleton.mpr hlies
      exact readBytes_placed hsize hall (List.forall_mem_nil _) rfl

/-- Segments of which the second lies on the first, and an empty one at the very end. -/
def layered : Image where
  segments := [⟨0x20000000, [1, 2, 3, 4]⟩, ⟨0x20000001, [7, 8]⟩, ⟨0x20000004, []⟩]
  entry := 0x20000003

/-- A segment that lies in memory, and one that sticks out of it. -/
def overhanging : Image where
  segments := [⟨0x20000000, [1, 2, 3, 4]⟩, ⟨0x20000003, [7, 8]⟩]
  entry := 0x20000000

theorem layered_loadImage_exact :
  (fresh tiny).bus.sram.size ≤ sramWindow
    ∧ loadInPlace overhanging (fresh tiny) = .error (.outOfRange 0x20000003 2) (fresh tiny)
    ∧ ∃ after, (fresh tiny).loadImage layered = .ok after
      ∧ (fresh tiny).Loaded layered after
      ∧ after.readBytes 0x20000001 2 = .ok #[7, 8] after
  := by
  have hsize := create_performAll_window (create_eq tiny) []
  have hoverhangs : (fresh tiny).loadImage overhanging = .error (.outOfRange 0x20000003 2) := by
    decide
  obtain ⟨after, hload⟩ : ∃ after, (fresh tiny).loadImage layered = .ok after := ⟨_, rfl⟩
  obtain ⟨_, herror, _⟩ := loadImage_exact (fresh tiny) overhanging
  obtain ⟨_, _, hloaded, hreads⟩ := loadImage_exact (fresh tiny) layered
  obtain ⟨hread, _⟩ := hreads hsize
  have hdisjoint : ∀ other ∈ [⟨0x20000004, []⟩],
      Segment.Disjoint ⟨0x20000001, [7, 8]⟩ other := by
    intro other hother a
    cases List.mem_singleton.mp hother
    right
    rw [Segment.byte?, List.getElem?_nil, ite_self]
  use hsize, (herror _ hoverhangs).1, after, hload, (hloaded after hload).2
  exact hread after [⟨0x20000000, [1, 2, 3, 4]⟩] ⟨0x20000001, [7, 8]⟩ [⟨0x20000004, []⟩] hload rfl
    hdisjoint

end Machine

end ThumbSoc
