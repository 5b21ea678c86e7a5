import ThumbSoc.Bus.Program
import ThumbSoc.Proofs.Bus.Probe
import ThumbSoc.Proofs.Encoding.Operands

/-!
# Listings of ranges

A listing shows exactly what the cores would fetch. Each line stands behind the one before it, it
is the line of the instruction at its address or carries the word that is none, and the listing
ends early only where a fetch is rejected. The lines lie in memory one behind the other, and so
there are no more of them than memory has halfwords, whatever the count.

Fetches are transfers. Made one after the other on the bus itself, those of a listing give the same
lines and leave the bus as it was.
-/

namespace ThumbSoc

namespace Bus

variable {bus : Bus} {pc : Word} {word : Word} {length : Nat}

/-! ### Fetches as transfers -/

/-- A fetch is a transfer of a halfword that is checked for its purpose first. -/
def fetchTransfer (address : Word) : Transfer Word := fun bus =>
  match bus.probe address .halfword .fetch with
  | .error fault => .error fault bus
  | .ok () => Bus.read address .halfword bus

/-- The transfers of an encoding: one halfword, or two if the first one begins a wide
encoding. -/
def encodingTransfer (pc : Word) : Transfer (Word × Nat) := do
  let first ← fetchTransfer pc
  if WideFormat.startsWith first then
    let second ← fetchTransfer (pc + 2)
    return (WideFormat.join first second, 4)
  else return (first, 2)

/-- What can be executed can be read. -/
theorem checkRights_read_of_fetch {address : Word} (h : checkRights address .fetch = .ok ()) :
  checkRights address .read = .ok ()
  := by
  rw [checkRights] at h ⊢
  split at h
  · cases h
  · rfl

/-- A fetch that is routed finds its halfword in memory. -/
theorem fetch_routed {target : Target} (h : bus.route pc .halfword .fetch = .ok target) :
  ∃ offset, sramOffset? pc 2 bus.sram.size = some offset
    ∧ bus.fetch pc = .ok (bus.sram.value offset 2)
    ∧ Bus.read pc .halfword bus = .ok (bus.sram.value offset 2) bus
  := by
  obtain ⟨offset, rfl⟩ := route_fetch h
  have hrights := checkRights_read_of_fetch (checkRights_of_route h)
  obtain ⟨halign, ⟨offset', htarget, hoffset⟩ | ⟨hnone, hdevice⟩⟩ := route_ok h
  · cases htarget
    have hread := route_of_span halign hrights hoffset
    refine ⟨offset, hoffset, ?_, ?_⟩
    · simp only [fetch, h]
    · simp only [Bus.read, hread, readTarget]
      rfl
  · rcases deviceAt?_some hdevice with ⟨_, htarget, _⟩ | ⟨_, _, htarget, _⟩ <;> cases htarget

theorem fetchTransfer_eq (bus : Bus) (pc : Word) :
  fetchTransfer pc bus =
    match bus.fetch pc with
    | .ok value => .ok value bus
    | .error fault => .error fault bus
  := by
  rw [fetchTransfer, probe]
  cases hroute : bus.route pc .halfword .fetch with
  | error fault => simp only [fetch, hroute, Except.map]
  | ok target =>
    obtain ⟨_, _, hfetch, hread⟩ := fetch_routed hroute
    rw [hfetch]
    exact hread

/-- The transfers of an encoding do not change the bus. -/
theorem encodingTransfer_eq (bus : Bus) (pc : Word) :
  encodingTransfer pc bus =
    match bus.fetchEncoding pc with
    | .ok encoding => .ok encoding bus
    | .error fault => .error fault bus
  := by
  simp only [encodingTransfer, fetchEncoding, bind, EStateM.bind, Except.bind, fetchTransfer_eq]
  cases bus.fetch pc with
  | error fault => rfl
  | ok first =>
    by_cases hwide : WideFormat.startsWith first = true
    · simp only [hwide, if_true, EStateM.bind, fetchTransfer_eq]
      cases bus.fetch (pc + 2) <;> rfl
    · simp only [hwide]
      rfl

/-- The listing, with its transfers made on the bus. -/
def listTransfers (pc : Word) (rows : Array Row) : Nat → Bus → Array Row × Bus
  | 0, bus => (rows, bus)
  | count + 1, bus =>
    match encodingTransfer pc bus with
    | .error _ bus => (rows, bus)
    | .ok (word, length) bus =>
      let i := match Instruction.decode word length with
        | .ok i => i
        | .error fault => fault.instruction
      listTransfers (pc + UInt32.ofNat length) (rows.push (i.row pc)) count bus

/-! ### Encodings in memory -/

/-- An encoding is fetched from a span of memory. -/
theorem fetchEncoding_ok (h : bus.fetchEncoding pc = .ok (word, length))
    (hsize : bus.sram.size ≤ sramWindow) :
  (length = 2 ∨ length = 4) ∧ sramBase.toNat ≤ pc.toNat
    ∧ pc.toNat + length ≤ sramBase.toNat + bus.sram.size
  := by
  have fetched {pc value : Word} (h : bus.fetch pc = .ok value) :
      sramBase.toNat ≤ pc.toNat ∧ pc.toNat + 2 ≤ sramBase.toNat + bus.sram.size := by
    cases hroute : bus.route pc .halfword .fetch with
    | error fault =>
      simp only [fetch, hroute] at h
      cases h
    | ok target =>
      obtain ⟨_, hoffset, _⟩ := fetch_routed hroute
      obtain ⟨hbase, hend, _⟩ := sramOffset?_some hoffset
      exact ⟨hbase, hend⟩
  simp only [fetchEncoding, bind, Except.bind] at h
  cases hfirst : bus.fetch pc with
  | error fault =>
    rw [hfirst] at h
    cases h
  | ok first =>
    rw [hfirst] at h
    obtain ⟨hbase, hend⟩ := fetched hfirst
    dsimp only at h
    split at h
    · cases hsecond : bus.fetch (pc + 2) with
      | error fault =>
        rw [hsecond] at h
        cases h
      | ok second =>
        rw [hsecond] at h
        cases h
        obtain ⟨_, hend'⟩ := fetched hsecond
        have hnext : (pc + 2).toNat = pc.toNat + 2 := by
          change 0x20000000 ≤ pc.toNat at hbase
          change pc.toNat + 2 ≤ 0x20000000 + bus.sram.size at hend
          change bus.sram.size ≤ 0x42800 at hsize
          rw [UInt32.toNat_add]
          change (pc.toNat + 2) % 0x100000000 = _
          omega
        rw [hnext] at hend'
        exact ⟨.inr rfl, hbase, hend'⟩
    · cases h
      exact ⟨.inl rfl, hbase, hend⟩

/-! ### Lines -/

/-- The line at an address tells what is executed there: an instruction, or a word that is
none. -/
def Shows (bus : Bus) (row : Row) : Prop :=
  if row.isData then
    bus.instructionAt row.address = .error (.decode row.address ⟨row.raw, row.length⟩)
  else ∃ i, bus.instructionAt row.address = .ok i ∧ i.row row.address = row

theorem decode_error {fault : DecodeFault} (h : Instruction.decode word length = .error fault) :
  fault = ⟨word, length⟩
  := by
  rw [Instruction.decode] at h
  split at h
  · cases h
  · cases h
    rfl

/-- A line is the one at its address, and what it is about lies in memory. -/
theorem rowAt?_some {row : Row} (h : bus.rowAt? pc = some row)
    (hsize : bus.sram.size ≤ sramWindow) :
  row.address = pc ∧ bus.Shows row ∧ 2 ≤ row.length ∧ sramBase.toNat ≤ pc.toNat
    ∧ pc.toNat + row.length ≤ sramBase.toNat + bus.sram.size
  := by
  rw [rowAt?] at h
  cases hencoding : bus.fetchEncoding pc with
  | error fault =>
    rw [hencoding] at h
    cases h
  | ok encoding =>
    obtain ⟨word, length⟩ := encoding
    obtain ⟨hlength, hspan⟩ := fetchEncoding_ok hencoding hsize
    have hlong : 2 ≤ length := by omega
    rw [hencoding] at h
    dsimp only at h
    cases hdecode : Instruction.decode word length with
    | error fault =>
      rw [hdecode] at h
      cases h
      obtain rfl := decode_error hdecode
      have hinstruction : bus.instructionAt pc = .error (.decode pc ⟨word, length⟩) := by
        simp only [instructionAt, hencoding, hdecode]
      exact ⟨rfl, hinstruction, hlong, hspan⟩
    | ok i =>
      rw [hdecode] at h
      cases h
      have hencoded := Instruction.decode_encoded hdecode
      have hrow : (i.row pc).length = length := hencoded.length
      have hinstruction : bus.instructionAt pc = .ok i := by
        simp only [instructionAt, hencoding, hdecode]
      rw [hrow]
      refine ⟨rfl, ?_, hlong, hspan⟩
      have hshown : (i.row pc).isData = false := decide_eq_false hencoded.opcode_ne
      rw [Shows, hshown]
      exact ⟨i, hinstruction, rfl⟩

/-- There is no line only where a fetch is rejected. -/
theorem rowAt?_none (h : bus.rowAt? pc = none) :
  ∃ fault, bus.instructionAt pc = .error (.bus pc fault)
  := by
  rw [rowAt?] at h
  cases hencoding : bus.fetchEncoding pc with
  | error fault =>
    use fault
    simp only [instructionAt, hencoding]
  | ok encoding =>
    rw [hencoding] at h
    dsimp only at h
    split at h <;> cases h

/-! ### Listings -/

/-- Adding lines one by one, from the first to the last. -/
def rowsFrom (bus : Bus) (pc : Word) : Nat → List Row
  | 0 => []
  | count + 1 =>
    match bus.rowAt? pc with
    | none => []
    | some row => row :: bus.rowsFrom (pc + UInt32.ofNat row.length) count

theorem listFrom_eq (bus : Bus) (pc : Word) (rows : Array Row) (count : Nat) :
  bus.listFrom pc rows count = rows ++ (bus.rowsFrom pc count).toArray
  := by
  induction count generalizing pc rows with
  | zero => simp [listFrom, rowsFrom]
  | succ count ih =>
    rw [listFrom, rowsFrom]
    cases bus.rowAt? pc with
    | none => simp
    | some row => simp [ih]

theorem listing_eq (bus : Bus) (start : Word) (count : Nat) :
  (bus.listing start count).toList = bus.rowsFrom (Word.even start) count
  := by simp [listing, listFrom_eq]

/-- Whatever is listed, the bus stays as it is. -/
theorem listTransfers_eq (bus : Bus) (pc : Word) (rows : Array Row) (count : Nat) :
  listTransfers pc rows count bus = (bus.listFrom pc rows count, bus)
  := by
  induction count generalizing pc rows with
  | zero => rfl
  | succ count ih =>
    rw [listTransfers, listFrom, encodingTransfer_eq, rowAt?]
    cases bus.fetchEncoding pc with
    | error fault => rfl
    | ok encoding =>
      dsimp only
      rw [ih]
      cases hdecode : Instruction.decode encoding.1 encoding.2 with
      | error fault =>
        obtain rfl := decode_error hdecode
        rfl
      | ok i =>
        have hlength := (Instruction.decode_encoded hdecode).length
        dsimp only
        rw [← hlength]
        rfl

/-- Whether lines stand one behind the other, the first one at `start`. -/
def Consecutive (start : Word) : List Row → Prop
  | [] => True
  | row :: rest => row.address = start ∧ Consecutive (start + UInt32.ofNat row.length) rest

/-- The address behind lines of which the first one stands at `start`. -/
def behind (start : Word) (rows : List Row) : Word :=
  rows.foldl (fun pc row => pc + UInt32.ofNat row.length) start

section Lines

variable (hsize : bus.sram.size ≤ sramWindow) (pc : Word) (count : Nat)

include hsize in
theorem rowsFrom_consecutive :
  Consecutive pc (bus.rowsFrom pc count)
  := by
  induction count generalizing pc with
  | zero => trivial
  | succ count ih =>
    rw [rowsFrom]
    cases hrow : bus.rowAt? pc with
    | none => trivial
    | some row => exact ⟨(rowAt?_some hrow hsize).1, ih _⟩

include hsize in
theorem rowsFrom_shows :
  ∀ row ∈ bus.rowsFrom pc count, bus.Shows row
  := by
  induction count generalizing pc with
  | zero => exact List.forall_mem_nil _
  | succ count ih =>
    rw [rowsFrom]
    cases hrow : bus.rowAt? pc with
    | none => exact List.forall_mem_nil _
    | some row => exact List.forall_mem_cons.mpr ⟨(rowAt?_some hrow hsize).2.1, ih _⟩

theorem rowsFrom_stops (h : (bus.rowsFrom pc count).length < count) :
  ∃ fault, bus.instructionAt (behind pc (bus.rowsFrom pc count))
    = .error (.bus (behind pc (bus.rowsFrom pc count)) fault)
  := by
  induction count generalizing pc with
  | zero => cases h
  | succ count ih =>
    rw [rowsFrom] at h ⊢
    cases hrow : bus.rowAt? pc with
    | none => exact rowAt?_none hrow
    | some row =>
      rw [hrow] at h
      exact ih _ (Nat.lt_of_succ_lt_succ h)

theorem rowsFrom_length_le :
  (bus.rowsFrom pc count).length ≤ count
  := by
  induction count generalizing pc with
  | zero => exact Nat.le_refl 0
  | succ count ih =>
    rw [rowsFrom]
    cases bus.rowAt? pc with
    | none => exact Nat.zero_le _
    | some row => exact Nat.succ_le_succ (ih _)

include hsize in
/-- Every line takes up at least one halfword of what is left of memory. -/
theorem rowsFrom_fits :
  2 * (bus.rowsFrom pc count).length ≤ sramBase.toNat + bus.sram.size - pc.toNat
    ∧ (sramBase.toNat ≤ pc.toNat ∨ bus.rowsFrom pc count = [])
  := by
  induction count generalizing pc with
  | zero => exact ⟨Nat.zero_le _, .inr rfl⟩
  | succ count ih =>
    rw [rowsFrom]
    cases hrow : bus.rowAt? pc with
    | none => exact ⟨Nat.zero_le _, .inr rfl⟩
    | some row =>
      obtain ⟨_, _, hlong, hbase, hend⟩ := rowAt?_some hrow hsize
      obtain ⟨hrest, _⟩ := ih (pc + UInt32.ofNat row.length)
      have hnext : (pc + UInt32.ofNat row.length).toNat = pc.toNat + row.length := by
        change pc.toNat + row.length ≤ 0x20000000 + bus.sram.size at hend
        change bus.sram.size ≤ 0x42800 at hsize
        rw [UInt32.toNat_add, UInt32.toNat_ofNat']
        change (pc.toNat + row.length % 0x100000000) % 0x100000000 = _
        omega
      rw [hnext] at hrest
      refine ⟨?_, .inl hbase⟩
      rw [List.length_cons]
      omega

end Lines

/-- **A listing shows what would be fetched.** Its lines stand one behind the other from the start
on, with bit 0 of it cleared. Each is the line of the instruction at its address, or is marked as
data and carries the word that is no instruction there. If there are fewer lines than asked for, the
fetch behind the last one is rejected. However many are asked for, there are at most as many as
memory has halfwords, and the transfers that it takes leave the bus as it was. -/
theorem listing_shows (bus : Bus) (hsize : bus.sram.size ≤ sramWindow) (start : Word)
    (count : Nat) :
  let rows := bus.listing start count
  let next := behind (Word.even start) rows.toList
  Consecutive (Word.even start) rows.toList
    ∧ (∀ row ∈ rows, bus.Shows row)
    ∧ rows.size ≤ count
    ∧ (rows.size < count → ∃ fault, bus.instructionAt next = .error (.bus next fault))
    ∧ rows.size ≤ bus.sram.size / 2
    ∧ listTransfers (Word.even start) #[] count bus = (rows, bus)
  := by
  intro rows next
  have hrows : rows.toList = bus.rowsFrom (Word.even start) count := listing_eq bus start count
  have hlength : rows.size = (bus.rowsFrom (Word.even start) count).length := by
    rw [← hrows, Array.length_toList]
  refine ⟨?_, ?_, ?_, ?_, ?_, listTransfers_eq bus _ _ count⟩
  · rw [hrows]
    exact rowsFrom_consecutive hsize _ _
  · intro row hrow
    rw [← Array.mem_toList_iff, hrows] at hrow
    exact rowsFrom_shows hsize _ _ row hrow
  · rw [hlength]
    exact rowsFrom_length_le _ _
  · intro hshort
    rw [hlength] at hshort
    simp only [next, hrows]
    exact rowsFrom_stops _ _ hshort
  · obtain ⟨hfits, hbase | hnone⟩ := rowsFrom_fits hsize (Word.even start) count
    · omega
    · rw [hlength, hnone]
      exact Nat.zero_le _

/-- An endless listing of two halfwords, asked for at an odd address, ends behind them. -/
theorem tiny_listing_shows :
  let bus := Bus.initial 4
  let rows := bus.listing 0x20000001 0xFFFFFFFFFFFFFFFF
  let next := behind 0x20000000 rows.toList
  Consecutive 0x20000000 rows.toList ∧ (∀ row ∈ rows, bus.Shows row) ∧ rows.size ≤ 2
    ∧ ∃ fault, bus.instructionAt next = .error (.bus next fault)
  := by
  have hsize : (Bus.initial 4).sram.size = 4 := Sram.size_zeroed 4
  obtain ⟨hconsecutive, hshows, _, hstops, hfits, _⟩ :=
    listing_shows (Bus.initial 4) (by rw [hsize]; decide) 0x20000001 0xFFFFFFFFFFFFFFFF
  rw [hsize] at hfits
  exact ⟨hconsecutive, hshows, hfits, hstops (Nat.lt_of_le_of_lt hfits (by decide))⟩

end Bus

end ThumbSoc
