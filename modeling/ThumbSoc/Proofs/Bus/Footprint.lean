import ThumbSoc.Proofs.Bus.ByteMemory
import ThumbSoc.Proofs.Loads

/-!
# Transfers that stay in memory

Which bytes a load or a store covers. A transfer whose span lies in memory depends on nothing else:
a load finds the same value on any bus with as much memory that holds the same bytes there, and
stores do the same to any such bus, whatever bytes it holds.

Stores that cover different bytes commute. This is seen byte by byte: what becomes of a byte depends
on that byte only, and stores that do not cover it leave it alone.
-/

namespace ThumbSoc

/-- The load covers the byte at an address. -/
def Load.Covers (load : Load) (a : Nat) : Prop :=
  load.address.toNat ≤ a ∧ a < load.address.toNat + load.width.bytes

/-- The store covers the byte at an address. -/
def Store.Covers (store : Store) (a : Nat) : Prop :=
  store.address.toNat ≤ a ∧ a < store.address.toNat + store.width.bytes

instance (load : Load) (a : Nat) : Decidable (load.Covers a) :=
  inferInstanceAs (Decidable (_ ∧ _))

instance (store : Store) (a : Nat) : Decidable (store.Covers a) :=
  inferInstanceAs (Decidable (_ ∧ _))

/-! ### Memory after stores -/

namespace Sram

variable {memory memory' : Sram} {i : Nat}

/-- The memory after stores whose spans lie in it. -/
def storeAll (memory : Sram) (stores : List Store) : Sram :=
  let store (memory : Sram) (s : Store) : Sram :=
    memory.setValue (s.address.toNat - sramBase.toNat) s.value s.width.bytes
  stores.foldl store memory

theorem storeAll_cons (memory : Sram) (s : Store) (rest : List Store) :
  memory.storeAll (s :: rest)
    = (memory.setValue (s.address.toNat - sramBase.toNat) s.value s.width.bytes).storeAll rest
  := List.foldl_cons ..

@[simp]
theorem size_storeAll (memory : Sram) (stores : List Store) :
  (memory.storeAll stores).size = memory.size
  := by
  induction stores generalizing memory with
  | nil => rfl
  | cons s rest ih => rw [storeAll_cons, ih, size_setValue]

/-- A memory consists of its bytes. -/
theorem ext_byte (hsize : memory.size = memory'.size) (h : ∀ i, memory.byte i = memory'.byte i) :
  memory = memory'
  := by
  obtain ⟨bytes⟩ := memory
  obtain ⟨bytes'⟩ := memory'
  congr 1
  apply Array.ext hsize
  intro i hi hi'
  have hbyte := h i
  rwa [byte, byte, Array.getD, Array.getD, dif_pos hi, dif_pos hi'] at hbyte

theorem byte_setByte_congr (hsize : memory.size = memory'.size)
    (h : memory.byte i = memory'.byte i) (offset : Nat) (value : UInt8) :
  (memory.setByte offset value).byte i = (memory'.setByte offset value).byte i
  := by
  by_cases hi : offset = i
  · subst hi
    by_cases hfits : offset < memory.size
    · rw [byte_setByte_self hfits, byte_setByte_self (hsize ▸ hfits)]
    · have hfits' := hsize ▸ hfits
      have hout : memory.setByte offset value = memory :=
        congrArg Sram.mk (Array.setIfInBounds_eq_of_size_le (Nat.le_of_not_lt hfits))
      have hout' : memory'.setByte offset value = memory' :=
        congrArg Sram.mk (Array.setIfInBounds_eq_of_size_le (Nat.le_of_not_lt hfits'))
      rw [hout, hout', h]
  · rw [byte_setByte_ne hi, byte_setByte_ne hi, h]

theorem byte_setValue_congr (hsize : memory.size = memory'.size)
    (h : memory.byte i = memory'.byte i) (offset : Nat) (value : Word) (length : Nat) :
  (memory.setValue offset value length).byte i = (memory'.setValue offset value length).byte i
  := by
  induction length generalizing memory memory' offset value with
  | zero => exact h
  | succ n ih =>
    apply ih
    · rw [size_setByte, size_setByte, hsize]
    · exact byte_setByte_congr hsize h offset value.toUInt8

/-- What stores make of a byte depends on that byte only. -/
theorem byte_storeAll_congr (hsize : memory.size = memory'.size)
    (h : memory.byte i = memory'.byte i) (stores : List Store) :
  (memory.storeAll stores).byte i = (memory'.storeAll stores).byte i
  := by
  induction stores generalizing memory memory' with
  | nil => exact h
  | cons s rest ih =>
    rw [storeAll_cons, storeAll_cons]
    apply ih
    · rw [size_setValue, size_setValue, hsize]
    · exact byte_setValue_congr hsize h _ s.value s.width.bytes

/-- Stores leave alone every byte that they do not cover. -/
theorem byte_storeAll {stores : List Store}
    (hbase : ∀ s ∈ stores, sramBase.toNat ≤ s.address.toNat)
    (h : ∀ s ∈ stores, ¬ s.Covers (sramBase.toNat + i)) :
  (memory.storeAll stores).byte i = memory.byte i
  := by
  induction stores generalizing memory with
  | nil => rfl
  | cons s rest ih =>
    obtain ⟨hfirst, hrest⟩ := List.forall_mem_cons.mp h
    obtain ⟨hstart, hstarts⟩ := List.forall_mem_cons.mp hbase
    have houtside : i < s.address.toNat - sramBase.toNat
        ∨ s.address.toNat - sramBase.toNat + s.width.bytes ≤ i := by
      rw [Store.Covers] at hfirst
      omega
    rw [storeAll_cons, ih hstarts hrest, byte_setValue houtside]

/-- Stores that cover different bytes commute. -/
theorem storeAll_comm (memory : Sram) {first second : List Store}
    (hfirst : ∀ s ∈ first, sramBase.toNat ≤ s.address.toNat)
    (hsecond : ∀ s ∈ second, sramBase.toNat ≤ s.address.toNat)
    (hapart : ∀ a, (∃ s ∈ first, s.Covers a) → ∀ s ∈ second, ¬ s.Covers a) :
  (memory.storeAll first).storeAll second = (memory.storeAll second).storeAll first
  := by
  apply ext_byte
  · rw [size_storeAll, size_storeAll, size_storeAll, size_storeAll]
  · intro i
    by_cases hcovered : ∃ s ∈ first, s.Covers (sramBase.toNat + i)
    · have hspared := hapart _ hcovered
      rw [byte_storeAll hsecond hspared]
      apply byte_storeAll_congr (size_storeAll memory second).symm
      exact (byte_storeAll hsecond hspared).symm
    · have hspared : ∀ s ∈ first, ¬ s.Covers (sramBase.toNat + i) :=
        fun s hs hcovers => hcovered ⟨s, hs, hcovers⟩
      rw [byte_storeAll hfirst hspared]
      apply byte_storeAll_congr (size_storeAll memory first)
      exact byte_storeAll hfirst hspared

end Sram

/-! ### Transfers on two buses -/

namespace Bus

variable {bus bus' other other' : Bus}

/-- Two buses hold the same bytes of memory under a load. -/
def HoldAlike (bus other : Bus) (load : Load) : Prop :=
  ∀ a, sramBase.toNat ≤ a → load.Covers a → other.byteAt a = bus.byteAt a

theorem HoldAlike.value {load : Load} (h : bus.HoldAlike other load)
    (hbase : sramBase.toNat ≤ load.address.toNat) :
  other.sram.value (load.address.toNat - sramBase.toNat) load.width.bytes
    = bus.sram.value (load.address.toNat - sramBase.toNat) load.width.bytes
  := by
  apply Sram.value_congr
  intro i hi hlt
  have hbyte := h (sramBase.toNat + i) (Nat.le_add_right _ i) ⟨by omega, by omega⟩
  rwa [byteAt, byteAt, Nat.add_sub_cancel_left] at hbyte

/-- A load in memory has no effect, and finds the same on any bus with as much of it that holds the
same bytes under the load. -/
theorem read_elsewhere {load : Load} {value : Word} (hsize : other.sram.size = bus.sram.size)
    (hmemory : bus.InMemory load.address load.width) (hholds : bus.HoldAlike other load)
    (h : Bus.read load.address load.width bus = .ok value bus') :
  bus' = bus ∧ Bus.read load.address load.width other = .ok value other
  := by
  obtain ⟨hspan, hbase, _⟩ := hmemory.offset
  obtain ⟨target, hroute, _⟩ := read_ok h
  have hbus := route_memory hroute hspan
  have hother := hbus
  rw [← route_congr hsize] at hother
  simp only [Bus.read, hbus, readTarget] at h
  cases h
  constructor
  · rfl
  · simp only [Bus.read, hother, readTarget, hholds.value hbase]

/-- Loads in memory have no effect, and depend on nothing but the bytes that they cover. -/
theorem performLoads_elsewhere {loads : List Load} {values : List Word}
    (hsize : other.sram.size = bus.sram.size)
    (hmemory : ∀ load ∈ loads, bus.InMemory load.address load.width)
    (hholds : ∀ load ∈ loads, bus.HoldAlike other load)
    (h : performLoads loads bus = .ok values bus') :
  bus' = bus ∧ performLoads loads other = .ok values other
  := by
  induction loads generalizing values with
  | nil =>
    cases h
    exact ⟨rfl, rfl⟩
  | cons load rest ih =>
    obtain ⟨hfirst, hrest⟩ := List.forall_mem_cons.mp hmemory
    obtain ⟨hfirstHolds, hrestHolds⟩ := List.forall_mem_cons.mp hholds
    obtain ⟨value, mid, hread, hreads⟩ := bind_eq_ok.mp h
    obtain ⟨tail, _, htail, hpure⟩ := bind_eq_ok.mp hreads
    cases hpure
    obtain ⟨rfl, hother⟩ := read_elsewhere hsize hfirst hfirstHolds hread
    obtain ⟨rfl, htail'⟩ := ih hrest hrestHolds htail
    rw [performLoads, bind_of_ok _ hother, bind_of_ok _ htail']
    exact ⟨rfl, rfl⟩

/-- A store in memory does the same to any bus with as much of it. -/
theorem write_elsewhere {address value : Word} {width : Width} {u : Unit}
    (hsize : other.sram.size = bus.sram.size) (hmemory : bus.InMemory address width)
    (h : Bus.write address width value bus = .ok u bus') :
  Bus.write address width value other
    = .ok () { other with
        sram := other.sram.setValue (address.toNat - sramBase.toNat) value width.bytes }
  := by
  obtain ⟨target, hroute, _⟩ := write_ok h
  have hother := route_memory hroute hmemory.offset.1
  rw [← route_congr hsize] at hother
  simp only [Bus.write, hother, writeTarget]

/-- Stores in memory do the same to any bus with as much of it. -/
theorem performStores_elsewhere {stores : List Store} {u : Unit}
    (hsize : other.sram.size = bus.sram.size)
    (hmemory : ∀ s ∈ stores, bus.InMemory s.address s.width)
    (h : performStores stores bus = .ok u bus') :
  performStores stores other = .ok () { other with sram := other.sram.storeAll stores }
  := by
  induction stores generalizing bus other with
  | nil => rfl
  | cons s rest ih =>
    obtain ⟨hfirst, hrest⟩ := List.forall_mem_cons.mp hmemory
    obtain ⟨_, mid, hwrite, hwrites⟩ := bind_eq_ok.mp h
    obtain ⟨_, _, _, hmid, _⟩ := write_ok hwrite
    rw [performStores, bind_of_ok _ (write_elsewhere hsize hfirst hwrite), Sram.storeAll_cons]
    refine ih ?_ ?_ hwrites
    · rw [hmid, ← hsize]
      exact Sram.size_setValue ..
    · intro t ht
      exact (InMemory.congr hmid).mpr (hrest t ht)

/-! ### Fetches -/

/-- Only the bytes that a fetch covers matter to it. -/
theorem fetch_congr {address : Word} (hsize : other.sram.size = bus.sram.size)
    (hholds : bus.HoldAlike other ⟨address, .halfword⟩) :
  other.fetch address = bus.fetch address
  := by
  simp only [fetch, route_congr hsize]
  cases hroute : bus.route address .halfword .fetch with
  | error => rfl
  | ok target =>
    obtain ⟨_, ⟨offset, rfl, hspan⟩ | ⟨_, hdevice⟩⟩ := route_ok hroute
    · obtain ⟨hbase, _, hoffset⟩ := sramOffset?_some hspan
      have hvalue := hholds.value hbase
      rw [← hoffset] at hvalue
      exact congrArg Except.ok hvalue
    · have hbelow := checkRights_fetch (checkRights_of_route hroute)
      exact absurd (deviceAt?_above hdevice) (UInt32.not_le.mpr hbelow)

end Bus

end ThumbSoc
