import Mathlib.Data.Finset.Card
import ThumbSoc.Breakpoints.Table
import ThumbSoc.Proofs.Invariants.Breakpoints

/-!
# Breakpoints as a finite set

However addresses are added, removed and cleared, the breakpoints are the finite set that
insertions, deletions and clearings make, but for insertions into a full set, which are rejected.
This holds of the sets of a machine, which are arrays that grow and shrink, and of tables, which
keep a row of fixed size. A table shows and replies what an array does, so that whatever stays
behind in its row is of no consequence.

`afterAll_represents` is the statement for a history of any length. It rests on one step of each
implementation: `Holds.perform` relates arrays to finite sets, and `Stores.perform` tables to arrays.
-/

namespace ThumbSoc

namespace Breakpoints

/-! ### Changes -/

/-- A change of the breakpoints. -/
inductive Change where
  | add (address : UInt32)
  | remove (address : UInt32)
  | clear
  deriving DecidableEq, Repr

/-- What a change replies. -/
inductive Reply where
  | added (result : Except BreakpointError Unit)
  | removed (present : Bool)
  | cleared
  deriving DecidableEq, Repr

/-- The finite set after a change. There is no insertion into a full one. -/
def Change.apply (held : Finset UInt32) : Change → Finset UInt32
  | .add address => if address ∉ held ∧ held.card = capacity then held else insert address held
  | .remove address => held.erase address
  | .clear => ∅

/-- An implementation of breakpoints: what can be seen of a state, and what a change replies and
makes of it. -/
structure Implementation (State : Type) where
  contains : State → UInt32 → Bool
  addresses : State → Array UInt32
  size : State → Nat
  perform : State → Change → Reply × State

namespace Implementation

variable {State Other : Type} (implementation : Implementation State) (other : Implementation Other)

/-- All that can be seen of a state. -/
def view (state : State) : (UInt32 → Bool) × Array UInt32 × Nat :=
  (implementation.contains state, implementation.addresses state, implementation.size state)

/-- The state after changes, one after the other. -/
def afterAll (state : State) (changes : List Change) : State :=
  changes.foldl (fun state change => (implementation.perform state change).2) state

/-- The replies to changes, one after the other. -/
def replies (state : State) : List Change → List Reply
  | [] => []
  | change :: rest =>
    (implementation.perform state change).1
      :: replies (implementation.perform state change).2 rest

/-- What it takes that a state stands for a finite set. -/
structure Represents (state : State) (held : Finset UInt32) : Prop where
  contains : ∀ address, implementation.contains state address = true ↔ address ∈ held
  listed : ∀ address, address ∈ implementation.addresses state ↔ address ∈ held
  distinct : (implementation.addresses state).toList.Nodup
  size : implementation.size state = held.card
  bounded : held.card ≤ capacity
  /-- An address is rejected if it is new and there is no room, -/
  rejects : ∀ address, (implementation.perform state (.add address)).1 = .added (.error .full)
    ↔ address ∉ held ∧ held.card = capacity
  /-- and then nothing changes. -/
  rejected : ∀ address, (implementation.perform state (.add address)).1 = .added (.error .full) →
    (implementation.perform state (.add address)).2 = state
  finds : ∀ address, (implementation.perform state (.remove address)).1 = .removed true
    ↔ address ∈ held
  /-- Only the removed address goes. -/
  removes : ∀ address kept,
    kept ∈ implementation.addresses (implementation.perform state (.remove address)).2
      ↔ kept ∈ held ∧ kept ≠ address

variable {implementation other}

/-- Related states give the same replies to all later changes, if every change gives the same reply
and leaves related states. -/
theorem replies_eq_of_step {R : State → Other → Prop}
    (hstep : ∀ state state', R state state' → ∀ change,
      (implementation.perform state change).1 = (other.perform state' change).1
        ∧ R (implementation.perform state change).2 (other.perform state' change).2)
    {state : State} {state' : Other} (h : R state state') (changes : List Change) :
  implementation.replies state changes = other.replies state' changes
    ∧ R (implementation.afterAll state changes) (other.afterAll state' changes)
  := by
  induction changes generalizing state state' with
  | nil => exact ⟨rfl, h⟩
  | cons change rest ih =>
    obtain ⟨hreply, hafter⟩ := hstep state state' h change
    obtain ⟨hreplies, hend⟩ := ih hafter
    exact ⟨by rw [replies, replies, hreply, hreplies], hend⟩

end Implementation

/-! ### The used part of an array -/

section

variable {α : Type} {xs : Array α} {n i : Nat}

/-- Writing behind the used part and then using one more adds the element. -/
theorem extract_write (h : n < xs.size) (a : α) :
  (xs.setIfInBounds n a).extract 0 (n + 1) = (xs.extract 0 n).push a
  := by
  apply Array.ext
  · simp only [Array.size_extract, Array.size_push, Array.size_setIfInBounds]
    omega
  · intro k hk _
    simp only [Array.size_extract, Array.size_setIfInBounds] at hk
    have hlt : k < xs.size := by omega
    simp only [Array.getElem_extract, Array.getElem_push, Nat.zero_add, Array.size_extract,
      Array.getElem_setIfInBounds hlt]
    by_cases hlast : n = k
    · rw [if_pos hlast, dif_neg (by omega)]
    · rw [if_neg hlast, dif_pos (by omega)]

/-- Swapping in the used part and then using one less takes the last element off. -/
theorem extract_swap (h : n ≤ xs.size) (hi : i < n) :
  (xs.swapIfInBounds i (n - 1)).extract 0 (n - 1)
    = ((xs.extract 0 n).swapIfInBounds i (n - 1)).pop
  := by
  apply Array.ext
  · simp only [Array.size_extract, Array.size_pop, Array.size_swapIfInBounds]
    omega
  · intro k hk _
    simp only [Array.size_extract, Array.size_swapIfInBounds] at hk
    rw [Array.getElem_extract, Array.getElem_pop, Array.getElem_swapIfInBounds,
      Array.getElem_swapIfInBounds]
    simp only [Nat.zero_add, Array.size_extract, Array.getElem_extract]
    by_cases hswapped : k = i
    · rw [dif_pos ⟨hswapped, by omega⟩, dif_pos ⟨hswapped, by omega⟩]
    · rw [dif_neg (by omega), dif_neg (by omega), dif_neg (by omega), dif_neg (by omega)]

end

/-! ### Arrays -/

/-- The implementation that a machine uses. -/
def arrays : Implementation Breakpoints where
  contains := contains
  addresses := addresses
  size := size
  perform set
    | .add address =>
      match set.add address with
      | .ok after => (.added (.ok ()), after)
      | .error e => (.added (.error e), set)
    | .remove address =>
      let (present, after) := set.remove address
      (.removed present, after)
    | .clear => (.cleared, .empty)

variable {set : Breakpoints} {address : UInt32}

theorem contains_iff :
  set.contains address = true ↔ address ∈ set.addresses
  := Array.contains_iff_mem

theorem isFull_iff :
  set.isFull = true ↔ set.size = capacity
  := decide_eq_true_iff

theorem remove_of_not_mem (h : address ∉ set.addresses) :
  set.remove address = (false, set)
  := by rw [remove, Array.finIdxOf?_eq_none_iff.mpr h]

/-- The removed address is the one that is cut off at the end. -/
theorem remove_of_mem (h : address ∈ set.addresses) :
  ∃ after, set.remove address = (true, after)
    ∧ (after.addresses.toList ++ [address]).Perm set.addresses.toList
  := by
  cases hfind : set.addresses.finIdxOf? address with
  | none => exact absurd h (Array.finIdxOf?_eq_none_iff.mp hfind)
  | some i =>
    have hfound : set.addresses[i.val] = address := (Array.finIdxOf?_eq_some_iff.mp hfind).1
    have hlast : set.size - 1 < set.addresses.size := Nat.sub_one_lt_of_lt i.isLt
    let swapped := set.addresses.swap i (set.size - 1) i.isLt hlast
    have hswap : set.addresses.swapIfInBounds i (set.size - 1) = swapped := by
      rw [Array.swapIfInBounds_def, dif_pos i.isLt, dif_pos hlast]
    have hsize : swapped.size = set.size := Array.size_swap ..
    have hback : swapped.toList.getLast? = some address := by
      rw [Array.getLast?_toList, Array.back?_eq_getElem?, hsize,
        Array.getElem?_eq_getElem (Nat.lt_of_lt_of_eq hlast hsize.symm),
        Array.getElem_swap_right, hfound]
    use ⟨swapped.pop⟩
    constructor
    · rw [remove, hfind, ← hswap]
    · rw [Array.toList_pop, List.dropLast_append_getLast? _ hback]
      exact (Array.swap_perm ..).toList

/-- The array holds the finite set. -/
structure Holds (set : Breakpoints) (held : Finset UInt32) : Prop where
  sound : set.Sound
  listed : set.addresses.toList.toFinset = held

namespace Holds

variable {held : Finset UInt32}

theorem mem (h : set.Holds held) :
  address ∈ set.addresses ↔ address ∈ held
  := by rw [← h.listed, List.mem_toFinset, Array.mem_toList_iff]

theorem size (h : set.Holds held) :
  set.size = held.card
  := by
  rw [← h.listed, List.toFinset_card_of_nodup h.sound.distinct]
  rfl

theorem empty :
  Breakpoints.empty.Holds ∅
  := ⟨.empty, rfl⟩

/-- What is held after an address is removed. -/
theorem remove (h : set.Holds held) (address : UInt32) :
  (set.remove address).2.Holds (held.erase address)
  := by
  use h.sound.remove address
  by_cases hmem : address ∈ set.addresses
  · obtain ⟨after, hremove, hperm⟩ := remove_of_mem hmem
    -- The addresses were distinct, and so the one that is cut off is not among the others.
    have hdistinct := hperm.nodup_iff.mpr h.sound.distinct
    rw [List.nodup_append_comm] at hdistinct
    have hgone : address ∉ after.addresses.toList.toFinset := by
      rw [List.mem_toFinset]
      exact (List.nodup_cons.mp hdistinct).1
    have hinsert : insert address after.addresses.toList.toFinset = held := by
      rw [← h.listed, ← List.toFinset_eq_of_perm _ _ hperm, List.toFinset_append,
        Finset.union_comm]
      rfl
    rw [hremove, ← hinsert, Finset.erase_insert hgone]
  · rw [remove_of_not_mem hmem, h.listed, Finset.erase_eq_of_notMem (mt h.mem.mpr hmem)]

theorem add_error_iff (h : set.Holds held) :
  set.add address = .error .full ↔ address ∉ held ∧ held.card = capacity
  := by
  rw [← h.mem, ← contains_iff, ← h.size, ← isFull_iff, add]
  cases set.contains address with
  | true => simp
  | false => cases set.isFull <;> simp

theorem add (h : set.Holds held) {after : Breakpoints} (hadd : set.add address = .ok after) :
  after.Holds (insert address held)
  := by
  use h.sound.add hadd
  rw [Breakpoints.add] at hadd
  split at hadd
  · next hold =>
    cases hadd
    rw [h.listed, Finset.insert_eq_of_mem (h.mem.mp (contains_iff.mp hold))]
  · split at hadd
    · cases hadd
    · cases hadd
      rw [Array.toList_push, List.toFinset_append, h.listed, Finset.union_comm]
      rfl

/-- A change of the array is a change of the finite set. -/
theorem perform (h : set.Holds held) (change : Change) :
  (arrays.perform set change).2.Holds (change.apply held)
  := by
  cases change with
  | remove address => exact h.remove address
  | clear => exact empty
  | add address =>
    simp only [arrays, Change.apply]
    cases hadd : set.add address with
    | error e =>
      cases e
      rw [if_pos (h.add_error_iff.mp hadd)]
      exact h
    | ok after =>
      have haccepts : ¬ (address ∉ held ∧ held.card = capacity) := by
        rw [← h.add_error_iff, hadd]
        nofun
      rw [if_neg haccepts]
      exact h.add hadd

theorem represents (h : set.Holds held) :
  arrays.Represents set held
  where
  contains address := contains_iff.trans h.mem
  listed address := h.mem
  distinct := h.sound.distinct
  size := h.size
  bounded := h.size.symm.trans_le h.sound.bounded
  rejects address := by
    rw [← h.add_error_iff]
    simp only [arrays]
    cases set.add address with
    | ok after => simp
    | error e => simp
  rejected address := by
    simp only [arrays]
    cases set.add address with
    | ok after => nofun
    | error e => exact fun _ => rfl
  finds address := by
    simp only [arrays, Reply.removed.injEq]
    by_cases hmem : address ∈ set.addresses
    · obtain ⟨after, hremove, _⟩ := remove_of_mem hmem
      exact iff_of_true (by rw [hremove]) (h.mem.mp hmem)
    · rw [remove_of_not_mem hmem]
      exact iff_of_false Bool.false_ne_true (mt h.mem.mpr hmem)
  removes address kept := by
    have hmem : kept ∈ (set.remove address).2.addresses ↔ kept ∈ held.erase address :=
      (h.remove address).mem
    rwa [Finset.mem_erase, and_comm] at hmem

end Holds

theorem afterAll_holds (changes : List Change) :
  (arrays.afterAll .empty changes).Holds (changes.foldl Change.apply ∅)
  := by
  apply List.foldl_rel Holds.empty
  intro change _ set held h
  exact h.perform change

/-! ### Tables -/

/-- The implementation with storage of fixed size. -/
def tables : Implementation BreakpointTable where
  contains := BreakpointTable.contains
  addresses := BreakpointTable.active
  size := BreakpointTable.count
  perform table
    | .add address =>
      let (result, after) := table.add address
      (.added result, after)
    | .remove address =>
      let (present, after) := table.remove address
      (.removed present, after)
    | .clear => (.cleared, table.clear)

/-- The entries in use are those of the array. Nothing is said of the others. -/
structure Stores (table : BreakpointTable) (set : Breakpoints) : Prop where
  active : table.active = set.addresses
  bounded : table.count ≤ capacity

namespace Stores

variable {table : BreakpointTable}

theorem empty :
  Stores .empty .empty
  where
  active := rfl
  bounded := Nat.zero_le _

theorem count (h : Stores table set) :
  table.count = set.size
  := by
  have hbounded := h.bounded
  rw [size, ← h.active, BreakpointTable.active, Array.size_extract, Vector.size_toArray]
  omega

theorem contains (h : Stores table set) (address : UInt32) :
  table.contains address = set.contains address
  := by rw [BreakpointTable.contains, h.active, Breakpoints.contains]

theorem isFull (h : Stores table set) :
  table.isFull = set.isFull
  := by rw [BreakpointTable.isFull, h.count, Breakpoints.isFull]

theorem view (h : Stores table set) :
  tables.view table = arrays.view set
  := by
  have hcontains : table.contains = set.contains := funext h.contains
  simp only [Implementation.view, tables, arrays, hcontains, h.active, h.count]

/-- The first entry that is not in use takes the new address. -/
theorem push (h : Stores table set) (hroom : table.isFull = false) (address : UInt32) :
  Stores ⟨table.entries.setIfInBounds table.count address, table.count + 1⟩
    ⟨set.addresses.push address⟩
  := by
  have hlt : table.count < table.entries.toArray.size := by
    have hbounded := h.bounded
    rw [BreakpointTable.isFull, decide_eq_false_iff_not] at hroom
    rw [Vector.size_toArray]
    omega
  constructor
  · rw [← h.active, BreakpointTable.active, BreakpointTable.active, Vector.toArray_setIfInBounds]
    exact extract_write hlt address
  · rw [Vector.size_toArray] at hlt
    exact hlt

/-- Of the entries in use, the last one is cut off, after a swap with another one. -/
theorem cut (h : Stores table set) {i : Nat} (hi : i < set.size) :
  Stores ⟨table.entries.swapIfInBounds i (table.count - 1), table.count - 1⟩
    ⟨(set.addresses.swapIfInBounds i (set.size - 1)).pop⟩
  := by
  have hle : table.count ≤ table.entries.toArray.size := by
    rw [Vector.size_toArray]
    exact h.bounded
  constructor
  · rw [← h.count] at hi ⊢
    rw [← h.active, BreakpointTable.active, BreakpointTable.active, Vector.toArray_swapIfInBounds]
    exact extract_swap hle hi
  · exact (Nat.sub_le _ _).trans h.bounded

/-- A change of the table is a change of the array, with the same reply. -/
theorem perform (h : Stores table set) (change : Change) :
  (tables.perform table change).1 = (arrays.perform set change).1
    ∧ Stores (tables.perform table change).2 (arrays.perform set change).2
  := by
  cases change with
  | clear =>
    use rfl
    exact ⟨Array.extract_zero, Nat.zero_le _⟩
  | add address =>
    simp only [tables, arrays, BreakpointTable.add, add, h.contains, h.isFull]
    cases set.contains address with
    | true => exact ⟨rfl, h⟩
    | false =>
      cases hfull : set.isFull with
      | true => exact ⟨rfl, h⟩
      | false => exact ⟨rfl, h.push (h.isFull.trans hfull) address⟩
  | remove address =>
    -- The place of an address is an index into the array, so the two arrays must be one first.
    obtain ⟨addresses⟩ := set
    obtain rfl := h.active
    simp only [tables, arrays, BreakpointTable.remove, remove]
    cases table.active.finIdxOf? address with
    | none => exact ⟨rfl, h⟩
    | some i => exact ⟨rfl, h.cut i.isLt⟩

/-- What an array stands for, a table that stores it stands for, too. -/
theorem represents (h : Stores table set) {held : Finset UInt32}
    (hset : arrays.Represents set held) :
  tables.Represents table held
  where
  contains address := by
    rw [← hset.contains address]
    exact Bool.eq_iff_iff.mp (h.contains address)
  listed address := by
    rw [← hset.listed address]
    exact iff_of_eq (congrArg (address ∈ ·) h.active)
  distinct := by
    have hdistinct : set.addresses.toList.Nodup := hset.distinct
    rw [← h.active] at hdistinct
    exact hdistinct
  size := h.count.trans hset.size
  bounded := hset.bounded
  rejects address := by
    rw [(h.perform _).1]
    exact hset.rejects address
  rejected address := by
    simp only [tables, BreakpointTable.add]
    cases table.contains address with
    | true => exact fun _ => rfl
    | false =>
      cases table.isFull with
      | true => exact fun _ => rfl
      | false => nofun
  finds address := by
    rw [(h.perform _).1]
    exact hset.finds address
  removes address kept := by
    rw [← hset.removes address kept]
    exact iff_of_eq (congrArg (kept ∈ ·) (h.perform _).2.active)

end Stores

/-! ### Histories -/

/-- **Breakpoints are a set of at most 32 addresses.** After any history of adding, removing and
clearing, both the array that a machine uses and a table of fixed size stand for the finite set that
the same insertions, deletions and clearings make. They show the same addresses in the same order,
and have given the same replies. Were other addresses in the entries of the table that are not in
use, no later reply would differ, and nothing that can be seen later. -/
theorem afterAll_represents (changes : List Change) :
  let set := arrays.afterAll .empty changes
  let table := tables.afterAll .empty changes
  let held := changes.foldl Change.apply ∅
  arrays.Represents set held
    ∧ tables.Represents table held
    ∧ tables.view table = arrays.view set
    ∧ tables.replies .empty changes = arrays.replies .empty changes
    ∧ ∀ other : BreakpointTable, other.count = table.count → other.active = table.active →
      ∀ later, tables.replies other later = tables.replies table later
        ∧ tables.view (tables.afterAll other later) = tables.view (tables.afterAll table later)
  := by
  intro set table held
  have hstep table set (h : Stores table set) := h.perform
  obtain ⟨hreplies, hstores⟩ := Implementation.replies_eq_of_step hstep .empty changes
  have hset : arrays.Represents set held := (afterAll_holds changes).represents
  refine ⟨hset, hstores.represents hset, hstores.view, hreplies, ?_⟩
  intro other hcount hactive later
  -- Both tables store the one array, which has nothing behind the addresses in use.
  have hother : Stores other set :=
    ⟨hactive.trans hstores.active, hcount.trans_le hstores.bounded⟩
  obtain ⟨hlater, hend⟩ := Implementation.replies_eq_of_step hstep hstores later
  obtain ⟨hlater', hend'⟩ := Implementation.replies_eq_of_step hstep hother later
  exact ⟨hlater'.trans hlater.symm, hend'.view.trans hend.view.symm⟩

/-- The last address takes the place of the removed one, which stays behind in the row. -/
example :
    let table := tables.afterAll .empty [.add 10, .add 20, .add 30, .remove 10]
    table.active = #[30, 20] ∧ table.entries[2] = 10 := by
  decide +kernel

end Breakpoints

end ThumbSoc
