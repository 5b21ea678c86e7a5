import ThumbSoc.Proofs.Encoding.Formats
import ThumbSoc.Proofs.Invariants.Bus

/-!
# Pins one by one

Each pin has a bit of the output latch and one of the enable latch, and a write changes these two
bits in a way that depends on them and on one bit of the written value. So the pins are independent
of each other. An alias that sets, clears or toggles leaves the pins alone that are not in its mask;
cores that write through such aliases to pins of their own never lose an update, in whatever order
their writes reach the block.
-/

namespace ThumbSoc.Gpio

open Word (bit)

/-- What can be done to the block: a core is selected, the outside world drives a pin, a register
is written, or the block is reset. Reads have no effect. -/
inductive Call where
  | select (core : Nat)
  | drive (pin : Nat) (high : Bool)
  | write (offset value : Word)
  | reset
  deriving DecidableEq, Repr

/-- The block after a call. A rejected write has no effect. -/
def after (gpio : Gpio) : Call → Gpio
  | .select core => gpio.select core
  | .drive pin high => gpio.drive pin high
  | .write offset value =>
    match gpio.write offset value with
    | .ok after => after
    | .error _ => gpio
  | .reset => gpio.reset

/-- The block after calls, one after the other. -/
def afterAll (gpio : Gpio) (calls : List Call) : Gpio :=
  calls.foldl after gpio

theorem Sound.after {gpio : Gpio} (h : gpio.Sound) (call : Call) :
  (gpio.after call).Sound
  := by
  cases call with
  | select core => exact { h with }
  | drive pin high => exact h.drive pin high
  | reset => exact h.reset
  | write offset value =>
    rw [Gpio.after]
    split
    · next hwrite => exact h.write hwrite
    · exact h

theorem Sound.afterAll {gpio : Gpio} (h : gpio.Sound) (calls : List Call) :
  (gpio.afterAll calls).Sound
  := by
  induction calls generalizing gpio with
  | nil => exact h
  | cons call rest ih => exact ih (h.after call)

/-! ### A write, seen from a pin -/

/-- The bits of a pin in the output latch and in the enable latch. -/
def latches (gpio : Gpio) (i : Nat) : Bool × Bool :=
  (bit gpio.output i, bit gpio.enable i)

/-- What a write of a bit makes of a bit of a latch. -/
def Change.applyBit (change : Change) (latch value : Bool) : Bool :=
  match change with
  | assign => value
  | set => latch || value
  | clear => latch && !value
  | toggle => latch ^^ value

theorem bit_apply (change : Change) (latch value : Word) (i : Nat) :
  bit (change.apply latch value) i = change.applyBit (bit latch i) (bit value i)
  := by
  cases change with
  | assign => rfl
  | set => exact Word.bit_or latch value i
  | clear => exact Word.bit_and_not latch value i
  | toggle => exact Word.bit_xor latch value i

/-- What a write at an offset makes of the bits of a pin, by the bit that is written. -/
def pinChange (offset : Word) (value : Bool) (held : Bool × Bool) : Bool × Bool :=
  match register? offset with
  | some (.output change) => (change.applyBit held.1 value, held.2)
  | some (.enable change) => (held.1, change.applyBit held.2 value)
  | _ => held

/-- A write changes each pin for itself. -/
theorem latches_write (gpio : Gpio) (offset value : Word) (i : Nat) :
  (gpio.after (.write offset value)).latches i
    = pinChange offset (bit (value &&& pinMask) i) (gpio.latches i)
  := by
  rw [after, Gpio.write, pinChange]
  cases register? offset with
  | none => rfl
  | some register =>
    cases register with
    | output change => simp only [latches, bit_apply]
    | enable change => simp only [latches, bit_apply]
    | _ => rfl

/-! ### Writes through aliases -/

/-- The offsets of the aliases that set, clear or toggle bits of the output latch or of the enable
latch. -/
def aliases : List Word :=
  [0x14, 0x18, 0x1C, 0x24, 0x28, 0x2C]

/-- A write through an alias. -/
structure AliasWrite where
  offset : Word
  value : Word
  isAlias : offset ∈ aliases
  deriving DecidableEq

namespace AliasWrite

/-- The write as a call. -/
def call (write : AliasWrite) : Call :=
  .write write.offset write.value

/-- The pins in the mask of the write. -/
def pins (write : AliasWrite) : Word :=
  write.value &&& pinMask

end AliasWrite

/-- The pins in the masks of some writes. -/
def mask (writes : List AliasWrite) : Word :=
  writes.foldr (fun write pins => write.pins ||| pins) 0

/-- The writes of each core in the order in which it makes them, put into one order. -/
def Interleaves {κ : Type} [DecidableEq κ] (own : κ → List AliasWrite)
    (order : List (κ × AliasWrite)) : Prop :=
  ∀ k, (order.filter (·.1 = k)).map (·.2) = own k

/-- Through an alias a zero bit changes nothing. -/
theorem pinChange_alias {offset : Word} (h : offset ∈ aliases) (held : Bool × Bool) :
  pinChange offset false held = held
  := by
  obtain ⟨output, enable⟩ := held
  simp only [aliases, List.mem_cons, List.not_mem_nil, or_false] at h
  rcases h with rfl | rfl | rfl | rfl | rfl | rfl
  all_goals cases output
  all_goals cases enable
  all_goals rfl

/-- An alias leaves the pins alone that are not in the mask. -/
theorem latches_alias (gpio : Gpio) (write : AliasWrite) {i : Nat}
    (h : bit write.pins i = false) :
  (gpio.after write.call).latches i = gpio.latches i
  := by
  have hwrite := gpio.latches_write write.offset write.value i
  rw [show bit (write.value &&& pinMask) i = false from h] at hwrite
  rw [AliasWrite.call, hwrite, pinChange_alias write.isAlias]

theorem bit_pins_of_mask {writes : List AliasWrite} {write : AliasWrite} (hmem : write ∈ writes)
    {i : Nat} (h : bit (mask writes) i = false) :
  bit write.pins i = false
  := by
  induction writes with
  | nil => cases hmem
  | cons first rest ih =>
    have hmask : mask (first :: rest) = first.pins ||| mask rest := rfl
    rw [hmask, Word.bit_or, Bool.or_eq_false_iff] at h
    rcases List.mem_cons.mp hmem with rfl | hrest
    · exact h.1
    · exact ih hrest h.2

/-- Writes leave the pins alone that are in none of their masks. -/
theorem latches_outside (gpio : Gpio) (writes : List AliasWrite) {i : Nat}
    (h : ∀ write ∈ writes, bit write.pins i = false) :
  (gpio.afterAll (writes.map (·.call))).latches i = gpio.latches i
  := by
  induction writes generalizing gpio with
  | nil => rfl
  | cons first rest ih =>
    rw [List.forall_mem_cons] at h
    have hfirst := gpio.latches_alias first h.1
    exact (ih (gpio.after first.call) h.2).trans hfirst

/-- On a pin that no other core names, the writes of all cores come to the same as those of one
core alone. -/
theorem latches_alone {κ : Type} [DecidableEq κ] {k : κ} {i : Nat} {gpio gpio' : Gpio}
    (hsame : gpio.latches i = gpio'.latches i) (order : List (κ × AliasWrite))
    (hothers : ∀ entry ∈ order, entry.1 ≠ k → bit entry.2.pins i = false) :
  (gpio.afterAll (order.map (·.2.call))).latches i
    = (gpio'.afterAll ((order.filter (·.1 = k)).map (·.2.call))).latches i
  := by
  induction order generalizing gpio gpio' with
  | nil => exact hsame
  | cons entry rest ih =>
    obtain ⟨hfirst, hrest⟩ := List.forall_mem_cons.mp hothers
    rw [List.map_cons]
    by_cases hk : entry.1 = k
    · rw [List.filter_cons_of_pos (by simpa using hk), List.map_cons]
      apply ih _ hrest
      rw [AliasWrite.call, latches_write, latches_write, hsame]
    · rw [List.filter_cons_of_neg (by simpa using hk)]
      apply ih _ hrest
      rw [latches_alias gpio entry.2 (hfirst hk), hsame]

/-! ### The levels of the pins -/

/-- The level that a call drives onto a pin, if it does. -/
def driven? (pin : Nat) : Call → Option Bool
  | .drive p high => if p = pin then some high else none
  | _ => none

/-- The level that the outside world has driven onto a pin last, low if it never has. -/
def lastDriven (pin : Nat) (calls : List Call) : Bool :=
  (calls.reverse.findSome? (driven? pin)).getD false

theorem bit_pinMask (i : Nat) :
  bit pinMask i = decide (i < pinCount)
  := by
  rcases Nat.lt_or_ge i 32 with hi | hi
  · decide +revert
  · have hbeyond : ¬ i < pinCount := by
      rw [pinCount]
      omega
    rw [Word.bit_of_le _ hi, decide_eq_false hbeyond]

/-- A driven pin gets its level, and the others keep theirs. -/
theorem bit_drive (gpio : Gpio) {pin : Nat} (hpin : pin < pinCount) (high : Bool) (i : Nat) :
  bit (gpio.drive pin high).input i = if pin = i then high else bit gpio.input i
  := by
  rw [drive, if_pos hpin]
  cases high with
  | true =>
    simp only [if_true, Word.bit_or, bit_shifted hpin]
    by_cases hi : pin = i <;> simp [hi]
  | false =>
    simp only [Bool.false_eq_true, if_false, Word.bit_and_not, bit_shifted hpin]
    by_cases hi : pin = i <;> simp [hi]

theorem input_write (gpio : Gpio) (offset value : Word) :
  (gpio.after (.write offset value)).input = gpio.input
  := by
  rw [after, Gpio.write]
  cases register? offset with
  | none => rfl
  | some register => cases register <;> rfl

/-- A call leaves on a pin the level that it drives, and otherwise the one that was there. -/
theorem bit_input_after (gpio : Gpio) {pin : Nat} (hpin : pin < pinCount) (call : Call) :
  bit (gpio.after call).input pin = (driven? pin call).getD (bit gpio.input pin)
  := by
  cases call with
  | select core => rfl
  | reset => rfl
  | write offset value =>
    rw [input_write]
    rfl
  | drive p high =>
    rw [after, driven?]
    by_cases hp : p < pinCount
    · rw [bit_drive gpio hp]
      by_cases hsame : p = pin
      · rw [if_pos hsame, if_pos hsame, Option.getD_some]
      · rw [if_neg hsame, if_neg hsame, Option.getD_none]
    · have hne : p ≠ pin := fun hsame => hp (hsame ▸ hpin)
      rw [drive, if_neg hp, if_neg hne, Option.getD_none]

/-- After a history the inputs hold what was driven last. -/
theorem bit_input {pin : Nat} (hpin : pin < pinCount) (calls : List Call) :
  bit (initial.afterAll calls).input pin = lastDriven pin calls
  := by
  have hstep : ∀ gpio : Gpio, True → ∀ call ∈ calls,
      True ∧ bit (gpio.after call).input pin = (driven? pin call).getD (bit gpio.input pin) :=
    fun gpio _ call _ => ⟨trivial, gpio.bit_input_after hpin call⟩
  have hinitial : bit initial.input pin = false := Nat.zero_testBit pin
  rw [lastDriven, ← hinitial]
  exact (foldl_last (P := fun _ => True) (f := fun gpio : Gpio => bit gpio.input pin) hstep
    trivial).2

/-- An enabled pin shows its latch, and any other the level that is driven onto it. -/
theorem bit_levels (gpio : Gpio) {pin : Nat} (hpin : pin < pinCount) :
  bit gpio.levels pin = if bit gpio.enable pin then bit gpio.output pin else bit gpio.input pin
  := by
  rw [levels, Word.bit_and, bit_pinMask, decide_eq_true hpin, Bool.and_true, Word.bit_or,
    Word.bit_and, Word.bit_and_not]
  cases bit gpio.enable pin <;> simp

/-! ### Cores with pins of their own -/

/-- The bits that stand for no pin are clear. -/
theorem Sound.latches_beyond {gpio : Gpio} (h : gpio.Sound) :
  gpio.latches 30 = (false, false) ∧ gpio.latches 31 = (false, false)
  := by
  have houtput := Word.clear_iff.mp h.output
  have henable := Word.clear_iff.mp h.enable
  constructor
  · exact Prod.ext (houtput 30 (by decide)) (henable 30 (by decide))
  · exact Prod.ext (houtput 31 (by decide)) (henable 31 (by decide))

/-- What becomes of the pins when cores write through aliases to pins of their own. -/
theorem latches_interleaved {κ : Type} [DecidableEq κ] {own : κ → List AliasWrite}
    {order : List (κ × AliasWrite)} (hdisjoint : ∀ j k, j ≠ k → mask (own j) &&& mask (own k) = 0)
    (horder : Interleaves own order) (gpio : Gpio) :
  (∀ k i, bit (mask (own k)) i = true →
      (gpio.afterAll (order.map (·.2.call))).latches i
        = (gpio.afterAll ((own k).map (·.call))).latches i)
    ∧ ∀ i, (∀ k, bit (mask (own k)) i = false) →
      (gpio.afterAll (order.map (·.2.call))).latches i = gpio.latches i
  := by
  have hown : ∀ entry ∈ order, entry.2 ∈ own entry.1 := by
    intro entry hentry
    rw [← horder]
    apply List.mem_map_of_mem (List.mem_filter.mpr ⟨hentry, _⟩)
    exact decide_eq_true rfl
  constructor
  · intro k i hi
    have halone : (own k).map (·.call) = (order.filter (·.1 = k)).map (·.2.call) := by
      rw [← horder, List.map_map]
      rfl
    rw [halone]
    apply latches_alone rfl
    intro entry hentry hne
    have hapart : bit (mask (own entry.1) &&& mask (own k)) i = bit 0 i := by
      rw [hdisjoint _ _ hne]
    rw [Word.bit_and, hi, Bool.and_true] at hapart
    exact bit_pins_of_mask (hown entry hentry) (hapart.trans (Nat.zero_testBit i))
  · intro i hi
    have hwrites : order.map (·.2.call) = (order.map (·.2)).map (·.call) := by
      rw [List.map_map]
      rfl
    rw [hwrites]
    apply latches_outside
    intro write hwrite
    obtain ⟨entry, hentry, rfl⟩ := List.mem_map.mp hwrite
    exact bit_pins_of_mask (hown entry hentry) (hi entry.1)

/-- **Writes through aliases to pins of one's own lose no update.** Take the block after any
history, and any number of cores that write through the aliases, no two of them with a common pin
in their masks. However their writes are interleaved, both latches hold on the pins of each core
what its own writes alone would have left there, the other pins are unchanged, and the bits that
stand for no pin are clear. Writes of the output registers change nothing but the output latch, and
writes of the enable registers nothing but the enable latch. Each pin shows its output bit if it is
enabled and the level last driven onto it if not, and so does its bit of the input register. -/
theorem aliases_lose_nothing (calls : List Call) :
  let gpio := initial.afterAll calls
  (∀ (cores : Nat) (own : Fin cores → List AliasWrite) (order : List (Fin cores × AliasWrite)),
      (∀ j k, j ≠ k → mask (own j) &&& mask (own k) = 0) → Interleaves own order →
        let last := gpio.afterAll (order.map (·.2.call))
        (∀ k i, bit (mask (own k)) i = true →
            last.latches i = (gpio.afterAll ((own k).map (·.call))).latches i)
          ∧ (∀ i, (∀ k, bit (mask (own k)) i = false) → last.latches i = gpio.latches i)
          ∧ last.latches 30 = (false, false) ∧ last.latches 31 = (false, false))
    ∧ (∀ offset value change, register? offset = some (.output change) →
      ∃ output, gpio.write offset value = .ok { gpio with output })
    ∧ (∀ offset value change, register? offset = some (.enable change) →
      ∃ enable, gpio.write offset value = .ok { gpio with enable })
    ∧ ∀ pin < pinCount,
      gpio.level pin
          = (if bit gpio.enable pin then bit gpio.output pin else lastDriven pin calls)
        ∧ ∀ offset, register? offset = some .input →
          ∃ value, gpio.read offset = .ok value ∧ bit value pin = gpio.level pin
  := by
  intro gpio
  have hsound : gpio.Sound := Sound.initial.afterAll calls
  refine ⟨?_, ?_, ?_, ?_⟩
  · intro cores own order hdisjoint horder last
    obtain ⟨hown, hothers⟩ := latches_interleaved hdisjoint horder gpio
    exact ⟨hown, hothers, (hsound.afterAll _).latches_beyond⟩
  · intro offset value change hregister
    rw [Gpio.write, hregister]
    exact ⟨_, rfl⟩
  · intro offset value change hregister
    rw [Gpio.write, hregister]
    exact ⟨_, rfl⟩
  · intro pin hpin
    have hlevel : gpio.level pin = bit gpio.levels pin := by
      rw [level, decide_eq_true hpin, Bool.true_and]
    constructor
    · rw [hlevel, bit_levels gpio hpin, bit_input hpin calls]
    · intro offset hregister
      have hread : gpio.read offset = .ok gpio.levels := by rw [read, hregister]
      exact ⟨_, hread, hlevel.symm⟩

/-! ### Two cores -/

/-- The first core sets its two pins and toggles them both, the second one enables its pin, sets it
and clears it again. -/
def tugging (core : Fin 2) : List AliasWrite :=
  if core.val = 0 then [⟨0x14, 0x00000003, by decide⟩, ⟨0x1C, 0x00000003, by decide⟩]
  else [⟨0x24, 0x40000004, by decide⟩, ⟨0x14, 0x00000004, by decide⟩, ⟨0x18, 0x00000004, by decide⟩]

/-- The writes of both cores in turns. -/
def tuggingOrder : List (Fin 2 × AliasWrite) :=
  let first (write : AliasWrite) : Fin 2 × AliasWrite := (⟨0, Nat.two_pos⟩, write)
  let second (write : AliasWrite) : Fin 2 × AliasWrite := (⟨1, Nat.one_lt_two⟩, write)
  [second ⟨0x24, 0x40000004, by decide⟩, first ⟨0x14, 0x00000003, by decide⟩,
    second ⟨0x14, 0x00000004, by decide⟩, first ⟨0x1C, 0x00000003, by decide⟩,
    second ⟨0x18, 0x00000004, by decide⟩]

theorem tugging_lose_nothing :
  let calls : List Call := [.drive 3 true, .write 0x10 0xC0000002, .drive 30 true]
  let gpio := initial.afterAll calls
  let last := gpio.afterAll (tuggingOrder.map (·.2.call))
  (∀ j k, j ≠ k → mask (tugging j) &&& mask (tugging k) = 0) ∧ Interleaves tugging tuggingOrder
    ∧ last.latches 1 = (gpio.afterAll ((tugging 0).map (·.call))).latches 1
    ∧ last.latches 2 = (gpio.afterAll ((tugging 1).map (·.call))).latches 2
    ∧ last.latches 30 = (false, false)
    ∧ gpio.level 3 = true
  := by
  intro calls gpio last
  obtain ⟨hinterleaved, -, -, hlevels⟩ := aliases_lose_nothing calls
  have hdisjoint : ∀ j k, j ≠ k → mask (tugging j) &&& mask (tugging k) = 0 := by decide
  have horder : Interleaves tugging tuggingOrder := by
    intro k
    decide +revert
  obtain ⟨hown, -, hbeyond, -⟩ := hinterleaved 2 tugging tuggingOrder hdisjoint horder
  refine ⟨hdisjoint, horder, hown 0 1 (by decide), hown 1 2 (by decide), hbeyond, ?_⟩
  rw [(hlevels 3 (by decide)).1]
  decide

end ThumbSoc.Gpio
