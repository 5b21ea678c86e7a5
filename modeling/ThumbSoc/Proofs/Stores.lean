import ThumbSoc.Proofs.Execution

/-!
# The stores of an instruction

Which values an instruction stores at which addresses, and in which order. It reads before it
stores, and reads change nothing but the receive queues, out of which they take bytes.
-/

namespace ThumbSoc

/-- A store of the low bytes of a value. -/
structure Store where
  address : Word
  width : Width
  value : Word
  deriving DecidableEq, Repr

/-- The stores of consecutive words. -/
def wordStores (start : Word) : List Word → List Store
  | [] => []
  | value :: rest => ⟨start, .word, value⟩ :: wordStores (start + 4) rest

/-- The stores of an instruction at `pc`, in order. -/
def Instruction.stores (i : Instruction) (core : ThumbCore) (pc : Word) : List Store :=
  match i.opcode with
  | .str => [⟨i.address core pc, i.width, core.operandOr pc i.rd 0⟩]
  | _ =>
    match i.storedWords core pc with
    | some (start, values) => wordStores start values
    | none => []

namespace Bus

/-- Makes stores one after the other. -/
def performStores : List Store → Transfer Unit
  | [] => pure ()
  | s :: rest => do
    write s.address s.width s.value
    performStores rest

theorem performStores_words (start : Word) (values : List Word) :
  performStores (wordStores start values) = writeWords start values
  := by
  induction values generalizing start with
  | nil => rfl
  | cons value values ih => rw [wordStores, performStores, writeWords, ih]

theorem performStores_keeps {R : Bus → Bus → Prop} (hrefl : ∀ bus, R bus bus)
    (htrans : ∀ bus mid bus', R bus mid → R mid bus' → R bus bus')
    (hwrite : ∀ address width value, Keeps R (write address width value)) (stores : List Store) :
  Keeps R (performStores stores)
  := by
  induction stores with
  | nil => exact Keeps.pure hrefl ()
  | cons s rest ih => exact Keeps.bind htrans (hwrite s.address s.width s.value) fun _ => ih

/-! ### Reads before stores -/

/-- The bus after some bytes were taken out of the receive queues. -/
structure Drained (bus bus' : Bus) : Prop where
  sram : bus'.sram = bus.sram
  gpio : bus'.gpio = bus.gpio
  serial : ∀ port : Fin 2, ∃ taken,
    bus'.serial.get port
      = { bus.serial.get port with received := (bus.serial.get port).received.drop taken }

namespace Drained

theorem refl (bus : Bus) :
  Drained bus bus
  where
  sram := rfl
  gpio := rfl
  serial _ := ⟨0, rfl⟩

theorem trans {bus mid bus' : Bus} (h : Drained bus mid) (h' : Drained mid bus') :
  Drained bus bus'
  where
  sram := h'.sram.trans h.sram
  gpio := h'.gpio.trans h.gpio
  serial port := by
    obtain ⟨taken, hmid⟩ := h.serial port
    obtain ⟨taken', hbus'⟩ := h'.serial port
    use taken + taken'
    rw [hbus', hmid, List.drop_drop]

theorem discard (bus : Bus) (port : Fin 2) :
  Drained bus (bus.discard port)
  where
  sram := rfl
  gpio := rfl
  serial other := by
    by_cases hport : port = other
    · subst hport
      use 1
      simp only [Bus.discard, get_set_self, List.drop_one]
    · use 0
      simp only [Bus.discard, get_set_ne hport, List.drop_zero]

theorem afterRead (bus : Bus) (target : Target) :
  Drained bus (bus.afterRead target)
  := by
  rw [Bus.afterRead]
  split
  · apply discard
  · apply refl

end Drained

/-- A read only drains, whether it succeeds or not. -/
theorem read_drained (address : Word) (width : Width) :
  Keeps Drained (Bus.read address width)
  := by
  intro bus
  cases hroute : bus.route address width .read with
  | error fault =>
    rw [read_unrouted hroute]
    apply Drained.refl
  | ok target =>
    obtain ⟨value, hvalue⟩ := read_routed hroute
    rw [hvalue]
    apply Drained.afterRead

theorem bind_drained {ε α β : Type} {x : EStateM ε Bus α} {f : α → EStateM ε Bus β}
    (hx : Keeps Drained x) (hf : ∀ a, Keeps Drained (f a)) :
  Keeps Drained (x >>= f)
  := by
  apply Keeps.bind _ hx hf
  intro bus mid bus'
  apply Drained.trans

end Bus

/-- There is at most one store, or all stores are routed. -/
def Instruction.Checked (bus : Bus) (stores : List Store) : Prop :=
  stores.length ≤ 1
    ∨ ∃ start values, stores = wordStores start values ∧ bus.Routed start values.length

end ThumbSoc
