import ThumbSoc.Proofs.Bus.Access
import ThumbSoc.Proofs.Encoding.Formats
import ThumbSoc.Proofs.Invariants.Bus

/-!
# The queues of a serial port

Whatever host and program do to a serial port, its queues lose, repeat and reorder nothing. What
has gone into a queue since the reset is what has come out of it followed by what is still in it.
One call keeps this balance, and so does a history of them, by one induction for both queues.

A byte goes into the transmit queue only if there is room when the program writes it, and a read
of the empty receive queue takes nothing out.
-/

namespace ThumbSoc.Serial

open Word (bit)

/-- What a host or a program can do to a port. -/
inductive Call where
  | hostWrite (data : List UInt8)
  | hostRead (count : Nat)
  | read (offset : Word)
  | write (offset value : Word)
  deriving DecidableEq, Repr

variable (port : Serial)

/-- The port after a call. A rejected access has no effect. -/
def after : Call → Serial
  | .hostWrite data => (port.hostWrite data).2
  | .hostRead count => (port.hostRead count).2
  | .read offset =>
    match port.read offset with
    | .ok (_, after) => after
    | .error _ => port
  | .write offset value =>
    match port.write offset value with
    | .ok after => after
    | .error _ => port

/-- The port after calls, one after the other. -/
def afterAll (calls : List Call) : Serial :=
  calls.foldl after port

/-! ### What a call moves -/

/-- The bytes that the port accepts from the host. -/
def accepted : Call → List UInt8
  | .hostWrite data => data.take (port.hostWrite data).1
  | _ => []

/-- What a read of the data register answers while there are received bytes. -/
def answered : Call → List Word
  | .read offset =>
    match port.read offset with
    | .ok (value, _) =>
      if register? offset = some .data ∧ port.received ≠ [] then [value] else []
    | .error _ => []
  | _ => []

/-- The low byte that the program writes to the data register while there is room for it. -/
def queued : Call → List UInt8
  | .write offset value =>
    if register? offset = some .data ∧ port.transmitted.length < depth then [value.toUInt8] else []
  | _ => []

/-- The bytes that the port hands to the host. -/
def drained : Call → List UInt8
  | .hostRead count => (port.hostRead count).1
  | _ => []

/-- What the calls of a history move, one after the other. -/
def along {α : Type} (moves : Serial → Call → List α) : Serial → List Call → List α
  | _, [] => []
  | port, call :: rest => moves port call ++ along moves (port.after call) rest

/-! ### The balance of a queue -/

variable {port}

theorem map_along {α β : Type} (f : α → β) (moves : Serial → Call → List α) (port : Serial)
    (calls : List Call) :
  (along moves port calls).map f = along (fun port call => (moves port call).map f) port calls
  := by
  induction calls generalizing port with
  | nil => rfl
  | cons call rest ih => rw [along, along, List.map_append, ih]

/-- If every call keeps the balance of a queue, between what goes in, what comes out and what the
queue holds, then every history does. -/
theorem balance {α : Type} {holds : Serial → List α} {enters leaves : Serial → Call → List α}
    (h : ∀ port call, holds port ++ enters port call = leaves port call ++ holds (port.after call))
    (port : Serial) (calls : List Call) :
  holds port ++ along enters port calls = along leaves port calls ++ holds (port.afterAll calls)
  := by
  induction calls generalizing port with
  | nil => simp only [along, afterAll, List.append_nil, List.foldl_nil, List.nil_append]
  | cons call rest ih =>
    rw [along, along, ← List.append_assoc, h, List.append_assoc, ih, List.append_assoc]
    rfl

/-- An access changes the queues only at the data register. A read takes out the oldest received
byte, and a write may add one to transmit. -/
theorem after_read (port : Serial) (offset : Word) :
  port.after (.read offset)
    = if register? offset = some .data then { port with received := port.received.tail } else port
  := by
  rw [after]
  cases hregister : register? offset with
  | none => simp only [read, hregister, reduceCtorEq, if_false]
  | some register =>
    obtain ⟨value, hvalue⟩ := port.read_register hregister
    simp only [hvalue, Option.some.injEq]

theorem after_write (port : Serial) (offset value : Word) :
  (port.after (.write offset value)).received = port.received
    ∧ (port.after (.write offset value)).transmitted
      = (if register? offset = some .data then port.transmit value.toUInt8 else port).transmitted
  := by
  rw [after]
  cases hregister : register? offset with
  | none => simp only [write, hregister, reduceCtorEq, if_false, and_self]
  | some register =>
    have hwrite := port.write_register value hregister
    cases hreadOnly : register.readOnly with
    | true =>
      rw [if_pos hreadOnly] at hwrite
      have hdata : register ≠ .data := by
        rintro rfl
        cases hreadOnly
      simp only [hwrite, Option.some.injEq, if_neg hdata, and_self]
    | false =>
      rw [hreadOnly] at hwrite
      obtain ⟨after, hafter, hqueues⟩ := hwrite
      simp only [hafter, Option.some.injEq]
      exact hqueues

theorem accepted_hostWrite (port : Serial) (data : List UInt8) :
  port.accepted (.hostWrite data) = data.take (depth - port.received.length)
  := by
  rw [accepted, hostWrite, List.length_take, List.take_eq_take_iff]
  omega

/-- Received bytes come in from the host and go out to the program. -/
theorem received_balance (port : Serial) (call : Call) :
  port.received.map UInt8.toUInt32 ++ (port.accepted call).map UInt8.toUInt32
    = port.answered call ++ (port.after call).received.map UInt8.toUInt32
  := by
  cases call with
  | hostWrite data =>
    rw [accepted_hostWrite, ← List.map_append]
    rfl
  | hostRead count =>
    simp only [accepted, answered, after, hostRead, List.map_nil, List.append_nil, List.nil_append]
  | write offset value =>
    simp only [accepted, answered, after_write, List.map_nil, List.append_nil, List.nil_append]
  | read offset =>
    rw [after_read]
    simp only [accepted, answered, List.map_nil, List.append_nil]
    by_cases hdata : register? offset = some .data
    · have hread : port.read offset = .ok port.receive := by rw [read, hdata]
      simp only [hread, hdata, true_and, if_true, receive]
      cases hreceived : port.received with
      | nil => rfl
      | cons b rest => rfl
    · simp only [hdata, false_and, if_false]
      split <;> rfl

/-- Bytes to transmit come in from the program and go out to the host. -/
theorem transmitted_balance (port : Serial) (call : Call) :
  port.transmitted ++ port.queued call = port.drained call ++ (port.after call).transmitted
  := by
  cases call with
  | hostWrite data => simp only [queued, drained, after, hostWrite, List.append_nil, List.nil_append]
  | hostRead count =>
    simp only [queued, drained, after, hostRead, List.append_nil, List.take_append_drop]
  | read offset =>
    rw [after_read]
    simp only [queued, drained, List.append_nil, List.nil_append]
    split <;> rfl
  | write offset value =>
    rw [(port.after_write offset value).2]
    simp only [queued, drained, List.nil_append, transmit]
    by_cases hdata : register? offset = some .data
    · by_cases hroom : port.transmitted.length < depth
      · simp only [hdata, hroom, and_self, if_true]
      · simp only [hdata, hroom, and_false, if_true, if_false, List.append_nil]
    · simp only [hdata, false_and, if_false, List.append_nil]

/-- A history keeps both queues within their capacity. -/
theorem Sound.after (h : port.Sound) (call : Call) :
  (port.after call).Sound
  := by
  cases call with
  | hostWrite data => exact h.hostWrite data
  | hostRead count => exact h.hostRead count
  | read offset =>
    rw [after_read]
    split
    · have htail := h.taken 1
      rwa [List.drop_one] at htail
    · exact h
  | write offset value =>
    rw [Serial.after]
    split
    · next hwrite => exact h.write hwrite
    · exact h

theorem Sound.afterAll (h : port.Sound) (calls : List Call) :
  (port.afterAll calls).Sound
  := by
  induction calls generalizing port with
  | nil => exact h
  | cons call rest ih => exact ih (h.after call)

/-! ### The registers -/

/-- What bit `i` of the flag register says about the queues. -/
def flag (port : Serial) (i : Nat) : Bool :=
  match i with
  | 3 => port.transmitted.length ≠ 0
  | 4 => port.received.length = 0
  | 5 => port.transmitted.length = depth
  | 6 => port.received.length = depth
  | 7 => port.transmitted.length = 0
  | _ => false

/-- Each of the flags has a bit of its own. -/
theorem bit_flags (txEmpty txFull rxEmpty rxFull : Bool) (i : Nat) :
  bit ((if txEmpty then 0x80 else 0x08) ||| (if txFull then 0x20 else 0)
      ||| (if rxEmpty then 0x10 else 0) ||| (if rxFull then 0x40 else 0)) i
    = match i with
      | 3 => !txEmpty
      | 4 => rxEmpty
      | 5 => txFull
      | 6 => rxFull
      | 7 => txEmpty
      | _ => false
  := by
  rcases Nat.lt_or_ge i 32 with hi | hi
  · decide +revert
  · rw [Word.bit_of_le _ hi]
    split
    case h_6 => rfl
    all_goals omega

theorem bit_status (port : Serial) (i : Nat) :
  bit port.status i = port.flag i
  := by
  have hempty (queue : List UInt8) : queue.isEmpty = decide (queue.length = 0) := by
    cases queue <;> rfl
  have hbits := bit_flags (port.transmitted.length = 0) (port.transmitted.length = depth)
    (port.received.length = 0) (port.received.length = depth) i
  simp only [decide_eq_true_eq] at hbits
  simp only [status, hempty, decide_eq_true_eq, hbits, flag, decide_not]

/-- A register is missing exactly where the port says so. -/
theorem hasRegister_iff (port : Serial) (offset value : Word) :
  (hasRegister offset = true ↔ port.read offset ≠ .error .noRegister)
    ∧ (hasRegister offset = true ↔ port.write offset value ≠ .error .noRegister)
  := by
  rw [hasRegister]
  cases hregister : register? offset with
  | none =>
    have hread : port.read offset = .error .noRegister := by rw [read, hregister]
    have hwrite : port.write offset value = .error .noRegister := by rw [write, hregister]
    simp [hread, hwrite]
  | some register =>
    obtain ⟨_, hread⟩ := port.read_register hregister
    have hwrite := port.write_register value hregister
    cases hreadOnly : register.readOnly with
    | true =>
      rw [if_pos hreadOnly] at hwrite
      simp [hread, hwrite]
    | false =>
      rw [hreadOnly] at hwrite
      obtain ⟨_, hwrite, _⟩ := hwrite
      simp [hread, hwrite]

/-! ### A history from the reset on -/

/-- **The queues of a serial port lose, repeat and reorder nothing.** After any history from the
reset on, the bytes that were accepted from the host are those that reads of the data register have
answered while there were any, followed by those that still wait; and the low bytes that the program
wrote to the data register while there was room are those that were handed to the host, followed by
those that still wait. Neither queue holds more than its capacity, and the host is accepted as many
bytes as there is room for. The flag register shows the lengths of the queues, an access to any
register but the data register changes neither of them, and the port has a register exactly where
accesses do not find it missing. -/
theorem afterAll_conserves (calls : List Call) :
  let port := initial.afterAll calls
  (along accepted initial calls).map UInt8.toUInt32
      = along answered initial calls ++ port.received.map UInt8.toUInt32
    ∧ along queued initial calls = along drained initial calls ++ port.transmitted
    ∧ port.received.length ≤ depth
    ∧ port.transmitted.length ≤ depth
    ∧ (∀ data, (port.hostWrite data).1 = min data.length (depth - port.received.length))
    ∧ (∀ offset, register? offset = some .status →
      ∃ value, port.read offset = .ok (value, port) ∧ ∀ i, bit value i = port.flag i)
    ∧ (∀ offset value, register? offset ≠ some .data →
      ∀ call ∈ [.read offset, .write offset value],
        (port.after call).received = port.received
          ∧ (port.after call).transmitted = port.transmitted)
    ∧ ∀ offset value,
      (hasRegister offset = true ↔ port.read offset ≠ .error .noRegister)
        ∧ (hasRegister offset = true ↔ port.write offset value ≠ .error .noRegister)
  := by
  intro port
  have hsound : port.Sound := Sound.initial.afterAll calls
  refine ⟨?_, ?_, hsound.received, hsound.transmitted, ?_, ?_, ?_, port.hasRegister_iff⟩
  · have hbalance := balance received_balance initial calls
    rw [map_along]
    exact hbalance
  · exact balance transmitted_balance initial calls
  · intro data
    rw [hostWrite, List.length_take, Nat.min_comm]
  · intro offset hstatus
    have hread : port.read offset = .ok (port.status, port) := by rw [read, hstatus]
    exact ⟨_, hread, port.bit_status⟩
  · intro offset value hother
    rw [List.forall_mem_cons, List.forall_mem_singleton]
    constructor
    · rw [after_read, if_neg hother]
      exact ⟨rfl, rfl⟩
    · have hwrite := port.after_write offset value
      rwa [if_neg hother] at hwrite

/-- The third read finds nothing, and of a written word only the low byte counts. -/
example :
    let calls : List Call := [.hostWrite [0x41, 0x42], .read 0, .write 0 0x158, .read 0, .read 0,
      .hostRead 8, .write 0 0x58]
    along answered initial calls = [0x41, 0x42] ∧ along drained initial calls = [0x58]
      ∧ (initial.afterAll calls).transmitted = [0x58] := by
  decide

end ThumbSoc.Serial
