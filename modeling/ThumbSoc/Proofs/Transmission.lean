import ThumbSoc.Proofs.Loads

/-!
# What a program sends

What a program sends over a serial port is read off its stores: it is the low bytes of the values
that are stored to the data register. An instruction sends at most one byte, since the data register
is followed by a register that sends nothing and then by no register at all. One that fails has
sent nothing.
-/

namespace ThumbSoc

namespace Bus

/-- The byte that a store sends over a serial port: one to its data register sends the low byte
of the value. -/
def sends (bus : Bus) (port : Fin 2) (s : Store) : Option UInt8 :=
  match bus.route s.address s.width .write with
  | .ok target => if target.data? = some port then some s.value.toUInt8 else none
  | .error _ => none

theorem sends_routed {bus : Bus} {s : Store} {target : Target}
    (h : bus.route s.address s.width .write = .ok target) (port : Fin 2) :
  bus.sends port s = if target.data? = some port then some s.value.toUInt8 else none
  := by rw [Bus.sends, h]

theorem sends_congr {bus bus' : Bus} (h : bus'.sram.size = bus.sram.size) :
  bus'.sends = bus.sends
  := by
  funext port s
  rw [sends, sends, route_congr h]

theorem Drained.sends {bus mid : Bus} (h : bus.Drained mid) :
  mid.sends = bus.sends
  := sends_congr (congrArg Sram.size h.sram)

theorem Drained.transmitted {bus mid : Bus} (h : bus.Drained mid) (port : Fin 2) :
  (mid.serial.get port).transmitted = (bus.serial.get port).transmitted
  := by
  obtain ⟨taken, hserial⟩ := h.serial port
  rw [hserial]

/-- A store queues the byte that it sends, if there is room for it. -/
theorem write_transmitted {bus bus' : Bus} {s : Store} {u : Unit} {port : Fin 2}
    (h : Bus.write s.address s.width s.value bus = .ok u bus')
    (hroom : (bus.serial.get port).transmitted.length + (bus.sends port s).toList.length
      ≤ Serial.depth) :
  (bus'.serial.get port).transmitted
      = (bus.serial.get port).transmitted ++ (bus.sends port s).toList
    ∧ bus'.sram.size = bus.sram.size
  := by
  obtain ⟨target, hroute, _, hsize, hserial⟩ := write_ok h
  have hsends := sends_routed hroute port
  rw [(hserial port).2]
  rw [hsends] at hroom ⊢
  apply And.intro _ hsize
  by_cases hdata : target.data? = some port
  · rw [if_pos hdata] at hroom ⊢
    rw [if_pos hdata, Serial.transmit, if_pos (Nat.lt_of_succ_le hroom)]
    rfl
  · rw [if_neg hdata, if_neg hdata]
    simp

/-- Stores queue the bytes that they send in order, if there is room for all of them. -/
theorem performStores_transmitted {bus bus' : Bus} {stores : List Store} {u : Unit}
    {port : Fin 2} (h : performStores stores bus = .ok u bus')
    (hroom : (bus.serial.get port).transmitted.length + (stores.filterMap (bus.sends port)).length
      ≤ Serial.depth) :
  (bus'.serial.get port).transmitted
    = (bus.serial.get port).transmitted ++ stores.filterMap (bus.sends port)
  := by
  induction stores generalizing bus with
  | nil =>
    cases h
    simp
  | cons s rest ih =>
    obtain ⟨_, mid, hwrite, hrest⟩ := bind_eq_ok.mp h
    have hsplit : (s :: rest).filterMap (bus.sends port)
        = (bus.sends port s).toList ++ rest.filterMap (bus.sends port) := by
      rw [List.filterMap_cons]
      cases bus.sends port s <;> rfl
    rw [hsplit, List.length_append] at hroom
    have hroomFirst : (bus.serial.get port).transmitted.length
        + (bus.sends port s).toList.length ≤ Serial.depth := by omega
    obtain ⟨hfirst, hsize⟩ := write_transmitted hwrite hroomFirst
    have hsends := sends_congr hsize
    rw [ih hrest, hfirst, hsplit, hsends, List.append_assoc]
    rw [hfirst, hsends, List.length_append]
    omega

/-- The error register behind a data register sends nothing. -/
theorem sends_errors {bus : Bus} {port : Fin 2} {value : Word}
    (h : bus.route (serialBase.get port) .word .write = .ok (.serial port 0)) :
  bus.sends port ⟨serialBase.get port + 4, .word, value⟩ = none
  := by
  rw [Bus.sends]
  split
  · next target htarget =>
    obtain rfl := route_data_succ h htarget
    rfl
  · rfl

/-- Consecutive words that are written send at most one byte. -/
theorem wordStores_sends_length {bus bus' : Bus} {start : Word} {values : List Word} {u : Unit}
    (port : Fin 2) (h : writeWords start values bus = .ok u bus') :
  ((wordStores start values).filterMap (bus.sends port)).length ≤ 1
  := by
  induction values generalizing start bus with
  | nil => apply Nat.zero_le
  | cons value values ih =>
    obtain ⟨_, mid, hwrite, hrest⟩ := bind_eq_ok.mp h
    obtain ⟨target, hroute, _, hsize, _⟩ := write_ok hwrite
    have hcongr := sends_congr hsize
    have htail := ih hrest
    rw [hcongr] at htail
    rw [wordStores, List.filterMap_cons, sends_routed hroute]
    by_cases hdata : target.data? = some port
    · -- Behind the data register only the error register can be written.
      obtain ⟨rfl, rfl⟩ := route_data hroute hdata
      rw [if_pos hdata]
      rcases values with _ | ⟨second, _ | ⟨third, _⟩⟩
      · apply Nat.le_refl
      · simp only [wordStores, List.filterMap_cons, sends_errors hroute]
        apply Nat.le_refl
      · obtain ⟨_, mid', hsecond, hrest'⟩ := bind_eq_ok.mp hrest
        obtain ⟨_, _, hthird, _⟩ := bind_eq_ok.mp hrest'
        obtain ⟨_, _, _, hsize', _⟩ := write_ok hsecond
        obtain ⟨target', htarget', _⟩ := write_ok hthird
        rw [route_congr (hsize'.trans hsize)] at htarget'
        exact absurd htarget' (route_data_succ_succ hroute)
    · rw [if_neg hdata]
      apply htail

/-- A rejected store of several routed words has sent nothing. -/
theorem writeWords_error_transmitted {bus bus' : Bus} {start : Word} {values : List Word}
    {fault : BusFault} (port : Fin 2) (hrouted : bus.Routed start values.length)
    (h : writeWords start values bus = .error fault bus') :
  (bus'.serial.get port).transmitted = (bus.serial.get port).transmitted
  := by
  induction values generalizing start bus with
  | nil => cases h
  | cons value values ih =>
    rcases bind_eq_error.mp h with hfirst | ⟨_, mid, hwrite, hrest⟩
    · rw [(write_error hfirst).1]
    · obtain ⟨target, hroute, _, hsize, hserial⟩ := write_ok hwrite
      cases hrouted with
      | cons first rest =>
        have hrest' := ih (rest.congr hsize) hrest
        rw [hrest', (hserial port).2]
        by_cases hdata : target.data? = some port
        · -- Behind the data register only the error register is routed, and it takes writes.
          obtain ⟨rfl, rfl⟩ := route_data hroute hdata
          match values, rest with
          | [], _ => cases hrest
          | [_], .cons second _ =>
            obtain rfl := route_data_succ hroute second
            rw [← route_congr hsize] at second
            rcases bind_eq_error.mp hrest with hsecond | ⟨_, _, _, hpure⟩
            · rcases (write_error hsecond).2 with hunrouted | ⟨target, htarget, hreadOnly⟩
              · rw [second] at hunrouted
                cases hunrouted
              · rw [second] at htarget
                cases htarget
                cases hreadOnly
            · cases hpure
          | _ :: _ :: _, .cons _ (.cons third _) =>
            exact absurd third (route_data_succ_succ hroute)
        · rw [if_neg hdata]

end Bus

namespace Instruction

variable {i : Instruction} {core : ThumbCore} {pc : Word} {bus bus' : Bus}

/-- The bytes that an instruction at `pc` sends over a serial port when it is executed. -/
def sent (i : Instruction) (core : ThumbCore) (pc : Word) (bus : Bus) (port : Fin 2) :
    List UInt8 :=
  (i.stores core pc).filterMap (bus.sends port)

theorem stores_cases (i : Instruction) (core : ThumbCore) (pc : Word) :
  (i.stores core pc).length ≤ 1 ∨ ∃ start values, i.stores core pc = wordStores start values
  := by
  rw [stores]
  split
  · left
    apply Nat.le_refl
  · split
    · next start values _ =>
      right
      use start, values
    · left
      apply Nat.zero_le

/-- An executed instruction queues the bytes that it sends, of which there is at most one, if
there is room. -/
theorem execute_ok_transmitted {effects : Effects} (port : Fin 2)
    (h : i.execute core pc bus = .ok effects bus') :
  (i.sent core pc bus port).length ≤ 1
    ∧ ((bus.serial.get port).transmitted.length + (i.sent core pc bus port).length
        ≤ Serial.depth →
      (bus'.serial.get port).transmitted
        = (bus.serial.get port).transmitted ++ i.sent core pc bus port)
  := by
  obtain ⟨mid, hdrained, hperform⟩ := execute_stores h
  constructor
  · rcases i.stores_cases core pc with hshort | ⟨start, values, hwords⟩
    · apply Nat.le_trans (List.length_filterMap_le _ _) hshort
    · rw [hwords, Bus.performStores_words] at hperform
      rw [sent, hwords, ← hdrained.sends]
      apply Bus.wordStores_sends_length port hperform
  · intro hroom
    rw [← hdrained.transmitted port, sent, ← hdrained.sends] at hroom ⊢
    apply Bus.performStores_transmitted hperform hroom

/-- A faulting instruction has sent nothing. -/
theorem execute_error_transmitted {fault : CoreFault} (port : Fin 2)
    (h : i.execute core pc bus = .error fault bus') :
  (bus'.serial.get port).transmitted = (bus.serial.get port).transmitted
  := by
  have hloads := Bus.performLoads_drained (i.loads core pc bus) bus
  obtain ⟨reads, haccesses⟩ := i.execute_found core pc bus
  rw [h] at haccesses
  cases haccesses with
  | undefined => rfl
  | refused => rfl
  | rejected rejected =>
    rw [rejected] at hloads
    exact hloads.transmitted port
  | @torn _ mid _ _ loaded checked rejected =>
    rw [loaded] at hloads
    have hdrained : bus.Drained mid := hloads
    rw [← hdrained.transmitted port]
    rcases checked with hshort | ⟨start, values, hwords, hrouted⟩
    · match hstores : i.stores core pc with
      | [] =>
        rw [hstores] at rejected
        cases rejected
      | [s] =>
        rw [hstores] at rejected
        rcases bind_eq_error.mp rejected with hwrite | ⟨_, _, _, hpure⟩
        · rw [(Bus.write_error hwrite).1]
        · cases hpure
      | _ :: _ :: _ =>
        rw [hstores, List.length_cons, List.length_cons] at hshort
        omega
    · rw [hwords, Bus.performStores_words] at rejected
      apply Bus.writeWords_error_transmitted port hrouted rejected

end Instruction

end ThumbSoc
