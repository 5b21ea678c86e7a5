import ThumbSoc.Proofs.Bus.Access
import ThumbSoc.Proofs.Transfer

/-!
# Transfers of several words

A burst reads or writes consecutive words. A rejected word ends it, and the words before it
have been transferred by then.

For reads this matters at one place only: a burst that reads the data register of a serial
port and goes on past the error register behind it loses a received byte, since nothing
answers there. For writes it never matters in a memory of permitted size: every word is routed
before the first one is written, and no register that takes no writes lies behind one that
does.
-/

namespace ThumbSoc.Bus

/-! ### Reads that lose a byte -/

/-- A burst of `count` words from `start` on gets to the data register of `port` while a byte
waits there, and goes on for at least two more words. -/
inductive Overruns (bus : Bus) (port : Fin 2) : Word → Nat → Prop where
  /-- The burst has got there. -/
  | here {rest : Nat}
      (reached : bus.route (serialBase.get port) .word .read = .ok (.serial port 0))
      (waiting : (bus.serial.get port).received ≠ []) :
      Overruns bus port (serialBase.get port) (rest + 3)
  /-- The burst gets there after a word that is read. -/
  | later {start : Word} {count : Nat} {target : Target}
      (routed : bus.route start .word .read = .ok target)
      (rest : Overruns bus port (start + 4) count) :
      Overruns bus port start (count + 1)

theorem discard_sram_size (bus : Bus) (port : Fin 2) :
  (bus.discard port).sram.size = bus.sram.size
  := rfl

/-- A word that is part of a data register is one. -/
theorem route_data {bus : Bus} {address : Word} {purpose : Purpose} {target : Target}
    {port : Fin 2} (h : bus.route address .word purpose = .ok target)
    (hdata : target.data? = some port) :
  address = serialBase.get port ∧ target = .serial port 0
  := by
  cases target with
  | sram offset => cases hdata
  | gpio offset => cases hdata
  | serial port' offset =>
    obtain ⟨haddress, hword, _⟩ := route_serial h
    simp only [Target.data?, hword] at hdata
    split at hdata
    · next hregister =>
      obtain rfl := Option.some.inj hdata
      have hzero : offset = 0 := by
        unfold Serial.register? at hregister
        split at hregister
        all_goals first | rfl | cases hregister
      subst hzero
      use haddress.trans (UInt32.add_zero _)
    · cases hdata

theorem errors_alignment (port : Fin 2) :
  checkAlignment (serialBase.get port + 4) .word = .ok ()
  := by
  match port with
  | 0 => rfl
  | 1 => rfl

theorem errors_rights (port : Fin 2) :
  checkRights (serialBase.get port + 4) .read = .ok ()
  := by
  match port with
  | 0 => rfl
  | 1 => rfl

theorem errors_device (port : Fin 2) :
  deviceAt? (serialBase.get port + 4) = some (.serial port 4)
  := by decide +revert

/-- Behind a data register that is reached, the error register can be read, also after the bus
has changed. -/
theorem route_errors {bus bus' : Bus} {port : Fin 2} {purpose : Purpose}
    (h : bus.route (serialBase.get port) .word purpose = .ok (.serial port 0))
    (hsize : bus'.sram.size = bus.sram.size) :
  bus'.route (serialBase.get port + 4) .word .read = .ok (.serial port 4)
  := by
  rw [route_congr hsize]
  obtain ⟨_, _, hnone⟩ := route_serial h
  have hout : sramOffset? (serialBase.get port + 4) Width.word.bytes bus.sram.size = none :=
    sramOffset?_none_of_le hnone (serialBase_ge port) (serialBase_le_add port).1
  simp only [route, bind, Except.bind, errors_alignment, errors_rights, errors_device, hout]

/-- A word that is read leaves the bus alone or takes a byte out of a data register. -/
theorem afterRead_eq_or_data {bus : Bus} {start : Word} {target : Target}
    (h : bus.route start .word .read = .ok target) :
  bus.afterRead target = bus
    ∨ ∃ port, start = serialBase.get port ∧ target = .serial port 0
      ∧ bus.afterRead target = bus.discard port
  := by
  cases hdata : target.data? with
  | none =>
    left
    simp only [afterRead, hdata]
  | some port =>
    obtain ⟨haddress, htarget⟩ := route_data h hdata
    right
    use port, haddress, htarget
    simp only [afterRead, hdata]

/-- A burst whose first word is routed goes on behind it. -/
theorem readWords_routed {bus : Bus} {start : Word} {target : Target} (count : Nat)
    (h : bus.route start .word .read = .ok target) :
  ∃ value, readWords start (count + 1) bus
    = match readWords (start + 4) count (bus.afterRead target) with
      | .ok values bus' => .ok (value :: values) bus'
      | .error fault bus' => .error fault bus'
  := by
  obtain ⟨value, hvalue⟩ := read_routed h
  use value
  rw [readWords, bind_of_ok _ hvalue]
  cases hrest : readWords (start + 4) count (bus.afterRead target) with
  | ok values bus' =>
    rw [bind_of_ok _ hrest]
    rfl
  | error fault bus' => rw [bind_of_error _ hrest]

/-- A burst whose first word is not routed is rejected at once. -/
theorem readWords_unrouted {bus : Bus} {start : Word} {fault : BusFault} (count : Nat)
    (h : bus.route start .word .read = .error fault) :
  readWords start (count + 1) bus = .error fault bus
  := by
  rw [readWords, bind_of_error _ (read_unrouted h)]

/-- From a data register at most two words can be read. -/
theorem readWords_data {bus : Bus} {port : Fin 2} (rest : Nat)
    (h : bus.route (serialBase.get port) .word .read = .ok (.serial port 0)) :
  ∃ fault, readWords (serialBase.get port) (rest + 3) bus = .error fault (bus.discard port)
  := by
  have hafter : bus.afterRead (.serial port 0) = bus.discard port := rfl
  have hroute : (bus.discard port).route = bus.route := route_congr rfl
  have hsame : (bus.discard port).afterRead (.serial port 4) = bus.discard port := rfl
  obtain ⟨value, hvalue⟩ := readWords_routed (rest + 2) h
  obtain ⟨value', hvalue'⟩ := readWords_routed (rest + 1)
    (route_errors h (discard_sram_size bus port))
  cases hnext : bus.route (serialBase.get port + 4 + 4) .word .read with
  | ok target => exact absurd hnext (route_data_succ_succ h)
  | error fault =>
    rw [← hroute] at hnext
    use fault
    rw [hvalue, hafter, hvalue', hsame, readWords_unrouted rest hnext]

/-- The first word of a burst that overruns a data register is read, and if it is not that
register, the rest of the burst overruns it. -/
theorem Overruns.first {bus : Bus} {port : Fin 2} {start : Word} {count : Nat}
    (h : bus.Overruns port start count) :
  (∃ target, bus.route start .word .read = .ok target)
    ∧ (start = serialBase.get port ∨ ∃ count', bus.Overruns port (start + 4) count')
  := by
  cases h with
  | here reached waiting =>
    apply And.intro ⟨_, reached⟩
    left
    rfl
  | later routed rest =>
    apply And.intro ⟨_, routed⟩
    right
    apply Exists.intro _ rest

theorem serialBase_succ_ne (port port' : Fin 2) :
  serialBase.get port + 4 ≠ serialBase.get port'
  := by decide +revert

/-- A burst that starts behind a data register does not get to another one. -/
theorem not_overruns_behind_data {bus : Bus} {port port' : Fin 2} {count : Nat}
    (h : bus.route (serialBase.get port) .word .read = .ok (.serial port 0)) :
  ¬ bus.Overruns port' (serialBase.get port + 4) count
  := by
  intro hover
  rcases hover.first.2 with heq | ⟨_, hnext⟩
  · apply serialBase_succ_ne port port' heq
  · obtain ⟨target, htarget⟩ := hnext.first.1
    apply route_data_succ_succ h htarget

/-- A burst that overruns a data register is rejected and loses the oldest received byte. -/
theorem Overruns.rejected {bus : Bus} {port : Fin 2} {start : Word} {count : Nat}
    (h : bus.Overruns port start count) :
  (∃ fault, readWords start count bus = .error fault (bus.discard port))
    ∧ bus.discard port ≠ bus
  := by
  induction h with
  | here reached waiting => apply And.intro (readWords_data _ reached) (discard_ne waiting)
  | later routed rest ih =>
    obtain ⟨⟨fault, hfault⟩, hne⟩ := ih
    rcases afterRead_eq_or_data routed with hsame | ⟨port', rfl, rfl, _⟩
    · obtain ⟨value, hvalue⟩ := readWords_routed _ routed
      rw [hsame, hfault] at hvalue
      constructor
      · use fault
      · apply hne
    · exact absurd rest (not_overruns_behind_data routed)

/-- A rejected burst leaves the bus alone, unless it overruns a data register. -/
theorem readWords_error {bus bus' : Bus} {start : Word} {count : Nat} {fault : BusFault}
    (h : readWords start count bus = .error fault bus') :
  bus' = bus ∨ ∃ port, bus.Overruns port start count ∧ bus' = bus.discard port
  := by
  induction count generalizing start bus with
  | zero => cases h
  | succ count ih =>
    cases hroute : bus.route start .word .read with
    | error fault' =>
      rw [readWords_unrouted count hroute] at h
      cases h
      left
      rfl
    | ok target =>
      obtain ⟨value, hvalue⟩ := readWords_routed count hroute
      have hrest : readWords (start + 4) count (bus.afterRead target) = .error fault bus' := by
        rw [hvalue] at h
        split at h
        · cases h
        · next hrest =>
          cases h
          apply hrest
      rcases afterRead_eq_or_data hroute with hsame | ⟨port, rfl, rfl, hdiscard⟩
      · rw [hsame] at hrest
        rcases ih hrest with rfl | ⟨port, hover, rfl⟩
        · left
          rfl
        · right
          use port, .later hroute hover
      · -- Up to two words from the data register on can be read, so the burst is longer.
        match count with
        | 0 => cases hrest
        | 1 =>
          obtain ⟨_, hlast⟩ :=
            readWords_routed 0 (route_errors hroute (discard_sram_size bus port))
          rw [hdiscard, hlast] at hrest
          cases hrest
        | rest + 2 =>
          obtain ⟨_, hlost⟩ := readWords_data rest hroute
          rw [hlost] at h
          cases h
          by_cases hwaiting : (bus.serial.get port).received = []
          · left
            apply discard_of_empty hwaiting
          · right
            use port, .here hroute hwaiting

/-! ### Reads that take a byte -/

theorem receive_lt (port : Serial) :
  port.receive.1.toNat < 256
  := by
  rw [Serial.receive]
  split
  · apply Nat.zero_lt_succ
  · next b _ _ =>
    rw [UInt8.toNat_toUInt32]
    apply b.toNat_lt

/-- A lane of a word below 256 is below 256. -/
theorem lane_lt {register : Word} (h : register.toNat < 256) (offset : Word) (width : Width) :
  (lane register offset width).toNat < 256
  := by
  have hshift : (register >>> (8 * (offset &&& 3))).toNat < 256 := by
    rw [UInt32.toNat_shiftRight]
    apply Nat.lt_of_le_of_lt (Nat.shiftRight_le _ _) h
  cases width with
  | word => apply hshift
  | byte | halfword =>
    apply Nat.lt_of_le_of_lt _ hshift
    rw [lane, Width.truncate, UInt32.toNat_and]
    apply Nat.and_le_left

/-- A read that takes a byte out of a receive queue yields no more than that byte. -/
theorem read_lt {bus bus' : Bus} {address value : Word} {width : Width}
    (h : Bus.read address width bus = .ok value bus') :
  bus' = bus ∨ value.toNat < 256
  := by
  obtain ⟨target, hroute, hafter⟩ := read_ok h
  cases hdata : target.data? with
  | none =>
    left
    rw [hafter, afterRead, hdata]
  | some port =>
    right
    cases target with
    | sram offset => cases hdata
    | gpio offset => cases hdata
    | serial port' offset =>
      have hregister : Serial.register? (registerOffset offset) = some .data := by
        simp only [Target.data?] at hdata
        split at hdata
        · next hregister => apply hregister
        · cases hdata
      simp only [Bus.read, hroute, readTarget, Serial.read, hregister] at h
      cases h
      apply lane_lt (receive_lt _)

/-- The error register reads as zero. -/
theorem read_errors {bus bus' : Bus} {port : Fin 2} {address value : Word}
    (h : Bus.read address .word bus = .ok value bus')
    (hroute : bus.route address .word .read = .ok (.serial port 4)) :
  value = 0
  := by
  simp only [Bus.read, hroute] at h
  cases h
  rfl

theorem readWords_ok {bus bus' : Bus} {start : Word} {count : Nat} {values : List Word}
    (h : readWords start (count + 1) bus = .ok values bus') :
  ∃ value rest mid, values = value :: rest ∧ Bus.read start .word bus = .ok value mid
    ∧ readWords (start + 4) count mid = .ok rest bus'
  := by
  obtain ⟨value, mid, hvalue, hrest⟩ := bind_eq_ok.mp h
  obtain ⟨rest, mid', hrest, hpure⟩ := bind_eq_ok.mp hrest
  cases hpure
  use value, rest, mid

/-- A burst yields as many words as it reads. -/
theorem readWords_length {bus bus' : Bus} {start : Word} {count : Nat} {values : List Word}
    (h : readWords start count bus = .ok values bus') :
  values.length = count
  := by
  induction count generalizing start bus values with
  | zero =>
    cases h
    rfl
  | succ count ih =>
    obtain ⟨value, rest, mid, rfl, _, hrest⟩ := readWords_ok h
    rw [List.length_cons, ih hrest]

/-- The last word of a burst that takes a byte out of a receive queue is below 256: it is that
byte, or it comes from the error register behind it. -/
theorem readWords_last {bus bus' : Bus} {start : Word} {count : Nat} {values : List Word}
    (h : readWords start count bus = .ok values bus') :
  bus' = bus ∨ ∃ last, values.getLast? = some last ∧ last.toNat < 256
  := by
  induction count generalizing start bus values with
  | zero =>
    cases h
    left
    rfl
  | succ count ih =>
    obtain ⟨value, rest, mid, rfl, hvalue, hrest⟩ := readWords_ok h
    obtain ⟨target, hroute, hmid⟩ := read_ok hvalue
    rcases afterRead_eq_or_data hroute with hsame | ⟨port, rfl, rfl, hdiscard⟩
    · rw [hmid, hsame] at hrest
      rcases ih hrest with rfl | ⟨last, hlast, hlt⟩
      · left
        rfl
      · right
        use last
        rw [List.getLast?_cons, hlast]
        apply And.intro rfl hlt
    · match count with
      | 0 =>
        cases hrest
        rcases read_lt hvalue with hsame | hlt
        · left
          apply hsame
        · right
          use value, rfl
      | 1 =>
        obtain ⟨value', rest', mid', rfl, hvalue', hnil⟩ := readWords_ok hrest
        cases hnil
        have hsize : mid.sram.size = bus.sram.size := by
          rw [hmid, afterRead_sram]
        right
        use value', rfl
        rw [read_errors hvalue' (route_errors hroute hsize)]
        decide
      | rest + 2 =>
        obtain ⟨_, hlost⟩ := readWords_data rest hroute
        rw [hlost] at h
        cases h

/-! ### Writes -/

/-- A burst of `count` words from `start` on gets to a register that takes no writes after a
word that is written. -/
inductive Tears (bus : Bus) : Word → Nat → Prop where
  /-- The first word is written and the second one is not. -/
  | here {start : Word} {count : Nat} {first second : Target}
      (routed : bus.route start .word .write = .ok first)
      (written : first.readOnly = false)
      (next : bus.route (start + 4) .word .write = .ok second)
      (refused : second.readOnly = true) :
      Tears bus start (count + 2)
  /-- A later part of the burst does. -/
  | later {start : Word} {count : Nat} (rest : Tears bus (start + 4) count) :
      Tears bus start (count + 1)

/-- Every word of a burst is routed for writing. -/
inductive Routed (bus : Bus) : Word → Nat → Prop where
  | nil {start : Word} : Routed bus start 0
  | cons {start : Word} {count : Nat} {target : Target}
      (first : bus.route start .word .write = .ok target)
      (rest : Routed bus (start + 4) count) :
      Routed bus start (count + 1)

theorem Routed.congr {bus bus' : Bus} (hsize : bus'.sram.size = bus.sram.size) {start : Word}
    {count : Nat} (h : bus.Routed start count) :
  bus'.Routed start count
  := by
  induction h with
  | nil => apply Routed.nil
  | cons first rest ih =>
    rw [← route_congr hsize] at first
    apply Routed.cons first ih

theorem Tears.congr {bus bus' : Bus} (hsize : bus'.sram.size = bus.sram.size) {start : Word}
    {count : Nat} (h : bus.Tears start count) :
  bus'.Tears start count
  := by
  induction h with
  | here routed written next refused =>
    rw [← route_congr hsize] at routed next
    apply Tears.here routed written next refused
  | later rest ih => apply Tears.later ih

/-- Probing words has no effect, and succeeds exactly if all of them are routed. -/
theorem probeWords_routed (bus : Bus) (start : Word) (count : Nat) :
  (bus.Routed start count ∧ probeWords start count bus = .ok () bus)
    ∨ (¬ bus.Routed start count ∧ ∃ fault, probeWords start count bus = .error fault bus)
  := by
  induction count generalizing start with
  | zero =>
    left
    apply And.intro .nil rfl
  | succ count ih =>
    simp only [probeWords, probe]
    cases hroute : bus.route start .word .write with
    | error fault =>
      right
      constructor
      · rintro (_ | ⟨first, _⟩)
        rw [hroute] at first
        cases first
      · use fault
        rfl
    | ok target =>
      rcases ih (start + 4) with ⟨hrouted, hprobe⟩ | ⟨hunrouted, hprobe⟩
      · left
        apply And.intro (.cons hroute hrouted) hprobe
      · right
        constructor
        · rintro (_ | ⟨_, rest⟩)
          apply hunrouted rest
        · apply hprobe

theorem probeWords_ok {bus bus' : Bus} {start : Word} {count : Nat} {u : Unit}
    (h : probeWords start count bus = .ok u bus') :
  bus' = bus ∧ bus.Routed start count
  := by
  rcases probeWords_routed bus start count with ⟨hrouted, hok⟩ | ⟨_, _, herror⟩
  · rw [hok] at h
    cases h
    apply And.intro rfl hrouted
  · rw [herror] at h
    cases h

theorem probeWords_error {bus bus' : Bus} {start : Word} {count : Nat} {fault : BusFault}
    (h : probeWords start count bus = .error fault bus') :
  bus' = bus ∧ ¬ bus.Routed start count
  := by
  rcases probeWords_routed bus start count with ⟨_, hok⟩ | ⟨hunrouted, _, herror⟩
  · rw [hok] at h
    cases h
  · rw [herror] at h
    cases h
    apply And.intro rfl hunrouted

/-- A burst of routed words is rejected by its first word, and then has no effect, or it
tears. -/
theorem writeWords_error {bus bus' : Bus} {start : Word} {values : List Word} {fault : BusFault}
    (hrouted : bus.Routed start values.length)
    (h : writeWords start values bus = .error fault bus') :
  (bus' = bus ∧ ∃ target, bus.route start .word .write = .ok target ∧ target.readOnly = true)
    ∨ bus.Tears start values.length
  := by
  induction values generalizing start bus with
  | nil => cases h
  | cons value values ih =>
    cases hrouted with
    | cons first rest =>
      rcases bind_eq_error.mp h with hfirst | ⟨_, mid, hfirst, hrest⟩
      · obtain ⟨hsame, hunrouted | hreadOnly⟩ := write_error hfirst
        · rw [first] at hunrouted
          cases hunrouted
        · left
          apply And.intro hsame hreadOnly
      · right
        obtain ⟨target, hroute, hwritten, hsize, _⟩ := write_ok hfirst
        rcases ih (rest.congr hsize) hrest with ⟨_, target', hroute', hreadOnly⟩ | htears
        · rw [route_congr hsize] at hroute'
          cases values with
          | nil => cases hrest
          | cons => apply Tears.here hroute hwritten hroute' hreadOnly
        · apply Tears.later (htears.congr hsize.symm)

/-- A store of several words is rejected before the first one, or all of them are routed. -/
theorem storeWords_eq (bus : Bus) (start : Word) (values : List Word) :
  (¬ bus.Routed start values.length ∧ ∃ fault, storeWords start values bus = .error fault bus)
    ∨ bus.Routed start values.length
      ∧ storeWords start values bus
        = match writeWords start values bus with
          | .ok _ bus' => .ok (start + 4 * UInt32.ofNat values.length) bus'
          | .error fault bus' => .error fault bus'
  := by
  rcases probeWords_routed bus start values.length with
    ⟨hrouted, hprobe⟩ | ⟨hunrouted, fault, hprobe⟩
  · right
    use hrouted
    rw [storeWords, bind_of_ok _ hprobe]
    cases hwrite : writeWords start values bus with
    | ok u bus' =>
      rw [bind_of_ok _ hwrite]
      rfl
    | error fault bus' => rw [bind_of_error _ hwrite]
  · left
    use hunrouted, fault
    apply bind_of_error _ hprobe

/-- Words that can be written are routed. -/
theorem writeWords_routed {bus bus' : Bus} {start : Word} {values : List Word} {u : Unit}
    (h : writeWords start values bus = .ok u bus') :
  bus.Routed start values.length
  := by
  induction values generalizing start bus with
  | nil => exact .nil
  | cons value values ih =>
    obtain ⟨_, mid, hwrite, hrest⟩ := bind_eq_ok.mp h
    obtain ⟨target, hroute, _, hsize, _⟩ := write_ok hwrite
    exact .cons hroute ((ih hrest).congr hsize.symm)

theorem storeWords_of_writeWords {bus bus' : Bus} {start : Word} {values : List Word} {u : Unit}
    (h : writeWords start values bus = .ok u bus') :
  storeWords start values bus = .ok (start + 4 * UInt32.ofNat values.length) bus'
  := by
  rcases storeWords_eq bus start values with ⟨hunrouted, _⟩ | ⟨_, hwrites⟩
  · exact absurd (writeWords_routed h) hunrouted
  · rw [hwrites, h]

/-- A rejected store of several words leaves the bus alone, unless it tears. -/
theorem storeWords_error {bus bus' : Bus} {start : Word} {values : List Word} {fault : BusFault}
    (h : storeWords start values bus = .error fault bus') :
  (bus' = bus ∧ (¬ bus.Routed start values.length
      ∨ ∃ target, bus.route start .word .write = .ok target ∧ target.readOnly = true))
    ∨ bus.Tears start values.length
  := by
  rcases storeWords_eq bus start values with ⟨hunrouted, fault', hfault⟩ | ⟨hrouted, hwrites⟩
  · rw [hfault] at h
    cases h
    left
    apply And.intro rfl (Or.inl hunrouted)
  · rw [hwrites] at h
    split at h
    · cases h
    · next hwrite =>
      cases h
      rcases writeWords_error hrouted hwrite with ⟨hsame, hreadOnly⟩ | htears
      · left
        apply And.intro hsame (Or.inr hreadOnly)
      · right
        apply htears

/-- A register that takes no writes lies outside memory. -/
theorem route_readOnly {bus : Bus} {address : Word} {purpose : Purpose} {target : Target}
    (h : bus.route address .word purpose = .ok target) (hreadOnly : target.readOnly = true) :
  (address, target) ∈ deviceWords ∧ sramOffset? address 4 bus.sram.size = none
  := by
  obtain ⟨halign, ⟨_, rfl, _⟩ | ⟨hnone, hdevice⟩⟩ := route_ok h
  · cases hreadOnly
  · apply And.intro (deviceAt?_word hdevice halign) hnone

theorem deviceWords_readOnly_pred :
  ∀ second ∈ deviceWords, second.2.readOnly = true →
    sramBase.toNat + sramWindow < second.1.toNat
      ∧ ∀ first ∈ deviceWords, first.1 + 4 = second.1 → first.2.readOnly = true
  := by decide

/-- A burst can tear only in a memory that is larger than its window. -/
theorem Tears.size {bus : Bus} {start : Word} {count : Nat} (h : bus.Tears start count) :
  sramWindow < bus.sram.size
  := by
  induction h with
  | later rest ih => apply ih
  | @here start count first second routed written next refused =>
    obtain ⟨hsecond, _⟩ := route_readOnly next refused
    obtain ⟨habove, hpred⟩ := deviceWords_readOnly_pred _ hsecond refused
    obtain ⟨halign, ⟨offset, _, hoffset⟩ | ⟨_, hdevice⟩⟩ := route_ok routed
    · obtain ⟨_, hspan, _⟩ := sramOffset?_some hoffset
      have hnext : (start + 4).toNat ≤ start.toNat + 4 := by
        rw [UInt32.toNat_add]
        apply Nat.mod_le
      simp only [Width.bytes] at hspan habove
      omega
    · have hfirst := deviceAt?_word hdevice halign
      rw [hpred _ hfirst rfl] at written
      cases written

theorem Routed.get {bus : Bus} {start : Word} {count : Nat} (h : bus.Routed start count) {k : Nat}
    (hk : k < count) :
  ∃ target, bus.route (start + 4 * UInt32.ofNat k) .word .write = .ok target
  := by
  induction h generalizing k with
  | nil => cases hk
  | @cons start count target first rest ih =>
    cases k with
    | zero =>
      use target
      have hzero : start + 4 * UInt32.ofNat 0 = start := UInt32.add_zero start
      rw [hzero, first]
    | succ k =>
      obtain ⟨target, htarget⟩ := ih (Nat.lt_of_succ_lt_succ hk)
      have hnext : start + 4 + 4 * UInt32.ofNat k = start + 4 * UInt32.ofNat (k + 1) := by
        rw [UInt32.ofNat_add, UInt32.mul_add, UInt32.add_assoc, UInt32.add_comm 4]
        rfl
      rw [hnext] at htarget
      use target

/-- Within three words of a register that takes no writes there is no register. -/
theorem deviceWords_readOnly_gap :
  ∀ first ∈ deviceWords, first.2.readOnly = true → ∃ k < 4,
    sramBase.toNat ≤ first.1.toNat ∧ first.1.toNat ≤ (first.1 + 4 * UInt32.ofNat k).toNat
      ∧ ∀ later ∈ deviceWords, later.1 ≠ first.1 + 4 * UInt32.ofNat k
  := by decide

/-- The first of four routed words is written. -/
theorem Routed.first_written {bus : Bus} {start : Word} {rest : Nat} {target : Target}
    (h : bus.Routed start (rest + 4)) (hroute : bus.route start .word .write = .ok target) :
  target.readOnly = false
  := by
  cases hreadOnly : target.readOnly with
  | false => rfl
  | true =>
    obtain ⟨hmem, hnone⟩ := route_readOnly hroute hreadOnly
    obtain ⟨k, hk, hbase, hle, hgap⟩ := deviceWords_readOnly_gap _ hmem hreadOnly
    obtain ⟨target', htarget'⟩ := h.get (Nat.lt_of_lt_of_le hk (Nat.le_add_left 4 rest))
    obtain ⟨halign, ⟨_, _, hsome⟩ | ⟨_, hdevice⟩⟩ := route_ok htarget'
    · rw [Width.bytes, sramOffset?_none_of_le hnone hbase hle] at hsome
      cases hsome
    · exact absurd rfl (hgap _ (deviceAt?_word hdevice halign))

end ThumbSoc.Bus
