import ThumbSoc.Proofs.Machine.History

/-!
# What a request can change

A request of the host that steps no core changes the parts of the machine that the cores share,
or one core and the bus. Resume and reset apart, `perform_requested` says so for all of them at
once; what every request keeps is read off the two cases.
-/

namespace ThumbSoc

/-- The core that an operation is about, the first one if it is about none in particular. -/
def Operation.target : Operation → Nat
  | .stepCore index | .launch index .. | .wake index | .getRegister index .. => index
  | .setRegister index .. => index
  | _ => 0

namespace Machine

/-- What a request about core `index` can make of a machine. -/
inductive Requested (machine : Machine) (index : Nat) : Machine → Prop where
  | shared (tracing : Bool) (bus : Bus) (breakpoints : Breakpoints) (halted : Bool)
      (recorder : Option (Array Event)) :
      Requested machine index
        { machine with
          config := { machine.config with tracing }
          bus
          breakpoints
          halted
          recorder }
  | core (change : Slot → Slot) (bus : Bus) (recorder : Option (Array Event))
      (armed : ∀ slot, (change slot).armed = slot.armed) :
      Requested machine index
        { machine with slots := machine.slots.modify index change, bus, recorder }

namespace Requested

variable {machine after : Machine} {index : Nat}

theorem refl (machine : Machine) (index : Nat) :
  machine.Requested index machine
  := .shared machine.config.tracing machine.bus machine.breakpoints machine.halted
    machine.recorder

/-- A request that changes the bus. -/
theorem onBus (machine : Machine) (index : Nat) (bus : Bus) :
  machine.Requested index { machine with bus }
  := .shared machine.config.tracing bus machine.breakpoints machine.halted machine.recorder

theorem loadBytes {address : Word} {data : List UInt8}
    (h : machine.loadBytes address data = .ok after) :
  ∃ bus, after = { machine with bus }
  := by
  rw [Machine.loadBytes] at h
  split at h
  · next bus _ =>
    cases h
    use bus
  · cases h

theorem loadSegments {segments : List Segment}
    (h : segments.foldlM (fun s segment => s.loadBytes segment.address segment.data) machine
      = .ok after) :
  ∃ bus, after = { machine with bus }
  := by
  induction segments generalizing machine with
  | nil =>
    cases h
    use after.bus
  | cons segment rest ih =>
    rw [List.foldlM_cons] at h
    cases hfirst : machine.loadBytes segment.address segment.data with
    | error e =>
      rw [hfirst] at h
      cases h
    | ok mid =>
      rw [hfirst] at h
      obtain ⟨bus, rfl⟩ := ih h
      obtain ⟨bus', rfl⟩ := loadBytes hfirst
      use bus

theorem loadImage {image : Image} (h : machine.loadImage image = .ok after) :
  machine.Requested 0 after
  := by
  rw [Machine.loadImage] at h
  split at h
  · cases h
  · cases hsegments : image.segments.foldlM
        (fun s segment => s.loadBytes segment.address segment.data) machine with
    | error e =>
      rw [hsegments] at h
      cases h
    | ok mid =>
      rw [hsegments] at h
      cases h
      obtain ⟨bus, rfl⟩ := loadSegments hsegments
      exact .core _ bus machine.recorder fun _ => rfl

/-- A request that changes the run state of a core. -/
theorem setState (machine : Machine) (index : Nat) (state : RunState) :
  machine.Requested index (machine.setState index state)
  := by
  rw [setState_eq]
  exact .core _ machine.bus _ fun _ => rfl

theorem launch {pc sp : Word} (h : machine.launch index pc sp = .ok after) :
  machine.Requested index after
  := by
  rw [Machine.launch] at h
  cases hslot : machine.slot index with
  | error e =>
    rw [hslot] at h
    cases h
  | ok slot =>
    rw [hslot] at h
    cases h
    rw [setState_eq]
    simp only [modifySlot, modify_modify]
    exact .core _ machine.bus _ fun _ => rfl

theorem wake (h : machine.wake index = .ok after) :
  machine.Requested index after
  := by
  rw [Machine.wake] at h
  cases hslot : machine.slot index with
  | error e =>
    rw [hslot] at h
    cases h
  | ok slot =>
    rw [hslot] at h
    cases h
    split
    · apply setState
    · apply refl

theorem addBreakpoint {address : Word} (h : machine.addBreakpoint address = .ok after) :
  machine.Requested index after
  := by
  rw [Machine.addBreakpoint] at h
  cases hset : machine.breakpoints.add address with
  | error e =>
    rw [hset] at h
    cases h
  | ok set =>
    rw [hset] at h
    cases h
    exact .shared machine.config.tracing machine.bus set machine.halted machine.recorder

theorem setRegister {register : Nat} {value : Word}
    (h : machine.setRegister index register value = .ok after) :
  machine.Requested index after
  := by
  rw [Machine.setRegister] at h
  cases hslot : machine.slot index with
  | error e =>
    rw [hslot] at h
    cases h
  | ok slot =>
    cases hcore : slot.core.write? register value with
    | none =>
      simp only [hslot, bind, Except.bind, hcore] at h
      cases h
    | some core =>
      simp only [hslot, bind, Except.bind, hcore] at h
      cases h
      exact .core _ machine.bus machine.recorder fun _ => rfl

theorem transfer {α : Type} (machine : Machine) (index : Nat) (action : Transfer α) :
  machine.Requested index (resultState (machine.transfer action))
  := by
  rw [Machine.transfer]
  rw [onBus_eq]
  cases action machine.bus with
  | ok a bus => apply onBus
  | error fault bus => apply onBus

theorem setPin {pin : Nat} {high : Bool} (h : machine.setPin pin high = .ok after) :
  machine.Requested index after
  := by
  rw [Machine.setPin] at h
  split at h
  · cases h
    apply onBus
  · cases h

theorem serialWrite {port : Nat} {data : List UInt8}
    (h : (machine.serialWrite port data).map (·.2) = .ok after) :
  machine.Requested index after
  := by
  rw [Machine.serialWrite] at h
  split at h
  · cases h
    apply onBus
  · cases h

theorem serialRead {port count : Nat}
    (h : (machine.serialRead port count).map (·.2) = .ok after) :
  machine.Requested index after
  := by
  rw [Machine.serialRead] at h
  split at h
  · cases h
    apply onBus
  · cases h

end Requested

/-- Every request, resume and reset apart, changes what the cores share, or the core that it is
about and the bus. -/
theorem perform_requested (machine : Machine) {operation : Operation}
    (hidle : operation.stepsCores = false) (hresume : operation ≠ .resume)
    (hreset : operation ≠ .reset) :
  machine.Requested operation.target (machine.perform operation)
  := by
  have attempt {ε : Type} {result : Except ε Machine}
      (hok : ∀ after, result = .ok after → machine.Requested operation.target after) :
      machine.Requested operation.target (machine.orElse result) :=
    orElse_keeps (.refl machine _) hok
  cases operation with
  | resume => cases hresume rfl
  | reset => cases hreset rfl
  | step | stepCore | runCycles | runUntilHalt => cases hidle
  | loadBytes address data =>
    apply attempt
    intro after h
    obtain ⟨bus, rfl⟩ := Requested.loadBytes h
    apply Requested.onBus
  | loadImage image => apply attempt fun _ => Requested.loadImage
  | loadFile path content base =>
    apply attempt
    intro after h
    cases content with
    | error reason => cases h
    | ok data => apply Requested.loadImage h
  | launch index pc sp => apply attempt fun _ => Requested.launch
  | wake index => apply attempt fun _ => Requested.wake
  | addBreakpoint address => apply attempt fun _ => Requested.addBreakpoint
  | setRegister index register value => apply attempt fun _ => Requested.setRegister
  | readMemory | writeMemory | readBytes => apply Requested.transfer
  | setPin pin high => apply attempt fun _ => Requested.setPin
  | serialWrite port data => apply attempt fun _ => Requested.serialWrite
  | serialRead port count => apply attempt fun _ => Requested.serialRead
  | getRegister | listing | getPin => apply Requested.refl
  | halt =>
    exact .shared machine.config.tracing machine.bus machine.breakpoints true machine.recorder
  | removeBreakpoint | clearBreakpoints =>
    exact .shared machine.config.tracing machine.bus _ machine.halted machine.recorder
  | setTracing on =>
    exact .shared on machine.bus machine.breakpoints machine.halted machine.recorder
  | record =>
    exact .shared machine.config.tracing machine.bus machine.breakpoints machine.halted (some #[])
  | takeEvents =>
    rw [perform, takeEvents]
    split
    · apply Requested.refl
    · exact .shared machine.config.tracing machine.bus machine.breakpoints machine.halted _

end Machine

end ThumbSoc
