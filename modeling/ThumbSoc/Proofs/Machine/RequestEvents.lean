import ThumbSoc.Proofs.Machine.Reset

/-!
# What a request records

A request that steps no core records the changes of run states that it makes, in the order of the
cores. Those that take the events out of the recorder, or switch the recording, are left out.
-/

namespace ThumbSoc

/-- Whether an operation takes the events out of the recorder, or installs another one. -/
def Operation.emptiesRecorder : Operation → Bool
  | .takeEvents | .record => true
  | _ => false

namespace Machine

variable {machine after : Machine} {index : Nat}

/-- A request neither takes cycles nor changes the number of cores. -/
theorem perform_frame (machine : Machine) {operation : Operation}
    (hidle : operation.stepsCores = false) :
  (machine.perform operation).cycles = machine.cycles
    ∧ (machine.perform operation).slots.size = machine.slots.size
  := by
  by_cases hresume : operation = .resume
  · subst hresume
    apply And.intro rfl Array.size_map
  · by_cases hreset : operation = .reset
    · subst hreset
      rw [perform, reset_slots, reset_eq, Array.size_map, Array.size_range]
      apply And.intro rfl rfl
    · have hrequested := machine.perform_requested hidle hresume hreset
      generalize machine.perform operation = after at hrequested
      cases hrequested with
      | shared => apply And.intro rfl rfl
      | core => apply And.intro rfl (Array.size_modify ..)

/-- What was done to a machine is recorded, so far as it changed run states, and the
configuration is the same. -/
structure Records (machine after : Machine) : Prop where
  config : after.config = machine.config
  recorder : after.recorder = machine.recorded (machine.changes after)

namespace Records

/-- Nothing is recorded where no run state changes. -/
theorem quiet (hconfig : after.config = machine.config)
    (hrecorder : after.recorder = machine.recorder) (hstates : after.states = machine.states) :
  machine.Records after
  where
  config := hconfig
  recorder := by rw [changes_of_states_eq hstates.symm, recorded_nil, hrecorder]

theorem refl (machine : Machine) :
  machine.Records machine
  := quiet rfl rfl rfl

theorem setState (machine : Machine) (index : Nat) (state : RunState) :
  machine.Records (machine.setState index state)
  where
  config := by rw [setState_eq]
  recorder := setState_recorder machine index state

theorem launch {pc sp : Word} (h : machine.launch index pc sp = .ok after) :
  machine.Records after
  := by
  rw [Machine.launch] at h
  cases hslot : machine.slot index with
  | error e =>
    rw [hslot] at h
    cases h
  | ok slot =>
    rw [hslot] at h
    cases h
    constructor
    case config =>
      rw [setState_eq]
      rfl
    case recorder =>
      rw [setState_recorder]
      apply congrArg
      exact changes_congr (states_modifySlot machine index fun _ => rfl) rfl

theorem wake (h : machine.wake index = .ok after) :
  machine.Records after
  := by
  rw [Machine.wake] at h
  cases hslot : machine.slot index with
  | error e =>
    rw [hslot] at h
    cases h
  | ok slot =>
    rw [hslot] at h
    cases h
    split
    · apply setState
    · apply refl

theorem loadImage {image : Image} (h : machine.loadImage image = .ok after) :
  machine.Records after
  := by
  rw [Machine.loadImage] at h
  split at h
  · cases h
  · cases hsegments : image.segments.foldlM
        (fun s segment => s.loadBytes segment.address segment.data) machine with
    | error e =>
      rw [hsegments] at h
      cases h
    | ok mid =>
      rw [hsegments] at h
      cases h
      obtain ⟨bus, rfl⟩ := Requested.loadSegments hsegments
      exact quiet rfl rfl (states_modifySlot { machine with bus } 0 fun _ => rfl)

theorem resume (machine : Machine) :
  machine.Records machine.resume
  := by
  have hstates : machine.resume.states = machine.states := by
    simp only [states, Machine.resume, Array.map_map]
    apply congrArg (machine.slots.map ·)
    funext slot
    simp only [Function.comp_apply]
    split <;> rfl
  exact quiet rfl rfl hstates

theorem addBreakpoint {address : Word} (h : machine.addBreakpoint address = .ok after) :
  machine.Records after
  := by
  rw [Machine.addBreakpoint] at h
  cases hset : machine.breakpoints.add address with
  | error e =>
    rw [hset] at h
    cases h
  | ok set =>
    rw [hset] at h
    cases h
    exact quiet rfl rfl rfl

theorem setRegister {register : Nat} {value : Word}
    (h : machine.setRegister index register value = .ok after) :
  machine.Records after
  := by
  rw [Machine.setRegister] at h
  cases hslot : machine.slot index with
  | error e =>
    rw [hslot] at h
    cases h
  | ok slot =>
    cases hcore : slot.core.write? register value with
    | none =>
      simp only [hslot, bind, Except.bind, hcore] at h
      cases h
    | some core =>
      simp only [hslot, bind, Except.bind, hcore] at h
      cases h
      exact quiet rfl rfl (states_modifySlot machine index fun _ => rfl)

theorem transfer {α : Type} (machine : Machine) (action : Transfer α) :
  machine.Records (resultState (machine.transfer action))
  := by
  rw [Machine.transfer, onBus_eq]
  cases action machine.bus with
  | ok a bus => exact quiet rfl rfl rfl
  | error fault bus => exact quiet rfl rfl rfl

theorem setPin {pin : Nat} {high : Bool} (h : machine.setPin pin high = .ok after) :
  machine.Records after
  := by
  rw [Machine.setPin] at h
  split at h
  · cases h
    exact quiet rfl rfl rfl
  · cases h

theorem serialWrite {port : Nat} {data : List UInt8}
    (h : (machine.serialWrite port data).map (·.2) = .ok after) :
  machine.Records after
  := by
  rw [Machine.serialWrite] at h
  split at h
  · cases h
    exact quiet rfl rfl rfl
  · cases h

theorem serialRead {port count : Nat}
    (h : (machine.serialRead port count).map (·.2) = .ok after) :
  machine.Records after
  := by
  rw [Machine.serialRead] at h
  split at h
  · cases h
    exact quiet rfl rfl rfl
  · cases h

end Records

/-- A request that leaves the events in the recorder adds the changes of run states. -/
theorem perform_records (machine : Machine) {operation : Operation}
    (hidle : operation.stepsCores = false) (hkept : operation.emptiesRecorder = false)
    (htracing : ∀ on, operation ≠ .setTracing on) :
  machine.Records (machine.perform operation)
  := by
  have attempt {ε : Type} {result : Except ε Machine}
      (hok : ∀ after, result = .ok after → machine.Records after) :
      machine.Records (machine.orElse result) :=
    orElse_keeps (.refl machine) hok
  cases operation with
  | step | stepCore | runCycles | runUntilHalt => cases hidle
  | record | takeEvents => cases hkept
  | setTracing on => cases htracing on rfl
  | reset => exact ⟨by rw [perform, reset_eq], machine.reset_recorder⟩
  | resume => apply Records.resume
  | launch index pc sp => apply attempt fun _ => Records.launch
  | wake index => apply attempt fun _ => Records.wake
  | loadBytes address data =>
    apply attempt
    intro after h
    obtain ⟨bus, rfl⟩ := Requested.loadBytes h
    exact .quiet rfl rfl rfl
  | loadImage image => apply attempt fun _ => Records.loadImage
  | loadFile path content base =>
    apply attempt
    intro after h
    cases content with
    | error reason => cases h
    | ok data => apply Records.loadImage h
  | addBreakpoint address => apply attempt fun _ => Records.addBreakpoint
  | setRegister index register value => apply attempt fun _ => Records.setRegister
  | readMemory | writeMemory | readBytes => apply Records.transfer
  | setPin pin high => apply attempt fun _ => Records.setPin
  | serialWrite port data => apply attempt fun _ => Records.serialWrite
  | serialRead port count => apply attempt fun _ => Records.serialRead
  | halt | removeBreakpoint | clearBreakpoints | getRegister | listing | getPin =>
    exact .quiet rfl rfl rfl

end Machine

end ThumbSoc
