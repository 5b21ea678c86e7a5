import ThumbSoc.Proofs.Machine.RequestEvents
import ThumbSoc.Proofs.Machine.Visited

/-!
# The trace of a history

The events of a machine tell its whole history. Each moment adds the events that tell about it,
and nothing else does; so the trace counts the cycles, reports the visits in order, and takes the
run states of the cores from the first machine to the last one.

The host may take the events out of the recorder at any time. `heard` is everything that it gets
that way, together with what is left in the recorder at the end.
-/

namespace ThumbSoc

/-! ### Kinds of events -/

namespace Event

@[simp]
def isInstruction : Event → Bool
  | instruction .. => true
  | _ => false

@[simp]
def isBreakpoint : Event → Bool
  | breakpoint .. => true
  | _ => false

@[simp]
def isFault : Event → Bool
  | fault .. => true
  | _ => false

@[simp]
def isRunState : Event → Bool
  | runState .. => true
  | _ => false

/-- The run states of the cores after an event, if they were the given ones before. -/
def replay (states : Array RunState) : Event → Array RunState
  | runState core state => states.setIfInBounds core state
  | _ => states

end Event

/-! ### Moments -/

namespace Visit

/-- The events that tell about a visit. -/
def events (visit : Visit) : List Event :=
  visit.report.toList ++ visit.machine.changes (resultState visit.result)

/-- Whether the step of the core stopped at a breakpoint. -/
def stops (visit : Visit) : Bool :=
  match visit.result with
  | .ok (.breakpoint ..) _ => true
  | _ => false

/-- Whether the step of the core faulted, be it that the core is parked or that the machine is
halted for it. -/
def faults (visit : Visit) : Bool :=
  match visit.result with
  | .ok (.parked ..) _ => true
  | .error (.fault ..) _ => true
  | _ => false

/-- Whether the core idled. -/
def idles (visit : Visit) : Bool :=
  match visit.result with
  | .ok (.idle ..) _ => true
  | _ => false

end Visit

namespace Moment

/-- The events that tell about a moment. -/
def events : Moment → List Event
  | .visit v => v.events
  | .request machine operation => machine.changes (machine.perform operation)

/-- The visit that a moment is, if it is one. -/
def visit? : Moment → Option Visit
  | .visit v => some v
  | .request .. => none

end Moment

namespace Machine

/-- The visits of operations that are performed one after the other. -/
def visits (machine : Machine) (operations : List Operation) : List Visit :=
  (machine.history operations).filterMap Moment.visit?

/-- The events that a host hears of which takes them out of the recorder before every operation
that would, and once more at the end. -/
def heard (machine : Machine) : List Operation → List Event
  | [] => machine.takeEvents.1.toList
  | operation :: rest =>
    (if operation.emptiesRecorder then machine.takeEvents.1.toList else [])
      ++ (machine.perform operation).heard rest

variable {machine after last : Machine} {index : Nat}

/-! ### Changes of run states -/

theorem mem_changes {event : Event} (h : event ∈ machine.changes after) :
  ∃ core state, event = .runState core state
  := by
  obtain ⟨index, _, hchange⟩ := List.mem_filterMap.mp h
  rw [change?] at hchange
  split at hchange
  · cases hchange
  · obtain ⟨state, _, rfl⟩ := Option.map_eq_some_iff.mp hchange
    use index, state

/-- Changes of run states do not count as events of any other kind. -/
theorem countP_changes {kind : Event → Bool} (machine after : Machine)
    (hkind : ∀ core state, kind (.runState core state) = false) :
  (machine.changes after).countP kind = 0
  := by
  rw [List.countP_eq_zero]
  intro event hevent
  obtain ⟨core, state, rfl⟩ := mem_changes hevent
  rw [hkind]
  exact Bool.false_ne_true

theorem filter_changes (machine after : Machine) :
  (machine.changes after).filter (!·.isRunState) = []
  := by
  rw [List.filter_eq_nil_iff]
  intro event hevent
  obtain ⟨core, state, rfl⟩ := mem_changes hevent
  exact Bool.false_ne_true

/-- Replaying the change of a core over its old run state gives its new one. -/
theorem replay_change? {states : Array RunState} (hsize : after.slots.size = machine.slots.size)
    (hinside : index < machine.slots.size) (hold : states[index]? = machine.states[index]?)
    (i : Nat) :
  ((machine.change? after index).toList.foldl Event.replay states)[i]?
    = if i = index then after.states[index]? else states[i]?
  := by
  rw [change?]
  split
  · next hsame =>
    rw [← hsame, ← hold]
    by_cases hi : i = index
    · rw [if_pos hi, hi]
      rfl
    · rw [if_neg hi]
      rfl
  · have hwithin : index < states.size := by
      rw [← states_size] at hinside
      rw [Array.getElem?_eq_getElem hinside] at hold
      obtain ⟨hlt, _⟩ := Array.getElem?_eq_some_iff.mp hold
      exact hlt
    have hnew : index < after.states.size := by rw [states_size, hsize]; exact hinside
    rw [Array.getElem?_eq_getElem hnew]
    simp only [Option.map_some, Option.toList_some, List.foldl_cons, List.foldl_nil, Event.replay,
      Array.getElem?_setIfInBounds, hwithin, if_true, eq_comm]

/-- Replaying the changes of the first cores gives their new run states, and the old ones of the
others. -/
theorem replay_change?s (hsize : after.slots.size = machine.slots.size) {count : Nat}
    (hcount : count ≤ machine.slots.size) (i : Nat) :
  (((List.range count).filterMap (machine.change? after)).foldl Event.replay machine.states)[i]?
    = if i < count then after.states[i]? else machine.states[i]?
  := by
  induction count generalizing i with
  | zero => rfl
  | succ count ih =>
    have ih := ih (Nat.le_of_succ_le hcount)
    have hold := ih count
    rw [if_neg (Nat.lt_irrefl _)] at hold
    have hlast : [count].filterMap (machine.change? after)
        = (machine.change? after count).toList := by
      cases h : machine.change? after count <;> simp [h]
    rw [List.range_succ, List.filterMap_append, List.foldl_append, hlast,
      replay_change? hsize hcount hold, ih]
    by_cases hi : i = count
    · subst hi
      simp
    · have hiff : i < count + 1 ↔ i < count := by omega
      simp only [hi, if_false, hiff]

/-- Replaying the changes of run states over the old ones gives the new ones. -/
theorem replay_changes (hsize : after.slots.size = machine.slots.size) :
  (machine.changes after).foldl Event.replay machine.states = after.states
  := by
  apply Array.ext_getElem?
  intro i
  rw [changes, replay_change?s hsize (Nat.le_refl _)]
  split
  · rfl
  · next houtside =>
    have houtside : machine.slots.size ≤ i := Nat.le_of_not_lt houtside
    rw [Array.getElem?_eq_none (by rw [states_size]; exact houtside),
      Array.getElem?_eq_none (by rw [states_size, hsize]; exact houtside)]

end Machine

/-! ### Visits -/

open Machine

/-- A visit reports an instruction if its core gets past one, a breakpoint if it stops there, a
fault if there was one, and nothing else. -/
structure Visit.Reports (visit : Visit) : Prop where
  instructions : visit.report.toList.countP Event.isInstruction = (passes visit.result).toNat
  breakpoints : visit.report.toList.countP Event.isBreakpoint = visit.stops.toNat
  faults : visit.report.toList.countP Event.isFault = visit.faults.toNat
  states : ∀ event ∈ visit.report, event.isRunState = false

theorem Visit.reports (visit : Visit) :
  visit.Reports
  := by
  have hstepped := visit.machine.stepCore_stepped visit.index
  generalize hresult : visit.machine.stepCore visit.index = result at hstepped
  have hresult : visit.result = result := hresult
  cases hstepped with
  | noCore absent => constructor <;> simp [report, stops, Visit.faults, passes, hresult]
  | idle present waits =>
    constructor <;> simp [report, stops, Visit.faults, passes, hresult, StepOutcome.takesCycle]
  | @settled slot core step bus recorder present runs thumb success =>
    have hreport := Visit.report_of_step success hresult
    cases step with
    | breakpoint | skipped | executed =>
      constructor <;>
      simp [hreport, stops, Visit.faults, passes, hresult, CoreStep.event, CoreStep.outcome,
        StepOutcome.takesCycle]
  | parked present runs faults policy =>
    constructor <;> simp [report, stops, Visit.faults, passes, hresult, StepOutcome.takesCycle]
  | halted present runs faults policy =>
    constructor <;> simp [report, stops, Visit.faults, passes, hresult]

/-- Events of any other kind than changes of run states are in the report. -/
theorem Visit.countP_events (visit : Visit) {kind : Event → Bool}
    (hkind : ∀ core state, kind (.runState core state) = false) :
  visit.events.countP kind = visit.report.toList.countP kind
  := by rw [events, List.countP_append, countP_changes _ _ hkind, Nat.add_zero]

/-- Without the changes of run states, the report is left. -/
theorem Visit.filter_events (visit : Visit) :
  visit.events.filter (!·.isRunState) = visit.report.toList
  := by
  have hall : visit.report.toList.filter (!·.isRunState) = visit.report.toList := by
    rw [List.filter_eq_self]
    intro event hevent
    rw [visit.reports.states event (Option.mem_toList.mp hevent)]
    rfl
  rw [events, List.filter_append, filter_changes, hall, List.append_nil]

/-- A visit in which the core idles records nothing. -/
theorem Visit.recorder_of_idles {visit : Visit} (h : visit.idles = true) :
  (resultState visit.result).recorder = visit.machine.recorder
  := by
  have hstepped := visit.machine.stepCore_stepped visit.index
  rw [idles] at h
  rw [result] at h ⊢
  generalize visit.machine.stepCore visit.index = result at hstepped h
  cases hstepped with
  | idle present waits => apply haltIfIdle_recorder
  | @settled slot core step => cases step <;> cases h
  | noCore | parked | halted => cases h

namespace Machine

/-! ### From moments to histories -/

variable {machine after last : Machine} {index : Nat} {moment : Moment} {moments : List Moment}

theorem Stepped.cycles_eq {result : EStateM.Result MachineError Machine StepOutcome}
    (h : machine.Stepped index result) :
  (resultState result).cycles = machine.cycles + (passes result).toNat
  := by
  cases hresult : result with
  | ok outcome after =>
    rw [hresult] at h
    apply h.cycles
  | error e after =>
    rw [hresult] at h
    cases h with
    | noCore => rfl
    | halted => rfl

/-- The events of a moment tell how many cycles it takes and what becomes of the run states. -/
theorem Leads.tells (h : Leads machine moment after) :
  after.cycles = machine.cycles + moment.events.countP Event.isInstruction
    ∧ moment.events.foldl Event.replay machine.states = after.states
  := by
  cases moment with
  | visit visit =>
    obtain ⟨⟨cursor, hmachine⟩, hstepped, hafter⟩ := h.stepped
    have hcycles := hstepped.cycles_eq
    have hreplay := replay_changes hstepped.size
    have hstart : visit.machine.cycles = machine.cycles
        ∧ visit.machine.states = machine.states := by
      rw [hmachine]
      apply And.intro rfl rfl
    have hreport : visit.report.toList.foldl Event.replay machine.states = machine.states := by
      cases hreport : visit.report with
      | none => rfl
      | some event =>
        have hevent := visit.reports.states event hreport
        cases event with
        | runState => cases hevent
        | _ => rfl
    rw [hstart.1] at hcycles
    rw [hstart.2] at hreplay
    rw [Moment.events, visit.countP_events (fun _ _ => rfl), visit.reports.instructions, hafter]
    apply And.intro hcycles
    rw [Visit.events, List.foldl_append, hreport, hreplay]
  | request machine' operation =>
    cases h with
    | request hidle =>
      obtain ⟨hcycles, hsize⟩ := machine.perform_frame hidle
      rw [Moment.events, replay_changes hsize, hcycles, countP_changes _ _ fun _ _ => rfl]
      apply And.intro rfl rfl

theorem Course.tells (h : Course machine moments last) :
  last.cycles = machine.cycles + (moments.flatMap Moment.events).countP Event.isInstruction
    ∧ (moments.flatMap Moment.events).foldl Event.replay machine.states = last.states
  := by
  induction h with
  | nil => apply And.intro rfl rfl
  | cons leads others ih =>
    obtain ⟨hcycles, hstates⟩ := leads.tells
    rw [hcycles, ← hstates] at ih
    rw [List.flatMap_cons, List.countP_append, List.foldl_append, ← Nat.add_assoc]
    apply ih

/-- The moments of a course are recorded one after the other. -/
theorem Leads.records (h : Leads machine moment after)
    (hkept : ∀ current operation, moment = .request current operation →
      operation.emptiesRecorder = false ∧ ∀ on, operation ≠ .setTracing on) :
  after.config = machine.config ∧ after.recorder = machine.recorded moment.events
  := by
  cases h with
  | visit index =>
    obtain ⟨hconfig, _⟩ := (machine.stepCore_stepped index).frame
    use hconfig
    rw [stepCore_recorder, told_eq]
    rfl
  | turn =>
    obtain ⟨hconfig, _⟩ := machine.step_stepped.frame
    use hconfig
    have hrecorder := machine.advance.stepCore_recorder machine.cursor
    rw [told_eq] at hrecorder
    apply hrecorder
  | request hidle =>
    obtain ⟨hkept, htracing⟩ := hkept _ _ rfl
    obtain ⟨hconfig, hrecorder⟩ := machine.perform_records hidle hkept htracing
    apply And.intro hconfig hrecorder

theorem Course.records (h : Course machine moments last)
    (hkept : ∀ current operation, .request current operation ∈ moments →
      operation.emptiesRecorder = false ∧ ∀ on, operation ≠ .setTracing on) :
  last.config = machine.config
    ∧ last.recorder = machine.recorded (moments.flatMap Moment.events)
  := by
  induction h with
  | nil machine => apply And.intro rfl machine.recorded_nil.symm
  | cons leads others ih =>
    obtain ⟨hconfig, hrecorder⟩ := leads.records fun current operation hmoment =>
      hkept current operation (hmoment ▸ List.mem_cons_self)
    obtain ⟨hconfig', hrecorder'⟩ := ih fun current operation hmem =>
      hkept current operation (List.mem_cons_of_mem _ hmem)
    rw [List.flatMap_cons, hconfig', hrecorder', recorded_recorded hconfig hrecorder]
    apply And.intro hconfig rfl

theorem request_mem_moments {operation operation' : Operation} {current : Machine}
    (h : .request current operation' ∈ machine.moments operation) :
  operation' = operation
  := by
  cases operation with
  | runCycles | runUntilHalt =>
    obtain ⟨visit, _, hvisit⟩ := List.mem_map.mp h
    cases hvisit
  | _ => cases List.mem_singleton.mp h <;> rfl

/-- Switching the recording of events on where it is on. -/
theorem setTracing_self {on : Bool} (h : machine.config.tracing = on) :
  machine.setTracing on = machine
  := by
  subst h
  rfl

/-- Every operation that leaves the events in the recorder adds those of its moments. -/
theorem perform_recorded (htracing : machine.config.tracing = true) {operation : Operation}
    (hkept : operation.emptiesRecorder = false) (hon : operation ≠ .setTracing false) :
  (machine.perform operation).config = machine.config
    ∧ (machine.perform operation).recorder
      = machine.recorded ((machine.moments operation).flatMap Moment.events)
  := by
  by_cases hswitch : operation = .setTracing true
  · subst hswitch
    have hsame : machine.perform (.setTracing true) = machine := setTracing_self htracing
    have hmoments : machine.moments (.setTracing true) = [.request machine (.setTracing true)] := rfl
    rw [hmoments, List.flatMap_singleton, Moment.events, hsame, changes_of_states_eq rfl,
      recorded_nil]
    apply And.intro rfl rfl
  · apply (machine.perform_course operation).records
    intro current operation' hmem
    cases request_mem_moments hmem
    use hkept
    intro on
    cases on with
    | false => apply hon
    | true => apply hswitch

/-- An operation that takes the events out of the recorder leaves no event to hear of. -/
theorem perform_emptied {operation : Operation} (h : operation.emptiesRecorder = true)
    {past : Array Event} (hrecorder : machine.recorder = some past) :
  (machine.perform operation).config = machine.config
    ∧ (machine.perform operation).recorder = some #[]
    ∧ (machine.moments operation).flatMap Moment.events = []
  := by
  have hperform : machine.perform operation = { machine with recorder := some #[] } := by
    cases operation with
    | record => rfl
    | takeEvents => rw [perform, takeEvents, hrecorder]
    | _ => cases h
  have hmoments : machine.moments operation = [.request machine operation] := by
    cases operation with
    | record | takeEvents => rfl
    | _ => cases h
  rw [hmoments, List.flatMap_singleton, Moment.events, hperform]
  use rfl, rfl
  exact changes_of_states_eq rfl

/-- The host hears of what was recorded before, and then of the moments of the history. -/
theorem heard_eq {past : Array Event} (htracing : machine.config.tracing = true)
    (hrecorder : machine.recorder = some past) {operations : List Operation}
    (hon : ∀ operation ∈ operations, operation ≠ .setTracing false) :
  machine.heard operations
    = past.toList ++ (machine.history operations).flatMap Moment.events
  := by
  induction operations generalizing machine past with
  | nil => simp only [heard, takeEvents, hrecorder, history, List.flatMap_nil, List.append_nil]
  | cons operation rest ih =>
    have hrest : ∀ operation ∈ rest, operation ≠ .setTracing false := fun operation hmem =>
      hon operation (List.mem_cons_of_mem _ hmem)
    have htaken : machine.takeEvents.1 = past := by rw [takeEvents, hrecorder]
    rw [heard, history, List.flatMap_append]
    cases hempties : operation.emptiesRecorder with
    | true =>
      obtain ⟨hconfig, hempty, hnone⟩ := perform_emptied hempties hrecorder
      rw [← hconfig] at htracing
      rw [if_pos rfl, htaken, hnone, ih htracing hempty hrest]
    | false =>
      obtain ⟨hconfig, hadds⟩ :=
        perform_recorded htracing hempties (hon operation List.mem_cons_self)
      rw [recorded, if_pos htracing, hrecorder, Option.map_some] at hadds
      rw [← hconfig] at htracing
      rw [if_neg Bool.false_ne_true, ih htracing hadds hrest, Array.toList_append,
        List.append_assoc]
      rfl

/-! ### The trace -/

/-- The events of a kind that visits report are counted by the visits that report them. -/
theorem countP_moments (moments : List Moment) {kind : Event → Bool} {flag : Visit → Bool}
    (hkind : ∀ core state, kind (.runState core state) = false)
    (hflag : ∀ visit : Visit, visit.report.toList.countP kind = (flag visit).toNat) :
  (moments.flatMap Moment.events).countP kind
    = (moments.filterMap Moment.visit?).countP flag
  := by
  induction moments with
  | nil => rfl
  | cons moment rest ih =>
    rw [List.flatMap_cons, List.countP_append, ih]
    cases moment with
    | visit visit =>
      rw [Moment.events, visit.countP_events hkind, hflag, List.filterMap_cons, Moment.visit?]
      simp only
      rw [List.countP_cons, Nat.add_comm]
      cases flag visit <;> rfl
    | request current operation =>
      rw [Moment.events, countP_changes _ _ hkind, List.filterMap_cons_none rfl, Nat.zero_add]

/-- The events other than changes of run states are the reports of the visits. -/
theorem filter_moments (moments : List Moment) :
  (moments.flatMap Moment.events).filter (!·.isRunState)
    = (moments.filterMap Moment.visit?).filterMap Visit.report
  := by
  induction moments with
  | nil => rfl
  | cons moment rest ih =>
    rw [List.flatMap_cons, List.filter_append, ih]
    cases moment with
    | visit visit =>
      rw [Moment.events, visit.filter_events, List.filterMap_cons, Moment.visit?]
      simp only
      rw [List.filterMap_cons]
      cases visit.report <;> rfl
    | request current operation =>
      rw [Moment.events, filter_changes, List.filterMap_cons_none rfl, List.nil_append]

/-- A trace tells what a machine does while it performs operations. -/
structure Tells (machine : Machine) (operations : List Operation) (trace : List Event) :
    Prop where
  /-- Every cycle is told by an instruction. -/
  cycles : (machine.performAll operations).cycles
    = machine.cycles + trace.countP Event.isInstruction
  /-- Every step that gets its core past an instruction is told by it. -/
  instructions : trace.countP Event.isInstruction
    = (machine.visits operations).countP (passes ·.result)
  breakpoints : trace.countP Event.isBreakpoint = (machine.visits operations).countP Visit.stops
  faults : trace.countP Event.isFault = (machine.visits operations).countP Visit.faults
  /-- In the order of the steps, each one is reported by at most one event. -/
  reports : trace.filter (!·.isRunState) = (machine.visits operations).filterMap Visit.report
  /-- A core that idles adds nothing. -/
  idles : ∀ visit ∈ machine.visits operations, visit.idles = true →
    (resultState visit.result).recorder = visit.machine.recorder
  /-- The changes of run states lead from the first machine to the last one. -/
  states : trace.foldl Event.replay machine.states = (machine.performAll operations).states

/-- The events that a host hears of tell everything that the machine did, if events are recorded
throughout. -/
theorem heard_tells {past : Array Event} (htracing : machine.config.tracing = true)
    (hrecorder : machine.recorder = some past) {operations : List Operation}
    (hon : ∀ operation ∈ operations, operation ≠ .setTracing false) :
  ∃ trace, machine.heard operations = past.toList ++ trace ∧ machine.Tells operations trace
  := by
  obtain ⟨hcycles, hstates⟩ := (machine.performAll_course operations).tells
  use (machine.history operations).flatMap Moment.events, heard_eq htracing hrecorder hon
  constructor
  case cycles => apply hcycles
  case instructions =>
    apply countP_moments _ (fun _ _ => rfl)
    intro visit
    apply visit.reports.instructions
  case breakpoints =>
    apply countP_moments _ (fun _ _ => rfl)
    intro visit
    apply visit.reports.breakpoints
  case faults =>
    apply countP_moments _ (fun _ _ => rfl)
    intro visit
    apply visit.reports.faults
  case reports => apply filter_moments
  case idles =>
    intro visit _ hidles
    apply Visit.recorder_of_idles hidles
  case states => apply hstates

/-- Two cores that are watched from the beginning. -/
def watched : Machine :=
  (fresh { coreCount := 2, sramSize := 4, tracing := true }).record

/-- Both cores run into a pause, and the machine is reset; the events of the launch are taken out
of the recorder before the run. -/
def watchedSession : List Operation :=
  [.setTracing true, .writeMemory sramBase 0xBF30BF00, .setRegister 0 15 sramBase,
    .launch 1 sramBase (sramBase + 4), .takeEvents, .runCycles 4, .reset]

theorem watched_heard_tells :
  watched.config.tracing = true ∧ watched.recorder = some #[]
    ∧ (∀ operation ∈ watchedSession, operation ≠ .setTracing false)
    ∧ ∃ trace, watched.heard watchedSession = [] ++ trace ∧ watched.Tells watchedSession trace
  := by
  have hon : ∀ operation ∈ watchedSession, operation ≠ .setTracing false := by
    simp [watchedSession]
  use rfl, rfl, hon
  apply heard_tells rfl rfl hon

end Machine

end ThumbSoc
