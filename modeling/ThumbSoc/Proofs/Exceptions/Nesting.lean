import ThumbSoc.Proofs.CoreStep
import ThumbSoc.Proofs.Exceptions.Context
import ThumbSoc.Proofs.Exceptions.Kind

/-!
# The count of open exceptions

Along a run of a core, every entry into an exception raises the level and every return lowers
it. The level is one byte and stops at 255, so an entry that finds it there is not counted. Up
to those entries the level is the number of exceptions that were entered and not left, and
while it is positive a branch to a return value leaves the exception.
-/

namespace ThumbSoc

/-! ### Histories -/

/-- A transition that a core has committed, with the level at which it found the core. -/
structure Commitment where
  level : UInt8
  transition : Transition
  deriving DecidableEq, Repr

namespace Commitment

/-- An exception was entered. -/
def isEntry (c : Commitment) : Bool :=
  c.transition != .leave

/-- An exception was left. -/
def isReturn (c : Commitment) : Bool :=
  c.transition == .leave

/-- An exception was entered at the level where the count stops. -/
def isUncounted (c : Commitment) : Bool :=
  c.isEntry && c.level == 255

/-- How many exceptions were entered. -/
def entries (history : List Commitment) : Nat :=
  history.countP isEntry

/-- How many exceptions were left. -/
def returns (history : List Commitment) : Nat :=
  history.countP isReturn

/-- How many exceptions were entered without being counted. -/
def uncounted (history : List Commitment) : Nat :=
  history.countP isUncounted

/-- At no time more than 255 exceptions were open. -/
def Shallow (history : List Commitment) : Prop :=
  ∀ past, past <+: history → entries past ≤ returns past + 255

variable (history : List Commitment) (level number : UInt8) (c : Commitment)

theorem entries_enter :
  entries (history ++ [⟨level, .enter number⟩]) = entries history + 1
  := List.countP_append

theorem entries_leave :
  entries (history ++ [⟨level, .leave⟩]) = entries history
  := List.countP_append

theorem returns_enter :
  returns (history ++ [⟨level, .enter number⟩]) = returns history
  := List.countP_append

theorem returns_leave :
  returns (history ++ [⟨level, .leave⟩]) = returns history + 1
  := List.countP_append

theorem uncounted_enter :
  uncounted (history ++ [⟨level, .enter number⟩])
    = uncounted history + if level.toNat = 255 then 1 else 0
  := by
  have hfull : isUncounted ⟨level, .enter number⟩ = true ↔ level.toNat = 255 :=
    beq_iff_eq.trans UInt8.toNat_inj.symm
  rw [uncounted, List.countP_append, List.countP_singleton, uncounted]
  simp only [hfull]

theorem uncounted_leave :
  uncounted (history ++ [⟨level, .leave⟩]) = uncounted history
  := List.countP_append

theorem shallow_concat :
  Shallow (history ++ [c])
    ↔ Shallow history ∧ entries (history ++ [c]) ≤ returns (history ++ [c]) + 255
  := by
  constructor
  · intro h
    constructor
    · intro past hpast
      apply h past (List.prefix_concat_iff.mpr (Or.inr hpast))
    · apply h _ (List.prefix_refl _)
  · rintro ⟨hshallow, hlast⟩ past hpast
    rcases List.prefix_concat_iff.mp hpast with rfl | hpast
    · apply hlast
    · apply hshallow past hpast

end Commitment

namespace ThumbCore

/-- What a core does when it is its turn: it stops at a breakpoint, skips an instruction,
executes one, or faults and stays as it was. The transition is the one that it commits. -/
inductive Turn (core : ThumbCore) (bus : Bus) : Option Transition → ThumbCore → Bus → Prop where
  | stopped {breakpoints : Breakpoints} {armed : Option Word} {bus' : Bus}
      (step : core.step breakpoints armed bus = .ok .breakpoint bus') :
      Turn core bus none core bus'
  | skipped {breakpoints : Breakpoints} {armed : Option Word} {bus' : Bus} {i : Instruction}
      {after : ThumbCore} (step : core.step breakpoints armed bus = .ok (.skipped i after) bus') :
      Turn core bus none after bus'
  | executed {breakpoints : Breakpoints} {armed : Option Word} {bus' : Bus} {i : Instruction}
      {sleeps : Bool} {after : ThumbCore} {effects : Effects}
      (step : core.step breakpoints armed bus = .ok (.executed i sleeps after) bus')
      (execution : i.execute core core.pc bus = .ok effects bus') :
      Turn core bus effects.transition after bus'
  | faulted {breakpoints : Breakpoints} {armed : Option Word} {bus' : Bus} {fault : CoreFault}
      (step : core.step breakpoints armed bus = .error fault bus') :
      Turn core bus none core bus'

/-- A run of a core, with the transitions that it has committed, oldest first. Between two turns
the rest of the machine may change the bus in the ways that `others` allows. -/
inductive Run (others : Bus → Bus → Prop) (core : ThumbCore) (bus : Bus) :
    List Commitment → ThumbCore → Bus → Prop where
  | start : Run others core bus [] core bus
  | interlude {history : List Commitment} {last : ThumbCore} {mid bus' : Bus}
      (run : Run others core bus history last mid) (change : others mid bus') :
      Run others core bus history last bus'
  | turn {history : List Commitment} {mid last : ThumbCore} {midBus bus' : Bus}
      {transition : Option Transition} (run : Run others core bus history mid midBus)
      (turn : mid.Turn midBus transition last bus') :
      Run others core bus (history ++ (transition.map (Commitment.mk mid.exceptionLevel)).toList)
        last bus'

/-- The level of a core agrees with its history. -/
structure Counted (core : ThumbCore) (history : List Commitment) : Prop where
  handling : core.inException = true ↔ 0 < core.exceptionLevel
  level : core.exceptionLevel.toNat + Commitment.returns history + Commitment.uncounted history
    = Commitment.entries history

end ThumbCore

/-! ### One turn -/

namespace ThumbCore

/-- The level of a core, with the flag that says whether it handles an exception. -/
def standing (core : ThumbCore) : UInt8 × Bool :=
  (core.exceptionLevel, core.inException)

theorem standing_rest (core : ThumbCore) :
  core.rest.standing = core.standing
  := rfl

theorem standing_flags (core : ThumbCore) (update : FlagsUpdate) :
  (update.apply core).standing = core.standing
  := by cases update <;> rfl

theorem standing_writeSpecial (core : ThumbCore) (selector : Nat) (value : Word) :
  (core.writeSpecial selector value).standing = core.standing
  := by
  rw [writeSpecial]
  split <;> rfl

theorem standing_apply {core other : ThumbCore} (h : core.standing = other.standing)
    (transition : Transition) :
  (transition.apply core).standing = (transition.apply other).standing
  := by
  have hlevel : core.exceptionLevel = other.exceptionLevel := (Prod.mk.inj h).1
  cases transition with
  | enter number =>
    change (if core.exceptionLevel = 255 then 255 else core.exceptionLevel + 1, true) = _
    rw [hlevel]
    rfl
  | leave =>
    simp only [standing, Transition.apply, hlevel]

end ThumbCore

/-- Nothing but the transition moves the level of the core. -/
theorem Effects.commit_standing (effects : Effects) (core : ThumbCore) :
  ∃ before : ThumbCore, before.standing = core.standing
    ∧ effects.commit core
      = (match effects.transition with
        | some transition => transition.apply before
        | none => before).setPc effects.nextPc
  := by
  have hwrites : (effects.applyWrites core).standing = core.standing := by
    rw [← ThumbCore.standing_rest, rest_applyWrites, ThumbCore.standing_rest]
  refine ⟨_, ?_, rfl⟩
  split
  any_goals rw [ThumbCore.standing_writeSpecial]
  all_goals
    rw [ThumbCore.standing_flags]
    split
    · apply hwrites
    · apply hwrites

namespace ThumbCore

variable {core after : ThumbCore} {bus bus' : Bus} {transition : Option Transition}
  {history : List Commitment}

/-- What a turn does to the level is what its transition does to it. Only a core that handles an
exception commits a return. -/
theorem Turn.standing (h : core.Turn bus transition after bus') :
  (transition = none ∧ after.standing = core.standing)
    ∨ ∃ committed, transition = some committed ∧ (committed = .leave → core.inException = true)
      ∧ after.standing = (committed.apply core).standing
  := by
  cases h with
  | stopped | faulted =>
    left
    apply And.intro rfl rfl
  | skipped step =>
    left
    apply And.intro rfl
    rcases step_ok step with ⟨hresult, _⟩ | ⟨i, _, _, hresult, _⟩ | ⟨i, staged, _, _, hresult⟩
    · cases hresult
    · cases hresult
      rfl
    · cases hresult
  | @executed _ _ _ i _ _ effects step execution =>
    rcases step_ok step with
      ⟨hresult, _⟩ | ⟨_, _, _, hresult, _⟩ | ⟨_, staged, _, hexecute, hresult⟩
    · cases hresult
    · cases hresult
    · cases hresult
      rw [hexecute] at execution
      cases execution
      obtain ⟨before, hbefore, hcommit⟩ := effects.commit_standing core
      rw [hcommit]
      cases i.execute_kind core core.pc bus effects bus' hexecute with
      | plain hplain =>
        left
        rw [hplain.2]
        apply And.intro rfl hbefore
      | entering number _ htransition =>
        right
        rw [htransition]
        use .enter number, rfl
        constructor
        · rintro ⟨⟩
        · apply standing_apply hbefore
      | leaving word hhandling _ htransition =>
        right
        rw [htransition]
        use .leave, rfl
        constructor
        · intro _
          apply hhandling
        · apply standing_apply hbefore

/-! ### Runs -/

theorem toNat_raised (level : UInt8) :
  (if level = 255 then 255 else level + 1).toNat = min (level.toNat + 1) 255
  := by
  have hlt := level.toNat_lt
  have hsum : (level + 1).toNat = (level.toNat + 1) % 256 := UInt8.toNat_add level 1
  split
  · next hfull =>
    rw [hfull]
    rfl
  · next hroom =>
    have hne : level.toNat ≠ 255 := fun heq => hroom (UInt8.toNat_inj.mp heq)
    omega

theorem toNat_lowered (level : UInt8) :
  (if level = 0 then 0 else level - 1).toNat = level.toNat - 1
  := by
  have hlt := level.toNat_lt
  have hsub : (level - 1).toNat = (256 - 1 + level.toNat) % 256 := UInt8.toNat_sub level 1
  split
  · next hzero =>
    rw [hzero]
    rfl
  · next hpos =>
    have hne : level.toNat ≠ 0 := fun heq => hpos (UInt8.toNat_inj.mp heq)
    omega

theorem Counted.enter (h : core.Counted history) (number : UInt8)
    (hafter : after.standing = (Transition.apply core (.enter number)).standing) :
  after.Counted (history ++ [⟨core.exceptionLevel, .enter number⟩])
  := by
  obtain ⟨hlevel, hhandling⟩ := Prod.mk.inj hafter
  have hraised := (congrArg UInt8.toNat hlevel).trans (toNat_raised core.exceptionLevel)
  have hbound := core.exceptionLevel.toNat_lt
  have hcount := h.level
  constructor
  · have hpos : 0 < after.exceptionLevel := by
      rw [UInt8.lt_iff_toNat_lt, hraised]
      change 0 < _
      omega
    exact iff_of_true hhandling hpos
  · rw [hraised, Commitment.entries_enter, Commitment.returns_enter, Commitment.uncounted_enter]
    split <;> omega

theorem Counted.leave (h : core.Counted history) (hhandling : core.inException = true)
    (hafter : after.standing = (Transition.apply core .leave).standing) :
  after.Counted (history ++ [⟨core.exceptionLevel, .leave⟩])
  := by
  obtain ⟨hlevel, hflag⟩ := Prod.mk.inj hafter
  have hlowered := (congrArg UInt8.toNat hlevel).trans (toNat_lowered core.exceptionLevel)
  have hpos := UInt8.lt_iff_toNat_lt.mp (h.handling.mp hhandling)
  have hcount := h.level
  constructor
  · rw [hflag, UInt8.pos_iff_ne_zero, hlevel]
    apply decide_eq_true_iff
  · rw [hlowered, Commitment.entries_leave, Commitment.returns_leave, Commitment.uncounted_leave]
    change 0 < _ at hpos
    omega

/-- A turn goes on with the count. -/
theorem Counted.turn (h : core.Counted history) (hturn : core.Turn bus transition after bus') :
  after.Counted (history ++ (transition.map (Commitment.mk core.exceptionLevel)).toList)
  := by
  rcases hturn.standing with ⟨rfl, hsame⟩ | ⟨committed, rfl, hreturn, hafter⟩
  · obtain ⟨hlevel, hhandling⟩ := Prod.mk.inj hsame
    rw [Option.map_none, Option.toList_none, List.append_nil]
    constructor
    · rw [hlevel, hhandling, h.handling]
    · rw [hlevel, h.level]
  · cases committed with
    | enter number => apply h.enter number hafter
    | leave => apply h.leave (hreturn rfl) hafter

/-- An entry is left out exactly when it is one too many. -/
theorem Counted.uncounted (h : core.Counted history) (committed : Transition)
    (ih : Commitment.uncounted history = 0 ↔ Commitment.Shallow history) :
  Commitment.uncounted (history ++ [⟨core.exceptionLevel, committed⟩]) = 0
    ↔ Commitment.Shallow (history ++ [⟨core.exceptionLevel, committed⟩])
  := by
  have hcount := h.level
  rw [Commitment.shallow_concat, ← ih]
  have hbound := core.exceptionLevel.toNat_lt
  cases committed with
  | enter number =>
    rw [Commitment.uncounted_enter, Commitment.entries_enter, Commitment.returns_enter]
    split <;> omega
  | leave =>
    rw [Commitment.uncounted_leave, Commitment.entries_leave, Commitment.returns_leave]
    omega

/-- The count along a run. -/
theorem Run.counted {others : Bus → Bus → Prop} {last : ThumbCore}
    (hrun : core.Run others bus history last bus') (hlevel : core.exceptionLevel = 0)
    (hhandling : core.inException = false) :
  last.Counted history
    ∧ (Commitment.uncounted history = 0 ↔ Commitment.Shallow history)
  := by
  induction hrun with
  | start =>
    constructor
    · constructor
      · rw [hlevel, hhandling]
        decide
      · rw [hlevel]
        rfl
    · constructor
      · intro _ past hpast
        rw [List.prefix_nil.mp hpast]
        apply Nat.zero_le
      · intro _
        rfl
  | interlude run change ih => apply ih
  | @turn history mid last midBus bus' transition run turn ih =>
    obtain ⟨hcounted, hshallow⟩ := ih
    constructor
    · apply hcounted.turn turn
    · cases transition with
      | none =>
        rw [Option.map_none, Option.toList_none, List.append_nil]
        apply hshallow
      | some committed => apply hcounted.uncounted committed hshallow

/-- Along every run of a core that starts outside exceptions, the level is the number of entries
without the returns and without the entries that found it at 255. None is left out as long as
no more than 255 exceptions are open. While the level is positive the core handles an exception,
and a branch to a return value leaves it; at level zero such a branch is an ordinary one. -/
theorem run_nesting {others : Bus → Bus → Prop} {last : ThumbCore}
    (hlevel : core.exceptionLevel = 0) (hhandling : core.inException = false)
    (hrun : core.Run others bus history last bus') :
  last.exceptionLevel.toNat + Commitment.returns history + Commitment.uncounted history
      = Commitment.entries history
    ∧ (Commitment.uncounted history = 0 ↔ Commitment.Shallow history)
    ∧ (last.inException = true ↔ 0 < last.exceptionLevel)
    ∧ ∀ (target start : Word) (effects : Effects), Exception.isReturn target = true →
      Exception.branch last target start effects
        = if 0 < last.exceptionLevel then Exception.leave start effects
          else pure (effects.jump target)
  := by
  obtain ⟨hcounted, hshallow⟩ := hrun.counted hlevel hhandling
  use hcounted.level, hshallow, hcounted.handling
  intro target start effects htarget
  rw [Exception.branch, htarget, Bool.and_true]
  simp only [hcounted.handling]

/-- The execution of an instruction does not look at the level. -/
theorem execute_level (i : Instruction) (core : ThumbCore) (pc : Word) (level : UInt8) :
  i.execute { core with exceptionLevel := level } pc = i.execute core pc
  := rfl

/-- A core that performs an instruction takes a turn. -/
theorem Performs.turn {i : Instruction} {effects : Effects} (h : core.Performs bus i)
    (hexecute : i.execute core core.pc bus = .ok effects bus') :
  core.Turn bus effects.transition (effects.commit core) bus'
  := by
  have hstep : core.step .empty none bus
      = .ok (.executed i effects.sleeps (effects.commit core)) bus' := by
    have hgoes : ¬ (none ≠ some core.pc ∧ Breakpoints.empty.contains core.pc = true) := by
      simp [Breakpoints.contains, Breakpoints.empty]
    rw [step, if_neg hgoes]
    simp only [h.1]
    rw [perform, if_pos h.2, bind_of_ok _ hexecute]
    rfl
  apply Turn.executed hstep hexecute

end ThumbCore

/-! ### A handler that calls itself -/

instance decidableEqResult {ε σ α : Type} [DecidableEq ε] [DecidableEq σ] [DecidableEq α] :
    DecidableEq (EStateM.Result ε σ α)
  | .ok a s, .ok b t => decidable_of_iff (a = b ∧ s = t) (by rw [EStateM.Result.ok.injEq])
  | .error e s, .error f t => decidable_of_iff (e = f ∧ s = t) (by rw [EStateM.Result.error.injEq])
  | .ok _ _, .error _ _ => isFalse nofun
  | .error _ _, .ok _ _ => isFalse nofun

section Recursion

/-- The instruction `add sp, #32`, which drops a frame. -/
def drop : Instruction :=
  { Instruction.plain .add 0xB008 2 with rd := some 13, rn := some 13, immediate := 32 }

/-- A memory with the code `add sp, #32; svc 0`, which is also the handler of the call, and
with room for one frame. -/
def recursiveCode : Sram :=
  ((Sram.zeroed 40).setValue 0 0xDF00B008 4).setValue 4 0x20000000 4

/-- The bus before the first call. -/
def recursiveProgram : Bus :=
  { Bus.initial 40 with sram := recursiveCode }

/-- The bus with the frame of a call in memory. -/
def recursiveBus (link status : Word) : Bus :=
  { recursiveProgram with
    sram := recursiveCode.setWords 8 [0, 0, 0, 0, 0, link, 0x20000004, status] }

/-- The core before its first call. -/
def recursiveStart : ThumbCore :=
  { ThumbCore.reset 0x20000028 with vtor := 0x1FFFFFD8, pc := 0x20000002 }

/-- The core in the handler at the given level. -/
def recursiveHandler (link : Word) (level : UInt8) : ThumbCore :=
  { recursiveStart with
    sp := 0x20000008
    lr := link
    pc := 0x20000000
    psr := 0x0100000B
    inException := true
    exceptionLevel := level }

/-- The links and frames that occur: what the core returns to, and what the frame holds. -/
def recursiveFrames : List (Word × Word × Word) :=
  [(Exception.returnToThread, 0, 0x01000000),
    (Exception.returnToHandler, Exception.returnToThread, 0x0100000B),
    (Exception.returnToHandler, Exception.returnToHandler, 0x0100000B)]

variable {link saved status : Word}

theorem recursive_code :
  ∀ frame ∈ recursiveFrames,
    (recursiveBus frame.2.1 frame.2.2).instructionAt 0x20000000 = .ok drop
      ∧ (recursiveBus frame.2.1 frame.2.2).instructionAt 0x20000002 = .ok (.plain .svc 0xDF00 2)
  := by
  apply forall_mem_of_all
  decide +kernel

/-- The effects of a call that gives the handler the link value. -/
def recursiveEntry (link : Word) : Effects :=
  { (((Effects.goto 0x20000004).write 13 0x20000008).write 14 link).jump 0x20000000 with
    transition := some (.enter Exception.supervisorCall) }

/-- The core before the call in the handler. -/
def recursiveCaller (link : Word) (level : UInt8) : ThumbCore :=
  { recursiveHandler link level with sp := 0x20000028, pc := 0x20000002 }

theorem recursive_call :
  ∀ frame ∈ recursiveFrames,
    (Instruction.plain .svc 0xDF00 2).execute (recursiveCaller frame.1 0) 0x20000002
        (recursiveBus frame.2.1 frame.2.2)
      = .ok (recursiveEntry Exception.returnToHandler) (recursiveBus frame.1 0x0100000B)
  := by
  apply forall_mem_of_all
  decide +kernel

/-- The call leads back to the handler. -/
theorem recursive_entered (link : Word) (level : UInt8) :
  ∃ deeper, (recursiveEntry Exception.returnToHandler).commit (recursiveCaller link level)
    = recursiveHandler Exception.returnToHandler deeper
  := by
  have hpsr : 0x0100000B &&& ~~~Psr.exceptionNumber ||| Exception.supervisorCall.toUInt32
      = 0x0100000B := by decide
  have hpc : Word.even 0x20000000 = 0x20000000 := by decide
  rw [recursiveEntry, Exception.commit_entered, ThumbCore.setPc, hpc, hpc, Transition.apply]
  simp only [ThumbCore.setExceptionNumber, recursiveCaller, recursiveHandler]
  rw [hpsr]
  use if level = 255 then 255 else level + 1
  rfl

/-- The handler drops the frame and calls itself, one level deeper. -/
theorem recursive_round {level : UInt8} (h : (link, saved, status) ∈ recursiveFrames)
    {start : ThumbCore} {bus : Bus} {history : List Commitment}
    (hrun : start.Run Eq bus history (recursiveHandler link level) (recursiveBus saved status)) :
  ∃ deeper, start.Run Eq bus (history ++ [⟨level, .enter Exception.supervisorCall⟩])
    (recursiveHandler Exception.returnToHandler deeper) (recursiveBus link 0x0100000B)
  := by
  obtain ⟨hdrop, hcall⟩ := recursive_code _ h
  obtain ⟨deeper, hentered⟩ := recursive_entered link level
  have hdropped : drop.execute (recursiveHandler link level) 0x20000000 (recursiveBus saved status)
      = .ok ((Effects.goto 0x20000002).write 13 0x20000028) (recursiveBus saved status) := rfl
  have hcalled : (Instruction.plain .svc 0xDF00 2).execute (recursiveCaller link level) 0x20000002
      (recursiveBus saved status)
      = .ok (recursiveEntry Exception.returnToHandler) (recursiveBus link 0x0100000B) := by
    have hlevel : recursiveCaller link level
        = { recursiveCaller link 0 with exceptionLevel := level } := rfl
    rw [hlevel, ThumbCore.execute_level]
    apply recursive_call _ h
  have hfirst : (recursiveHandler link level).Turn (recursiveBus saved status) none
      (recursiveCaller link level) (recursiveBus saved status) := by
    have hperforms : (recursiveHandler link level).Performs (recursiveBus saved status) drop :=
      And.intro hdrop rfl
    apply hperforms.turn hdropped
  have hsecond : (recursiveCaller link level).Turn (recursiveBus saved status)
      (some (.enter Exception.supervisorCall)) (recursiveHandler Exception.returnToHandler deeper)
      (recursiveBus link 0x0100000B) := by
    have hperforms : (recursiveCaller link level).Performs (recursiveBus saved status)
        (.plain .svc 0xDF00 2) := And.intro hcall rfl
    rw [← hentered]
    apply hperforms.turn hcalled
  have hdone := hrun.turn hfirst
  rw [Option.map_none, Option.toList_none, List.append_nil] at hdone
  use deeper
  apply hdone.turn hsecond

theorem recursive_first :
  recursiveStart.Turn recursiveProgram
    (some (.enter Exception.supervisorCall)) (recursiveHandler Exception.returnToThread 1)
    (recursiveBus 0 0x01000000)
  := by
  have hperforms : recursiveStart.Performs recursiveProgram (.plain .svc 0xDF00 2) := by
    constructor
    · decide +kernel
    · rfl
  have hcalled : (Instruction.plain .svc 0xDF00 2).execute recursiveStart 0x20000002
      recursiveProgram
      = .ok (recursiveEntry Exception.returnToThread) (recursiveBus 0 0x01000000) := by
    decide +kernel
  have hentered : (recursiveEntry Exception.returnToThread).commit recursiveStart
      = recursiveHandler Exception.returnToThread 1 := by
    decide +kernel
  rw [← hentered]
  apply hperforms.turn hcalled

/-- The core is in the handler after `calls` calls and no return. -/
def Recurses (calls : Nat) (link saved status : Word) : Prop :=
  ∃ history level,
    recursiveStart.Run Eq recursiveProgram history
        (recursiveHandler link level) (recursiveBus saved status)
      ∧ Commitment.entries history = calls ∧ Commitment.returns history = 0

theorem recurses_once :
  Recurses 1 Exception.returnToThread 0 0x01000000
  := by
  use [⟨0, .enter Exception.supervisorCall⟩], 1
  use ThumbCore.Run.turn .start recursive_first
  decide

theorem Recurses.again {calls : Nat} (h : Recurses calls link saved status)
    (hframe : (link, saved, status) ∈ recursiveFrames) :
  Recurses (calls + 1) Exception.returnToHandler link 0x0100000B
  := by
  obtain ⟨history, level, hrun, hentries, hreturns⟩ := h
  obtain ⟨deeper, hdeeper⟩ := recursive_round hframe hrun
  use history ++ [⟨level, .enter Exception.supervisorCall⟩], deeper, hdeeper
  rw [Commitment.entries_enter, Commitment.returns_enter]
  use congrArg (· + 1) hentries

/-- There is no end to the calls. -/
theorem recurses (calls : Nat) :
  Recurses (calls + 3) Exception.returnToHandler Exception.returnToHandler 0x0100000B
  := by
  induction calls with
  | zero => apply (recurses_once.again (by decide)).again (by decide)
  | succ calls ih => apply ih.again (by decide)

/-- The level is not always the number of entries without the returns: the 256th entry in a row
is not counted. -/
theorem not_forall_run_level :
  ¬ ∀ (sp vtor pc : Word) (bus bus' : Bus) (history : List Commitment) (last : ThumbCore),
    ThumbCore.Run Eq { ThumbCore.reset sp with vtor, pc } bus history last bus' →
    last.exceptionLevel.toNat + Commitment.returns history = Commitment.entries history
  := by
  intro h
  obtain ⟨history, level, hrun, hentries, hreturns⟩ := recurses 253
  have hlevel := h _ _ _ _ _ _ _ hrun
  have hlt := (recursiveHandler Exception.returnToHandler level).exceptionLevel.toNat_lt
  omega

/-- One call: the handler is at level one, and a branch to a return value leaves it. -/
theorem called_run_nesting :
  recursiveStart.exceptionLevel = 0 ∧ recursiveStart.inException = false
    ∧ (recursiveHandler Exception.returnToThread 1).exceptionLevel.toNat
      + Commitment.returns [⟨0, .enter Exception.supervisorCall⟩]
      + Commitment.uncounted [⟨0, .enter Exception.supervisorCall⟩]
      = Commitment.entries [⟨0, .enter Exception.supervisorCall⟩]
    ∧ ∀ (start : Word) (effects : Effects),
      Exception.branch (recursiveHandler Exception.returnToThread 1) Exception.returnToThread start
        effects = Exception.leave start effects
  := by
  have hrun : recursiveStart.Run Eq recursiveProgram [⟨0, .enter Exception.supervisorCall⟩]
      (recursiveHandler Exception.returnToThread 1) (recursiveBus 0 0x01000000) :=
    .turn .start recursive_first
  obtain ⟨hlevel, _, _, hbranch⟩ := ThumbCore.run_nesting rfl rfl hrun
  use rfl, rfl, hlevel
  intro start effects
  rw [hbranch Exception.returnToThread start effects (by decide), if_pos (by decide)]

end Recursion

end ThumbSoc
