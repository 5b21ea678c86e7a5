import ThumbSoc.Proofs.Breakpoints.Arming

/-!
# Reported breakpoints

A debugger lets a machine run, and resumes it after hits. Several cores may stand on breakpoints
when one of them reports its hit, and a resume arms all of them; so a core can leave a
breakpoint that it has not reported. `passes_accounted` says that this is the only way: a core
that passes a breakpoint has reported a hit there since it arrived, or was released since then
by a resume while it had no hit to be answered. When every resume answers to a hit, that hit was
of another core, and with one core every breakpoint that is passed has been reported.
-/

namespace ThumbSoc

/-! ### What happened since -/

namespace Moment

/-- The core and the address of the hit that a moment reports. -/
def hit? : Moment → Option (Nat × Word)
  | .visit v =>
    match v.result with
    | .ok (.breakpoint index pc) _ => some (index, pc)
    | _ => none
  | .request .. => none

theorem hit?_visit_iff {visit : Visit} {index : Nat} {pc : Word} :
  (Moment.visit visit).hit? = some (index, pc)
    ↔ ∃ after, visit.result = .ok (.breakpoint index pc) after
  := by
  rw [hit?]
  cases visit.result with
  | error e after => simp
  | ok outcome after => cases outcome <;> simp

/-- Whether core `index` gets past an instruction in a moment. -/
def moves (index : Nat) : Moment → Bool
  | .visit v => v.index = index && Machine.passes v.result
  | .request .. => false

/-- Whether the host resumes the machine. -/
def resumes : Moment → Bool
  | .request _ .resume => true
  | _ => false

end Moment

/-- Something happened at one of the moments, and no moment since then is of the breaking
kind. What happened may depend on the moments before it. -/
def Since (breaks : Moment → Bool) (event : List Moment → Moment → Prop)
    (moments : List Moment) : Prop :=
  ∃ earlier moment later, moments = earlier ++ moment :: later ∧ event earlier moment
    ∧ ∀ m ∈ later, breaks m = false

/-- A moment of a history is the last one or one of those before it. -/
theorem concat_eq_append_cons {past earlier later : List Moment} {last moment : Moment}
    (h : past ++ [last] = earlier ++ moment :: later) :
  (past = earlier ∧ last = moment ∧ later = [])
    ∨ ∃ rest, past = earlier ++ moment :: rest ∧ later = rest ++ [last]
  := by
  rcases List.eq_nil_or_concat later with rfl | ⟨rest, final, rfl⟩
  · obtain ⟨rfl, hlast⟩ := List.append_inj' h rfl
    cases hlast
    left
    use rfl, rfl
  · have h : past ++ [last] = (earlier ++ moment :: rest) ++ [final] := by
      rw [h, List.concat_eq_append, List.append_assoc, List.cons_append]
    obtain ⟨rfl, hlast⟩ := List.append_inj' h rfl
    cases hlast
    right
    use rest, rfl, List.concat_eq_append ..

section Since

variable {breaks : Moment → Bool} {event : List Moment → Moment → Prop} {past : List Moment}
  {moment : Moment}

theorem not_since_nil : ¬ Since breaks event [] := by
  rintro ⟨earlier, moment, later, hsplit, _⟩
  cases earlier with
  | nil => cases hsplit
  | cons => cases hsplit

/-- It happened since, if it happens now, or it happened since before and now is not of the
breaking kind. -/
theorem since_concat_iff :
  Since breaks event (past ++ [moment])
    ↔ event past moment ∨ breaks moment = false ∧ Since breaks event past
  := by
  constructor
  · rintro ⟨earlier, first, later, hsplit, hevent, hkeeps⟩
    rcases concat_eq_append_cons hsplit with ⟨rfl, rfl, _⟩ | ⟨rest, rfl, rfl⟩
    · left
      apply hevent
    · right
      use hkeeps moment (List.mem_concat_self ..), earlier, first, rest, rfl, hevent
      intro m hm
      apply hkeeps
      apply List.mem_append_left _ hm
  · rintro (hevent | ⟨hkeeps, earlier, first, later, rfl, hevent, hlater⟩)
    · use past, moment, [], rfl, hevent
      simp
    · use earlier, first, later ++ [moment]
      rw [List.append_assoc, List.cons_append]
      use rfl, hevent
      intro m hm
      rcases List.mem_append.mp hm with hm | hm
      · apply hlater m hm
      · rw [List.mem_singleton.mp hm]
        apply hkeeps

end Since

/-! ### Reports and answers -/

/-- Core `index` reported a hit at `pc` since it arrived where it stands. -/
def Reported (index : Nat) (pc : Word) : List Moment → Prop :=
  Since (·.moves index) fun _ moment => moment.hit? = some (index, pc)

/-- Core `index` reported a hit at `pc` to which no resume has answered. -/
def Pending (index : Nat) (pc : Word) : List Moment → Prop :=
  Since (·.resumes) fun _ moment => moment.hit? = some (index, pc)

/-- Since core `index` arrived where it stands, a resume has come while no hit of the core
awaited an answer. -/
def Released (index : Nat) : List Moment → Prop :=
  Since (·.moves index) fun earlier moment => moment.resumes ∧ ∀ pc, ¬ Pending index pc earlier

/-- Since core `index` arrived where it stands, a resume has answered to a hit of core
`other`. -/
def ReleasedBy (other index : Nat) : List Moment → Prop :=
  Since (·.moves index) fun earlier moment => moment.resumes ∧ ∃ pc, Pending other pc earlier

/-- A machine under a debugger: it is stepped and resumed, and nothing else happens to it. -/
def Debugged (moments : List Moment) : Prop :=
  ∀ machine operation, .request machine operation ∈ moments → operation = .resume

/-- Every resume answers to a hit. -/
def Answering (moments : List Moment) : Prop :=
  ∀ earlier moment later, moments = earlier ++ moment :: later → moment.resumes →
    ∃ index pc, Pending index pc earlier

theorem Debugged.of_append {first rest : List Moment} (h : Debugged (first ++ rest)) :
  Debugged first
  := by
  intro machine operation hmem
  apply h machine operation
  apply List.mem_append_left _ hmem

theorem Answering.nil : Answering [] := by
  intro earlier moment later hsplit
  cases earlier with
  | nil => cases hsplit
  | cons => cases hsplit

theorem Answering.concat {past : List Moment} {moment : Moment} (h : Answering past)
    (hanswers : moment.resumes → ∃ index pc, Pending index pc past) :
  Answering (past ++ [moment])
  := by
  intro earlier first later hsplit hresumes
  rcases concat_eq_append_cons hsplit with ⟨rfl, rfl, _⟩ | ⟨rest, hpast, _⟩
  · apply hanswers hresumes
  · apply h earlier first rest hpast hresumes

/-! ### The account -/

namespace Machine

variable {machine : Machine} {index : Nat}

/-- Every core that is armed where it stands is accounted for, and every core with a pending
hit still stands there and is not armed. -/
structure Account (count : Nat) (past : List Moment) (machine : Machine) : Prop where
  size : machine.slots.size = count
  armed : ∀ index slot, machine.slots[index]? = some slot →
    slot.armed = some slot.core.pc → Reported index slot.core.pc past ∨ Released index past
  pending : ∀ index pc, Pending index pc past →
    ∃ slot, machine.slots[index]? = some slot ∧ slot.core.pc = pc ∧ slot.armed = none
      ∧ machine.breakpoints.contains pc ∧ Reported index pc past

variable {count : Nat} {past : List Moment}

theorem Account.start (hsize : machine.slots.size = count)
    (hunarmed : ∀ slot ∈ machine.slots, slot.armed = none) :
  machine.Account count []
  where
  size := hsize
  armed index slot hslot harmed := by
    rw [hunarmed slot (Array.mem_of_getElem? hslot)] at harmed
    cases harmed
  pending index pc hpending := by cases not_since_nil hpending

/-- A resume answers to the hit of a core, or releases the core. -/
theorem Account.resume (h : machine.Account count past) :
  machine.resume.Account count (past ++ [.request machine .resume])
  where
  size := Array.size_map.trans h.size
  armed index slot hslot harmed := by
    obtain ⟨before, hbefore, hcore⟩ :
        ∃ before, machine.slots[index]? = some before ∧ slot.core = before.core := by
      simp only [Machine.resume, Array.getElem?_map] at hslot
      obtain ⟨before, hbefore, rfl⟩ := Option.map_eq_some_iff.mp hslot
      use before, hbefore
      split
      · rfl
      · rfl
    rw [hcore]
    by_cases hpending : ∃ pc, Pending index pc past
    · obtain ⟨pc, hpending⟩ := hpending
      obtain ⟨hit, hhit, hpc, _, _, hreported⟩ := h.pending index pc hpending
      rw [hhit] at hbefore
      cases hbefore
      rw [hpc]
      left
      apply since_concat_iff.mpr (.inr ⟨rfl, hreported⟩)
    · right
      apply since_concat_iff.mpr (.inl ⟨rfl, not_exists.mp hpending⟩)
  pending index pc hpending := by
    rcases since_concat_iff.mp hpending with hhit | ⟨hkeeps, _⟩
    · cases hhit
    · cases hkeeps

/-- A visit moves no core that has a pending hit, and disarms the cores that it moves. -/
theorem Account.visit {visit : Visit} (h : visit.machine.Account count past)
    (hstepped : visit.machine.Stepped visit.index visit.result) :
  (resultState visit.result).Account count (past ++ [.visit visit])
  := by
  have stays {i : Nat} (hi : i ≠ visit.index) : (Moment.visit visit).moves i = false := by
    simp [Moment.moves, hi.symm]
  have keeps {i : Nat} {pc : Word} (hstays : (Moment.visit visit).moves i = false)
      (h : Reported i pc past ∨ Released i past) :
      Reported i pc (past ++ [.visit visit]) ∨ Released i (past ++ [.visit visit]) :=
    h.imp (fun h => since_concat_iff.mpr (.inr ⟨hstays, h⟩))
      (fun h => since_concat_iff.mpr (.inr ⟨hstays, h⟩))
  have rests (hpasses : passes visit.result = false) :
      (Moment.visit visit).moves visit.index = false := by
    rw [Moment.moves, hpasses, Bool.and_false]
  constructor
  case size => apply hstepped.size.trans h.size
  case armed =>
    intro index slot hslot harmed
    by_cases hi : index = visit.index
    · subst hi
      obtain ⟨before, hbefore⟩ : ∃ before, visit.machine.slots[visit.index]? = some before := by
        obtain ⟨hlt, _⟩ := Array.getElem?_eq_some_iff.mp hslot
        rw [hstepped.size] at hlt
        use visit.machine.slots[visit.index]
        apply Array.getElem?_eq_getElem hlt
      obtain ⟨after, hafter, hvisited⟩ := hstepped.visited hbefore
      rw [hafter] at hslot
      cases hslot
      generalize hpasses : passes visit.result = moved at hvisited
      cases hvisited with
      | rests waits => apply keeps (rests hpasses) (h.armed visit.index _ hbefore harmed)
      | stays runs disarmed =>
        rw [disarmed] at harmed
        cases harmed
      | moves runs disarmed =>
        rw [disarmed] at harmed
        cases harmed
    · rw [hstepped.others hi] at hslot
      apply keeps (stays hi) (h.armed index slot hslot harmed)
  case pending =>
    intro index pc hpending
    obtain ⟨_, _, hbreakpoints, _⟩ := hstepped.frame
    rw [hbreakpoints]
    rcases since_concat_iff.mp hpending with hhit | ⟨_, hpending⟩
    · -- The hit is reported now.
      obtain ⟨last, hresult⟩ := Moment.hit?_visit_iff.mp hhit
      obtain ⟨slot, core, hslot, hruns, hcore, rfl, rfl, _, hcontains, _⟩ :=
        stepCore_breakpoint hresult
      obtain ⟨after, hafter, hvisited⟩ := hstepped.visited hslot
      have hpasses : passes visit.result = false := by
        rw [hresult]
        rfl
      rw [hpasses] at hvisited
      have hreported : Reported visit.index core.pc (past ++ [.visit visit]) :=
        since_concat_iff.mpr (.inl hhit)
      cases hvisited with
      | rests waits =>
        rw [hruns] at waits
        cases waits
      | stays runs disarmed core =>
        use after, hafter
        rw [core, hcore]
        use rfl, disarmed, hcontains
    · obtain ⟨slot, hslot, hpc, hunarmed, hcontains, hreported⟩ := h.pending index pc hpending
      by_cases hi : index = visit.index
      · subst hi
        obtain ⟨after, hafter, hvisited⟩ := hstepped.visited hslot
        use after, hafter
        generalize hpasses : passes visit.result = moved at hvisited
        cases hvisited with
        | rests waits =>
          use hpc, hunarmed, hcontains
          apply since_concat_iff.mpr (.inr ⟨rests hpasses, hreported⟩)
        | stays runs disarmed core =>
          rw [core]
          use hpc, disarmed, hcontains
          apply since_concat_iff.mpr (.inr ⟨rests hpasses, hreported⟩)
        | moves runs disarmed free =>
          rw [← hpc] at hcontains
          have harmed := free hcontains
          rw [hunarmed] at harmed
          cases harmed
      · use slot
        rw [hstepped.others hi]
        use hslot, hpc, hunarmed, hcontains
        apply since_concat_iff.mpr (.inr ⟨stays hi, hreported⟩)

/-- Under a debugger, every moment keeps the account. -/
theorem Leads.account {after : Machine} {moment : Moment} (hleads : Leads machine moment after)
    (h : Debugged past → machine.Account count past) (hdebugged : Debugged (past ++ [moment])) :
  after.Account count (past ++ [moment])
  := by
  have h := h hdebugged.of_append
  cases moment with
  | visit visit =>
    obtain ⟨⟨cursor, hmachine⟩, hstepped, rfl⟩ := hleads.stepped
    apply Account.visit _ hstepped
    rw [hmachine]
    exact { h with }
  | request _ operation =>
    have hresume := hdebugged _ operation (List.mem_concat_self ..)
    subst hresume
    cases hleads with
    | request idle => apply h.resume

theorem Account.index_lt {pc : Word} (h : machine.Account count past)
    (hpending : Pending index pc past) :
  index < count
  := by
  obtain ⟨slot, hslot, _⟩ := h.pending index pc hpending
  obtain ⟨hlt, _⟩ := Array.getElem?_eq_some_iff.mp hslot
  rw [← h.size]
  apply hlt

/-! ### Machines that nobody has resumed -/

/-- A moment of an operation resumes the machine only if the operation does. -/
theorem eq_resume_of_moments {operation : Operation} {moment : Moment}
    (h : moment ∈ machine.moments operation) (hresumes : moment.resumes) :
  operation = .resume
  := by
  have impossible (path : List Visit) {P : Prop} (h : moment ∈ path.map .visit) : P := by
    obtain ⟨v, _, rfl⟩ := List.mem_map.mp h
    cases hresumes
  cases operation with
  | resume => rfl
  | step => apply impossible [machine.turn] h
  | stepCore index => apply impossible [⟨machine, index⟩] h
  | runCycles budget => apply impossible _ h
  | runUntilHalt => apply impossible _ h
  | _ =>
    rw [List.mem_singleton.mp h] at hresumes
    cases hresumes

theorem resume_mem_of_history {operations : List Operation} {moment : Moment}
    (h : moment ∈ machine.history operations) (hresumes : moment.resumes) :
  .resume ∈ operations
  := by
  induction operations generalizing machine with
  | nil => cases h
  | cons operation rest ih =>
    rcases List.mem_append.mp h with h | h
    · rw [eq_resume_of_moments h hresumes]
      apply List.mem_cons_self
    · apply List.mem_cons_of_mem _ (ih h)

theorem armedAfter_eq_none {moments : List Moment}
    (h : ∀ moment ∈ moments, moment.resumes = false) :
  armedAfter index moments = none
  := by
  apply List.foldlRecOn (motive := (· = none)) moments (Moment.arm index) rfl
  intro armed harmed moment hmoment
  rw [harmed]
  cases moment with
  | visit v =>
    rw [Moment.arm]
    split
    · rfl
    · rfl
  | request machine operation =>
    cases operation with
    | resume => cases h _ hmoment
    | _ => rfl

/-- No core is armed until the machine is resumed. -/
theorem unarmed_performAll {config : Config} (hcreate : create config = .ok machine)
    {setup : List Operation} (hsetup : .resume ∉ setup) :
  ∀ slot ∈ (machine.performAll setup).slots, slot.armed = none
  := by
  intro slot hslot
  obtain ⟨index, hindex⟩ := Array.mem_iff_getElem?.mp hslot
  have hcourse := machine.performAll_course setup
  have harmed := hcourse.keeps (fun hleads h => hleads.armedBy h) (create_armedBy hcreate)
  rw [harmed index slot.armed (by rw [arms, Array.getElem?_map, hindex, Option.map_some])]
  apply armedAfter_eq_none
  intro moment hmoment
  apply Bool.eq_false_iff.mpr
  intro hresumes
  apply hsetup (resume_mem_of_history hmoment hresumes)

theorem size_performAll {config : Config} (hcreate : create config = .ok machine)
    (operations : List Operation) :
  (machine.performAll operations).slots.size = config.coreCount
  := by
  have hstable := Core.Sound.stable config
  apply ((Sound.create hstable hcreate).performAll hstable _).slots
  intro operation _
  apply operation.respects_sound

/-! ### Breakpoints that are passed -/

/-- The account holds at every moment of a history under a debugger. -/
theorem history_account {config : Config} (hcreate : create config = .ok machine)
    {setup operations : List Operation} (hsetup : .resume ∉ setup)
    (hdebugged : Debugged ((machine.performAll setup).history operations))
    {before later : List Moment} {moment : Moment}
    (hhistory : (machine.performAll setup).history operations = before ++ moment :: later) :
  ∃ current after, current.Account config.coreCount before ∧ Leads current moment after
  := by
  have hcourse := (machine.performAll setup).performAll_course operations
  obtain ⟨current, after, haccount, hleads⟩ :=
    hcourse.along (P := fun past machine => Debugged past → machine.Account config.coreCount past)
      (fun hleads h => hleads.account h)
      (fun _ => .start (size_performAll hcreate setup) (unarmed_performAll hcreate hsetup))
      hhistory
  rw [hhistory] at hdebugged
  use current, after, haccount hdebugged.of_append

/-- A running core that stands on a breakpoint and does not stop there is armed there. -/
theorem armed_of_passes {slot : Slot} {core : ThumbCore} (hslot : machine.slots[index]? = some slot)
    (hruns : slot.state = .running) (hcore : slot.core = .thumb core)
    (hstands : machine.breakpoints.contains core.pc)
    (hpasses : ∀ after, machine.stepCore index ≠ .ok (.breakpoint index core.pc) after) :
  slot.armed = some core.pc
  := by
  apply Decidable.byContradiction
  intro hunarmed
  have hruns : slot.state.isRunning = true := by
    rw [hruns]
    rfl
  obtain ⟨after, hhit⟩ := stepCore_stops hslot hruns hcore hunarmed hstands
  apply hpasses after hhit

/-- Whatever breakpoints are set and however the cores are set up: when the machine is then
stepped, run and resumed, and a running core that stands on a breakpoint is stepped and does not
stop there, the core has reported a hit there since it arrived, or it was released since then
by a resume while it had no hit to be answered. If all resumes answer to hits, it was released in
answer to a hit of another core; so the only core of a machine has reported. -/
theorem passes_accounted {config : Config} (hcreate : create config = .ok machine)
    {setup operations : List Operation} (hsetup : .resume ∉ setup)
    (hdebugged : Debugged ((machine.performAll setup).history operations))
    {before later : List Moment} {visit : Visit}
    (hhistory : (machine.performAll setup).history operations = before ++ .visit visit :: later)
    {slot : Slot} {core : ThumbCore} (hslot : visit.slot? = some slot)
    (hruns : slot.state = .running) (hcore : slot.core = .thumb core)
    (hstands : visit.machine.breakpoints.contains core.pc)
    (hpasses : ∀ after, visit.result ≠ .ok (.breakpoint visit.index core.pc) after) :
  (Reported visit.index core.pc before ∨ Released visit.index before)
    ∧ (Answering before → Reported visit.index core.pc before
      ∨ ∃ other, other ≠ visit.index ∧ other < config.coreCount
        ∧ ReleasedBy other visit.index before)
    ∧ (Answering before → config.coreCount = 1 → Reported visit.index core.pc before)
  := by
  obtain ⟨current, _, haccount, hleads⟩ := history_account hcreate hsetup hdebugged hhistory
  obtain ⟨⟨cursor, hmachine⟩, _, _⟩ := hleads.stepped
  have harmed := armed_of_passes hslot hruns hcore hstands hpasses
  have hpc : slot.core.pc = core.pc := by
    rw [hcore]
    rfl
  rw [Visit.slot?, hmachine] at hslot
  have haccounted : Reported visit.index core.pc before ∨ Released visit.index before := by
    rw [← hpc] at harmed ⊢
    apply haccount.armed visit.index slot hslot harmed
  have hanswered (hanswering : Answering before) : Reported visit.index core.pc before
      ∨ ∃ other, other ≠ visit.index ∧ other < config.coreCount
        ∧ ReleasedBy other visit.index before := by
    apply haccounted.imp_right
    rintro ⟨earlier, moment, rest, rfl, ⟨hresumes, hnone⟩, hstays⟩
    obtain ⟨other, pc, hpending⟩ := hanswering earlier moment rest rfl hresumes
    rw [List.append_assoc, List.cons_append] at hhistory
    obtain ⟨_, _, hearlier, _⟩ := history_account hcreate hsetup hdebugged hhistory
    use other
    constructor
    · rintro rfl
      apply hnone pc hpending
    · use hearlier.index_lt hpending, earlier, moment, rest, rfl, ⟨hresumes, pc, hpending⟩
  use haccounted, hanswered
  intro hanswering hone
  rcases hanswered hanswering with hreported | ⟨other, hother, hlt, _⟩
  · apply hreported
  · obtain ⟨hindex, _⟩ := Array.getElem?_eq_some_iff.mp hslot
    change visit.index < current.slots.size at hindex
    rw [haccount.size] at hindex
    omega

/-! ### Two cores on one breakpoint -/

section Pair

/-- Two running cores. -/
def pair : Config := { coreCount := 2, sramSize := 4, dormantSecondaries := false }

/-- Both cores are put on a breakpoint. -/
def pairSetup : List Operation :=
  [.setRegister 0 15 sramBase, .setRegister 1 15 sramBase, .addBreakpoint sramBase]

/-- The first core hits the breakpoint, and the second one has its turn after the resume. -/
def pairSession : List Operation :=
  [.step, .resume, .step]

/-- The cores, once they are set up. -/
def pairCore : ThumbCore :=
  { (ThumbCore.reset (sramBase + 4)).setPc sramBase with vtor := sramBase }

def pairReady : Machine where
  config := pair
  slots := #[⟨.thumb pairCore, .running, none⟩, ⟨.thumb pairCore, .running, none⟩]
  bus := .initial 4
  breakpoints := ⟨#[sramBase]⟩
  cycles := 0
  halted := false
  breakpointHit := false
  cursor := 0
  recorder := none

def pairResumed : Machine :=
  (pairReady.perform .step).perform .resume

/-- What has happened when the second core has its turn. -/
def pairPast : List Moment :=
  [.visit pairReady.turn, .request (pairReady.perform .step) .resume]

theorem pair_hit : (Moment.visit pairReady.turn).hit? = some (0, sramBase)
  := by with_unfolding_all rfl

/-- The resume answers to the hit. -/
theorem pair_answering : Answering pairPast := by
  have hpending : Pending 0 sramBase ([] ++ [.visit pairReady.turn]) :=
    since_concat_iff.mpr (.inl pair_hit)
  apply (Answering.nil.concat _).concat (fun _ => ⟨0, sramBase, hpending⟩)
  nofun

/-- The session is one under a debugger. -/
theorem pair_debugged :
  ∃ machine, create pair = .ok machine ∧ .resume ∉ pairSetup
    ∧ Debugged ((machine.performAll pairSetup).history pairSession)
    ∧ (machine.performAll pairSetup).history pairSession
      = pairPast ++ .visit pairResumed.turn :: []
  := by
  obtain ⟨machine, hcreate⟩ : ∃ machine, create pair = .ok machine := ⟨_, rfl⟩
  have hready : machine.performAll pairSetup = pairReady := by
    cases hcreate
    with_unfolding_all rfl
  use machine, hcreate
  rw [hready]
  constructor
  · simp [pairSetup]
  have hhistory : pairReady.history pairSession = pairPast ++ .visit pairResumed.turn :: [] := rfl
  rw [hhistory]
  constructor
  · intro _ operation hmem
    simp only [pairPast, List.cons_append, List.nil_append, List.mem_cons, reduceCtorEq,
      Moment.request.injEq, List.not_mem_nil, false_or, or_false] at hmem
    apply hmem.2
  · rfl

theorem pair_passes : passes pairResumed.turn.result
  := by with_unfolding_all rfl

theorem pair_slot : pairResumed.turn.slot? = some ⟨.thumb pairCore, .running, some sramBase⟩
  := by with_unfolding_all rfl

theorem pair_stands : pairResumed.turn.machine.breakpoints.contains pairCore.pc
  := by with_unfolding_all rfl

theorem pair_index : pairResumed.turn.index = 1
  := by with_unfolding_all rfl

/-- The second core passes the breakpoint, and the hit of the first core is the only report. -/
theorem pair_unreported : ¬ Reported 1 sramBase pairPast := by
  have hpast : pairPast =
      [] ++ [.visit pairReady.turn] ++ [.request (pairReady.perform .step) .resume] := rfl
  rw [hpast]
  intro hreported
  rcases since_concat_iff.mp hreported with hhit | ⟨_, hreported⟩
  · cases hhit
  · rcases since_concat_iff.mp hreported with hhit | ⟨_, hreported⟩
    · rw [pair_hit] at hhit
      cases hhit
    · cases not_since_nil hreported

/-- A core can pass a breakpoint without a report of its own, although every resume answers to
a hit. -/
theorem not_forall_passes_reported :
  ¬ ∀ (config : Config) (machine : Machine) (setup operations : List Operation)
      (before later : List Moment) (visit : Visit) (slot : Slot) (core : ThumbCore),
    create config = .ok machine → .resume ∉ setup →
    Debugged ((machine.performAll setup).history operations) →
    Answering ((machine.performAll setup).history operations) →
    (machine.performAll setup).history operations = before ++ .visit visit :: later →
    visit.slot? = some slot → slot.state = .running → slot.core = .thumb core →
    visit.machine.breakpoints.contains core.pc → passes visit.result →
    Reported visit.index core.pc before
  := by
  intro h
  obtain ⟨machine, hcreate, hsetup, hdebugged, hhistory⟩ := pair_debugged
  have hanswering : Answering ((machine.performAll pairSetup).history pairSession) := by
    rw [hhistory]
    apply pair_answering.concat
    nofun
  have hreported := h _ _ _ _ _ _ _ _ _ hcreate hsetup hdebugged hanswering hhistory pair_slot
    rfl rfl pair_stands pair_passes
  rw [pair_index] at hreported
  apply pair_unreported hreported

theorem pair_passes_accounted :
  ∃ machine, create pair = .ok machine ∧ .resume ∉ pairSetup
    ∧ Debugged ((machine.performAll pairSetup).history pairSession)
    ∧ (machine.performAll pairSetup).history pairSession
      = pairPast ++ .visit pairResumed.turn :: []
    ∧ Answering pairPast
    ∧ passes pairResumed.turn.result
    ∧ ReleasedBy 0 1 pairPast
  := by
  obtain ⟨machine, hcreate, hsetup, hdebugged, hhistory⟩ := pair_debugged
  have hgoes : ∀ after, pairResumed.turn.result
      ≠ .ok (.breakpoint pairResumed.turn.index pairCore.pc) after := by
    intro after hhit
    have hpasses := pair_passes
    rw [hhit] at hpasses
    cases hpasses
  use machine, hcreate, hsetup, hdebugged, hhistory, pair_answering, pair_passes
  obtain ⟨_, hanswered, _⟩ :=
    passes_accounted hcreate hsetup hdebugged hhistory pair_slot rfl rfl pair_stands hgoes
  rw [pair_index] at hanswered
  rcases hanswered pair_answering with hreported | ⟨other, hother, hlt, hreleased⟩
  · cases pair_unreported hreported
  · have hother : other = 0 := by
      change other < 2 at hlt
      omega
    rw [hother] at hreleased
    apply hreleased

end Pair

end Machine

end ThumbSoc
