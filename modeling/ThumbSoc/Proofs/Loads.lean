import ThumbSoc.Proofs.Stores

/-!
# The loads of an instruction

Which reads of the bus an instruction makes, and in which order. A return from an exception reads
its frame; whether there is one may depend on a value that was loaded before.

An executed instruction makes exactly these loads, and then its stores. What it does to the core
depends on nothing of the bus but what the loads find. An instruction that fails has made the loads
before the one that was rejected, or all of them before a store was rejected, or none at all if it
was refused from the start.

The main statement is `execute_found`.
-/

namespace ThumbSoc

/-- A load at an address. -/
structure Load where
  address : Word
  width : Width
  deriving DecidableEq, Repr

/-- The loads of consecutive words. -/
def wordLoads (start : Word) : Nat → List Load
  | 0 => []
  | count + 1 => ⟨start, .word⟩ :: wordLoads (start + 4) count

/-- The loads of a branch: the frame, if the branch leaves an exception. -/
def Exception.branchLoads (core : ThumbCore) (target start : Word) : List Load :=
  if core.inException && isReturn target then wordLoads start frameWords else []

namespace Instruction

variable (i : Instruction) (core : ThumbCore) (pc : Word) (bus : Bus)

/-- The value that a load puts into its register, from what the bus shows. -/
def loadedValue (raw : Word) : Word :=
  if i.signed then i.width.signExtend raw else raw

/-- The loads of a load, which may be a branch. -/
def loadLoads : List Load :=
  match i.rd with
  | none => []
  | some rt =>
    ⟨i.address core pc, i.width⟩ ::
      match Bus.read (i.address core pc) i.width bus with
      | .ok raw _ =>
        if rt = 15 then Exception.branchLoads core (i.loadedValue raw) core.sp else []
      | .error .. => []

/-- The loads of a load from the stack, which may be a branch. -/
def popLoads : List Load :=
  wordLoads core.sp i.registers.size ++
    match Bus.readWords core.sp i.registers.size bus with
    | .ok values _ =>
      match (i.registers.numbers.zip values).lookup 15 with
      | some target =>
        Exception.branchLoads core target (core.sp + 4 * UInt32.ofNat i.registers.size)
      | none => []
    | .error .. => []

/-- The loads of an instruction at `pc`, in order. -/
def loads : List Load :=
  match i.opcode with
  | .ldr => i.loadLoads core pc bus
  | .ldm =>
    match i.rn with
    | none => []
    | some rn => wordLoads (core.operand pc rn) i.registers.size
  | .pop => i.popLoads core bus
  | .bx => Exception.branchLoads core (core.operandOr pc i.rm 0) core.sp
  | .svc => [⟨core.vtor + 4 * Exception.supervisorCall.toUInt32, .word⟩]
  | _ => []

end Instruction

/-! ### Performing loads -/

namespace Bus

variable {bus mid bus' : Bus}

/-- Makes loads one after the other. -/
def performLoads : List Load → Transfer (List Word)
  | [] => pure []
  | load :: rest => do
    let value ← read load.address load.width
    let values ← performLoads rest
    return value :: values

/-- What loads find, one after the other, up to the first load that is rejected. -/
def found : List Load → Bus → List (Load × Word)
  | [], _ => []
  | load :: rest, bus =>
    match Bus.read load.address load.width bus with
    | .ok value bus => (load, value) :: found rest bus
    | .error .. => []

/-- Loads that succeed yield what they find. -/
theorem found_of_ok {loads : List Load} {values : List Word}
    (h : performLoads loads bus = .ok values bus') :
  found loads bus = loads.zip values
  := by
  induction loads generalizing bus values with
  | nil => rfl
  | cons load rest ih =>
    obtain ⟨value, mid, hread, hrest⟩ := bind_eq_ok.mp h
    obtain ⟨tail, _, htail, hpure⟩ := bind_eq_ok.mp hrest
    cases hpure
    rw [found, hread]
    exact congrArg _ (ih htail)

theorem performLoads_nil {loads : List Load} (h : loads = []) (bus : Bus) :
  performLoads loads bus = .ok [] bus
  := by
  rw [h]
  rfl

theorem performLoads_singleton {load : Load} {value : Word} :
  performLoads [load] bus = .ok [value] bus'
    ↔ Bus.read load.address load.width bus = .ok value bus'
  := by
  rw [performLoads]
  constructor
  · intro h
    obtain ⟨found, mid, hread, hpure⟩ := bind_eq_ok.mp h
    cases hpure
    exact hread
  · intro h
    rw [bind_of_ok _ h]
    rfl

theorem performLoads_length {loads : List Load} {values : List Word}
    (h : performLoads loads bus = .ok values bus') :
  values.length = loads.length
  := by
  induction loads generalizing bus values with
  | nil =>
    cases h
    rfl
  | cons load rest ih =>
    obtain ⟨value, mid, _, hrest⟩ := bind_eq_ok.mp h
    obtain ⟨tail, _, htail, hpure⟩ := bind_eq_ok.mp hrest
    cases hpure
    exact congrArg Nat.succ (ih htail)

theorem performLoads_words (start : Word) (count : Nat) :
  performLoads (wordLoads start count) = readWords start count
  := by
  induction count generalizing start with
  | zero => rfl
  | succ count ih => rw [wordLoads, performLoads, readWords, ih]

theorem performLoads_append (first second : List Load) :
  performLoads (first ++ second)
    = (do
      let values ← performLoads first
      let values' ← performLoads second
      return values ++ values')
  := by
  induction first with
  | nil => simp only [List.nil_append, performLoads, pure_bind, bind_pure]
  | cons load rest ih =>
    simp only [List.cons_append, performLoads, ih, bind_assoc, pure_bind]

/-- Loads take bytes out of the receive queues, and change nothing else. -/
theorem performLoads_drained (loads : List Load) :
  Keeps Drained (performLoads loads)
  := by
  induction loads with
  | nil => exact Keeps.pure Drained.refl []
  | cons load rest ih =>
    apply bind_drained (read_drained load.address load.width)
    intro value
    apply bind_drained ih
    intro values
    exact Keeps.pure Drained.refl _

theorem readWords_drained (start : Word) (count : Nat) :
  Keeps Drained (readWords start count)
  := by
  rw [← performLoads_words]
  exact performLoads_drained (wordLoads start count)

/-- A computation makes certain loads, one after the other, and nothing else on the bus. If they
succeed, its value depends on nothing but what they find, and if one is rejected, it fails there. -/
inductive Loading {α : Type} (loads : List Load) (transfer : Transfer α) (bus : Bus) : Prop where
  | succeeds {value : α} {values : List Word} {bus' : Bus}
      (loaded : performLoads loads bus = .ok values bus')
      (yields : ∀ other other', performLoads loads other = .ok values other' →
        transfer other = .ok value other')
  | fails {cause : BusFault} {bus' : Bus}
      (rejected : performLoads loads bus = .error cause bus')
      (failure : transfer bus = .error cause bus')

namespace Loading

variable {α β : Type} {loads first second : List Load} {transfer : Transfer α}

theorem pure (bus : Bus) (value : α) :
  Loading [] (Pure.pure value : Transfer α) bus
  := by
  apply succeeds rfl
  intro other other' hloaded
  cases hloaded
  rfl

theorem bind {next : α → Transfer β} (hfirst : Loading first transfer bus)
    (hsecond : ∀ value mid, transfer bus = .ok value mid → Loading second (next value) mid) :
  Loading (first ++ second) (transfer >>= next) bus
  := by
  cases hfirst with
  | fails rejected failure =>
    apply fails
    · rw [performLoads_append, bind_of_error _ rejected]
    · exact bind_of_error next failure
  | succeeds loaded yields =>
    have hvalue := yields _ _ loaded
    cases hsecond _ _ hvalue with
    | fails rejected failure =>
      apply fails
      · rw [performLoads_append, bind_of_ok _ loaded, bind_of_error _ rejected]
      · rw [bind_of_ok next hvalue, failure]
    | succeeds loaded' yields' =>
      apply succeeds
      · rw [performLoads_append, bind_of_ok _ loaded, bind_of_ok _ loaded']
        rfl
      · intro other other' hother
        rw [performLoads_append] at hother
        obtain ⟨found, mid, hfound, hrest⟩ := bind_eq_ok.mp hother
        obtain ⟨found', _, hfound', hpure⟩ := bind_eq_ok.mp hrest
        injection hpure with happend hsame
        have hlength := (performLoads_length hfound).trans (performLoads_length loaded).symm
        obtain ⟨rfl, rfl⟩ := List.append_inj happend hlength
        rw [bind_of_ok next (yields _ _ hfound), ← hsame]
        exact yields' _ _ hfound'

/-- What is made of the loaded values makes no transfers. -/
theorem map (h : Loading loads transfer bus) (f : α → β) :
  Loading loads (transfer >>= fun value => Pure.pure (f value)) bus
  := by
  rw [← List.append_nil loads]
  exact h.bind fun value mid _ => .pure mid (f value)

theorem readWords (start : Word) (count : Nat) (bus : Bus) :
  Loading (wordLoads start count) (Bus.readWords start count) bus
  := by
  rw [← performLoads_words]
  cases hread : performLoads (wordLoads start count) bus with
  | ok values bus' => exact .succeeds hread fun _ _ hother => hother
  | error cause bus' => exact .fails hread hread

theorem read (address : Word) (width : Width) (bus : Bus) :
  Loading [⟨address, width⟩] (Bus.read address width) bus
  := by
  cases hread : Bus.read address width bus with
  | ok value bus' =>
    apply succeeds (performLoads_singleton.mpr hread)
    intro other other' hother
    exact performLoads_singleton.mp hother
  | error cause bus' =>
    apply fails _ hread
    rw [performLoads, bind_of_error _ hread]

end Loading

end Bus

/-! ### The loads of the operations -/

open Bus

theorem Exception.branch_loading (core : ThumbCore) (target start : Word) (before : Effects)
    (bus : Bus) :
  Loading (branchLoads core target start) (branch core target start before) bus
  := by
  rw [branchLoads, branch]
  split
  · exact (Loading.readWords start frameWords bus).map _
  · exact .pure bus _

namespace Instruction

section Operations

variable (i : Instruction) (core : ThumbCore) (pc : Word) (bus : Bus)

theorem load_loading :
  Loading (i.loadLoads core pc bus) (i.load core pc) bus
  := by
  rw [loadLoads, load]
  cases i.rd with
  | none => exact .pure bus _
  | some rt =>
    simp only
    rw [← List.singleton_append]
    apply (Loading.read _ _ bus).bind
    intro raw mid hread
    simp only [hread]
    by_cases hbranch : rt = 15
    · simp only [if_pos hbranch]
      exact Exception.branch_loading core _ core.sp _ mid
    · simp only [if_neg hbranch]
      exact .pure mid _

theorem loadMultiple_loading {rn : Nat} (hrn : i.rn = some rn) :
  Loading (wordLoads (core.operand pc rn) i.registers.size) (i.loadMultiple core pc) bus
  := by
  rw [loadMultiple, hrn]
  exact (Loading.readWords _ _ bus).map _

theorem pop_loading :
  Loading (i.popLoads core bus) (i.pop core pc) bus
  := by
  rw [popLoads]
  apply (Loading.readWords _ _ bus).bind
  intro values mid hread
  simp only [hread]
  cases (i.registers.numbers.zip values).lookup 15 with
  | none => exact .pure mid _
  | some target => exact Exception.branch_loading core target _ _ mid

end Operations

/-- Entering an exception depends on nothing but the vector, if the frame can be stored. -/
theorem enter_determined (core : ThumbCore) (number : UInt8) (before : Effects) (handler : Word) :
  ∃ effects, ∀ bus mid bus',
    Bus.read (core.vtor + 4 * number.toUInt32) .word bus = .ok handler mid →
    writeWords (Exception.frameBelow core.sp) (Exception.frame core before.nextPc) mid
      = .ok () bus' →
    Exception.enter core number before bus = .ok effects bus'
  := by
  apply Exists.intro
  intro bus mid bus' hread hwrite
  -- The read leaves the size of memory alone, so the frame is routed before it, too.
  have hdrained := read_drained (core.vtor + 4 * number.toUInt32) .word bus
  rw [hread] at hdrained
  have hrouted := (writeWords_routed hwrite).congr (congrArg Sram.size hdrained.sram).symm
  rcases probeWords_routed bus (Exception.frameBelow core.sp) Exception.frameWords with
    ⟨_, hprobe⟩ | ⟨hunrouted, _⟩
  · rw [Exception.enter, bind_of_ok _ hprobe, bind_of_ok _ hread,
      bind_of_ok _ (storeWords_of_writeWords hwrite)]
    rfl
  · exact absurd hrouted hunrouted

/-! ### Executed instructions -/

variable {i : Instruction} {core : ThumbCore} {pc : Word} {bus mid : Bus}

/-- What the execution of an instruction reads on a bus, load by load, and how it ends. All loads
come before the first store. -/
inductive Accesses (i : Instruction) (core : ThumbCore) (pc : Word) (bus : Bus) :
    List (Load × Word) → EStateM.Result CoreFault Bus Effects → Prop where
  /-- It goes on with what its loads find, and makes its stores. Its effects depend on nothing
  else: they are the same on any other bus where the loads find the same and the stores succeed. -/
  | completes {values : List Word} {mid bus' : Bus} {effects : Effects}
      (loaded : performLoads (i.loads core pc bus) bus = .ok values mid)
      (stored : performStores (i.stores core pc) mid = .ok () bus')
      (determined : ∀ other mid' other',
        performLoads (i.loads core pc bus) other = .ok values mid' →
        performStores (i.stores core pc) mid' = .ok () other' →
        i.execute core pc other = .ok effects other') :
      Accesses i core pc bus ((i.loads core pc bus).zip values) (.ok effects bus')
  | undefined {fault : CoreFault}
      (opcode : i.opcode = .udf) :
      Accesses i core pc bus [] (.error fault bus)
  /-- It finds that a word cannot be stored before it makes any transfer. -/
  | refused {start : Word} {values : List Word} {fault : CoreFault}
      (words : i.storedWords core pc = some (start, values))
      (unrouted : ¬ bus.Routed start values.length) :
      Accesses i core pc bus [] (.error fault bus)
  | rejected {cause : BusFault} {bus' : Bus}
      (rejected : performLoads (i.loads core pc bus) bus = .error cause bus') :
      Accesses i core pc bus (found (i.loads core pc bus) bus) (.error (.bus pc cause) bus')
  | torn {values : List Word} {mid bus' : Bus} {cause : BusFault}
      (loaded : performLoads (i.loads core pc bus) bus = .ok values mid)
      (checked : Checked mid (i.stores core pc))
      (rejected : performStores (i.stores core pc) mid = .error cause bus') :
      Accesses i core pc bus ((i.loads core pc bus).zip values) (.error (.bus pc cause) bus')

/-- Whatever is read is found by the loads of the instruction. -/
theorem Accesses.mem_found {reads : List (Load × Word)}
    {result : EStateM.Result CoreFault Bus Effects} (h : i.Accesses core pc bus reads result) :
  ∀ entry ∈ reads, entry ∈ found (i.loads core pc bus) bus
  := by
  intro entry hentry
  cases h with
  | completes loaded => rwa [found_of_ok loaded]
  | undefined => cases hentry
  | refused => cases hentry
  | rejected => exact hentry
  | torn loaded => rwa [found_of_ok loaded]

/-- An instruction that only loads. -/
theorem accesses_of_loading {transfer : Transfer Effects}
    (hexecute : i.execute core pc = transferring pc transfer) (hstores : i.stores core pc = [])
    (h : Loading (i.loads core pc bus) transfer bus) :
  ∃ reads, i.Accesses core pc bus reads (i.execute core pc bus)
  := by
  have hstored (mid : Bus) : performStores (i.stores core pc) mid = .ok () mid := by
    rw [hstores]
    rfl
  cases h with
  | succeeds loaded yields =>
    rw [hexecute, transferring_ok.mpr (yields _ _ loaded)]
    refine ⟨_, .completes loaded (hstored _) ?_⟩
    intro other mid other' hloaded hother
    rw [hstored] at hother
    cases hother
    rw [hexecute]
    exact transferring_ok.mpr (yields _ _ hloaded)
  | @fails cause bus' rejected failure =>
    rw [hexecute, transferring_error.mpr ⟨cause, rfl, failure⟩]
    exact ⟨_, .rejected rejected⟩

/-- An instruction that makes no transfers. -/
theorem accesses_of_pure (hexecute : ∃ effects, ∀ bus, i.execute core pc bus = .ok effects bus)
    (hloads : i.loads core pc bus = []) (hstores : i.stores core pc = []) :
  ∃ reads, i.Accesses core pc bus reads (i.execute core pc bus)
  := by
  obtain ⟨effects, hexecute⟩ := hexecute
  apply accesses_of_loading
  · exact funext fun bus => (hexecute bus).trans (transferring_ok.mpr rfl).symm
  · exact hstores
  · rw [hloads]
    exact .pure bus effects

/-- An instruction that only stores, several words. -/
theorem accesses_of_storeWords {start : Word} {values : List Word} {effects : Word → Effects}
    (hexecute : i.execute core pc
      = transferring pc (storeWords start values >>= fun stop => pure (effects stop)))
    (hwords : i.storedWords core pc = some (start, values))
    (hstores : i.stores core pc = wordStores start values) (hloads : i.loads core pc bus = []) :
  ∃ reads, i.Accesses core pc bus reads (i.execute core pc bus)
  := by
  have hperform : performStores (i.stores core pc) = writeWords start values := by
    rw [hstores, performStores_words]
  have hloaded := performLoads_nil hloads bus
  have hstored {other other' : Bus} (hwrite : writeWords start values other = .ok () other') :
      i.execute core pc other
        = .ok (effects (start + 4 * UInt32.ofNat values.length)) other' := by
    rw [hexecute, transferring, bind_of_ok _ (storeWords_of_writeWords hwrite)]
    rfl
  rcases storeWords_eq bus start values with ⟨hunrouted, fault, hfault⟩ | ⟨hrouted, hwrites⟩
  · rw [hexecute, transferring, bind_of_error _ hfault]
    exact ⟨_, .refused hwords hunrouted⟩
  · cases hwrite : writeWords start values bus with
    | ok u bus' =>
      rw [hstored hwrite]
      refine ⟨_, .completes hloaded (hperform ▸ hwrite) ?_⟩
      intro other mid other' hother hwrite'
      rw [hloads] at hother
      cases hother
      exact hstored (hperform ▸ hwrite')
    | error cause bus' =>
      rw [hwrite] at hwrites
      rw [hexecute, transferring, bind_of_error _ hwrites]
      exact ⟨_, .torn hloaded (.inr ⟨start, values, hstores, hrouted⟩) (hperform ▸ hwrite)⟩

theorem store_accesses (hexecute : i.execute core pc = transferring pc (i.store core pc))
    (hloads : i.loads core pc bus = [])
    (hstores : i.stores core pc = [⟨i.address core pc, i.width, core.operandOr pc i.rd 0⟩]) :
  ∃ reads, i.Accesses core pc bus reads (i.execute core pc bus)
  := by
  have hloaded := performLoads_nil hloads bus
  cases hwrite : Bus.write (i.address core pc) i.width (core.operandOr pc i.rd 0) bus with
  | ok u bus' =>
    rw [hexecute, transferring, store, bind_of_ok _ hwrite]
    refine ⟨_, .completes hloaded ?_ ?_⟩
    · rw [hstores, performStores, bind_of_ok _ hwrite]
      rfl
    · intro other mid other' hother hstored
      rw [hloads] at hother
      cases hother
      rw [hstores] at hstored
      obtain ⟨_, _, hwrite', hdone⟩ := bind_eq_ok.mp hstored
      cases hdone
      rw [hexecute, transferring, store, bind_of_ok _ hwrite']
      rfl
  | error cause bus' =>
    rw [hexecute, transferring, store, bind_of_error _ hwrite]
    refine ⟨_, .torn hloaded (.inl ?_) ?_⟩
    · rw [hstores]
      exact Nat.le_refl 1
    · rw [hstores, performStores, bind_of_error _ hwrite]

/-- Entering an exception checks the frame before it reads the vector. -/
theorem enter_accesses {number : UInt8} {before : Effects}
    (hexecute : i.execute core pc = transferring pc (Exception.enter core number before))
    (hwords : i.storedWords core pc
      = some (Exception.frameBelow core.sp, Exception.frame core before.nextPc))
    (hstores : i.stores core pc
      = wordStores (Exception.frameBelow core.sp) (Exception.frame core before.nextPc))
    (hloads : i.loads core pc bus = [⟨core.vtor + 4 * number.toUInt32, .word⟩]) :
  ∃ reads, i.Accesses core pc bus reads (i.execute core pc bus)
  := by
  have hperform : performStores (i.stores core pc)
      = writeWords (Exception.frameBelow core.sp) (Exception.frame core before.nextPc) := by
    rw [hstores, performStores_words]
  rcases probeWords_routed bus (Exception.frameBelow core.sp) Exception.frameWords with
    ⟨hrouted, hprobe⟩ | ⟨hunrouted, fault, hprobe⟩
  · cases hread : Bus.read (core.vtor + 4 * number.toUInt32) .word bus with
    | error cause mid =>
      rw [hexecute, transferring, Exception.enter, bind_of_ok _ hprobe, bind_of_error _ hread]
      refine ⟨_, .rejected ?_⟩
      rw [hloads, performLoads, bind_of_error _ hread]
    | ok handler mid =>
      have hloaded : performLoads (i.loads core pc bus) bus = .ok [handler] mid := by
        rw [hloads]
        exact performLoads_singleton.mpr hread
      obtain ⟨effects, henter⟩ := enter_determined core number before handler
      cases hwrite : writeWords (Exception.frameBelow core.sp)
          (Exception.frame core before.nextPc) mid with
      | ok u bus' =>
        rw [hexecute, transferring_ok.mpr (henter _ _ _ hread hwrite)]
        refine ⟨_, .completes hloaded (hperform ▸ hwrite) ?_⟩
        intro other mid' other' hother hwrite'
        rw [hloads] at hother
        rw [hexecute]
        apply transferring_ok.mpr
        exact henter _ _ _ (performLoads_singleton.mp hother) (hperform ▸ hwrite')
      | error cause bus' =>
        have hdrained := read_drained (core.vtor + 4 * number.toUInt32) .word bus
        rw [hread] at hdrained
        have hstill := hrouted.congr (congrArg Sram.size hdrained.sram)
        have hstore := (storeWords_eq mid (Exception.frameBelow core.sp)
          (Exception.frame core before.nextPc)).resolve_left fun h => h.1 hstill
        rw [hwrite] at hstore
        rw [hexecute, transferring, Exception.enter, bind_of_ok _ hprobe, bind_of_ok _ hread,
          bind_of_error _ hstore.2]
        exact ⟨_, .torn hloaded (.inr ⟨_, _, hstores, hstill⟩) (hperform ▸ hwrite)⟩
  · rw [hexecute, transferring, Exception.enter, bind_of_error _ hprobe]
    exact ⟨_, .refused hwords hunrouted⟩

/-- Every execution reads what the loads of its instruction find. -/
theorem execute_found (i : Instruction) (core : ThumbCore) (pc : Word) (bus : Bus) :
  ∃ reads, i.Accesses core pc bus reads (i.execute core pc bus)
  := by
  cases hopcode : i.opcode with
  | ldr =>
    apply accesses_of_loading
    · simp only [execute, hopcode]
      rfl
    · simp only [stores, storedWords, hopcode]
    · simp only [loads, hopcode]
      apply load_loading
  | ldm =>
    apply accesses_of_loading
    · simp only [execute, hopcode]
      rfl
    · simp only [stores, storedWords, hopcode]
    · simp only [loads, hopcode]
      cases hrn : i.rn with
      | none =>
        rw [loadMultiple, hrn]
        exact .pure bus _
      | some rn => exact i.loadMultiple_loading core pc bus hrn
  | pop =>
    apply accesses_of_loading
    · simp only [execute, hopcode]
      rfl
    · simp only [stores, storedWords, hopcode]
    · simp only [loads, hopcode]
      apply pop_loading
  | bx =>
    apply accesses_of_loading
    · simp only [execute, hopcode]
      rfl
    · simp only [stores, storedWords, hopcode]
    · simp only [loads, hopcode]
      apply Exception.branch_loading
  | str =>
    apply store_accesses
    · simp only [execute, hopcode]
    · simp only [loads, hopcode]
    · simp only [stores, hopcode]
  | stm =>
    cases hrn : i.rn with
    | none =>
      apply accesses_of_pure
      · simp only [execute, hopcode, storeMultiple, hrn]
        exact ⟨_, fun _ => rfl⟩
      · simp only [loads, hopcode]
      · simp only [stores, storedWords, hopcode, hrn, Option.map_none]
    | some rn =>
      apply accesses_of_storeWords
      · simp only [execute, hopcode, storeMultiple, hrn]
        rfl
      · simp only [storedWords, hopcode, hrn, Option.map_some]
      · simp only [stores, storedWords, hopcode, hrn, Option.map_some]
      · simp only [loads, hopcode]
  | push =>
    apply accesses_of_storeWords
    · simp only [execute, hopcode]
      rfl
    · simp only [storedWords, hopcode]
    · simp only [stores, storedWords, hopcode]
    · simp only [loads, hopcode]
  | svc =>
    apply enter_accesses
    · simp only [execute, hopcode]
      rfl
    · simp only [storedWords, hopcode]
      rfl
    · simp only [stores, storedWords, hopcode]
      rfl
    · simp only [loads, hopcode]
  | udf =>
    simp only [execute, hopcode]
    exact ⟨[], .undefined hopcode⟩
  | _ =>
    apply accesses_of_pure
    · simp only [execute, hopcode]
      exact ⟨_, fun _ => rfl⟩
    · simp only [loads, hopcode]
    · simp only [stores, storedWords, hopcode]

/-- An executed instruction makes its loads and then its stores, and nothing else on the bus. -/
theorem execute_transfers {effects : Effects} {bus' : Bus}
    (h : i.execute core pc bus = .ok effects bus') :
  ∃ values mid, performLoads (i.loads core pc bus) bus = .ok values mid
    ∧ performStores (i.stores core pc) mid = .ok () bus'
  := by
  obtain ⟨reads, haccesses⟩ := i.execute_found core pc bus
  rw [h] at haccesses
  cases haccesses with
  | @completes values mid _ _ loaded stored _ => use values, mid

/-- What an executed instruction has stored. -/
theorem execute_stores {effects : Effects} {bus' : Bus}
    (h : i.execute core pc bus = .ok effects bus') :
  ∃ mid, bus.Drained mid ∧ performStores (i.stores core pc) mid = .ok () bus'
  := by
  obtain ⟨values, mid, hloads, hstores⟩ := execute_transfers h
  have hdrained := performLoads_drained (i.loads core pc bus) bus
  rw [hloads] at hdrained
  use mid, hdrained

/-- What reads and single writes keep is kept by every execution, whether it fails or not. -/
theorem execute_keeps {R : Bus → Bus → Prop}
    (htrans : ∀ bus mid bus', R bus mid → R mid bus' → R bus bus')
    (hdrained : ∀ bus bus', bus.Drained bus' → R bus bus')
    (hwrite : ∀ address width value, Keeps R (Bus.write address width value)) (i : Instruction)
    (core : ThumbCore) (pc : Word) :
  Keeps R (i.execute core pc)
  := by
  intro bus
  have hrefl : ∀ bus, R bus bus := fun bus => hdrained bus bus (.refl bus)
  have hloads := hdrained _ _ (performLoads_drained (i.loads core pc bus) bus)
  have hstores := performStores_keeps hrefl htrans hwrite (i.stores core pc)
  obtain ⟨reads, haccesses⟩ := i.execute_found core pc bus
  generalize i.execute core pc bus = result at haccesses ⊢
  cases haccesses with
  | @completes _ mid _ _ loaded stored _ =>
    rw [loaded] at hloads
    have hlast := hstores mid
    rw [stored] at hlast
    exact htrans _ _ _ hloads hlast
  | undefined => exact hrefl bus
  | refused => exact hrefl bus
  | rejected rejected =>
    rw [rejected] at hloads
    exact hloads
  | @torn _ mid _ _ loaded _ rejected =>
    rw [loaded] at hloads
    have hlast := hstores mid
    rw [rejected] at hlast
    exact htrans _ _ _ hloads hlast

end Instruction

end ThumbSoc
