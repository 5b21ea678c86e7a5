import ThumbSoc.Core.Special
import ThumbSoc.Proofs.Frame.Commit

/-!
# The cells behind the special registers

The selectors of the special-register moves name seven cells: the application flags, two stack
pointers and four masks. Several selectors are views of one cell, some of them together with the
exception number, and the others name none. Reading a register shows its cell, and writing it sets
that cell and no other. `specialRegisters_independent` puts this together.

A write to the base priority that may only raise it leaves the smaller one of two priorities, where
zero counts as none. Any number of them leaves the smallest, in whatever order they come.
-/

namespace ThumbSoc

/-! ### Cells -/

/-- A cell behind the special registers. -/
inductive SpecialCell where
  | application
  | msp
  | psp
  | primask
  | basepri
  | faultmask
  | control
  deriving DecidableEq, Repr

namespace SpecialCell

/-- The cell that a selector names, if it names one. -/
def ofSelector : Nat → Option SpecialCell
  | 0 | 1 | 2 | 3 => some application
  | 8 => some msp
  | 9 => some psp
  | 16 => some primask
  | 17 | 18 => some basepri
  | 19 => some faultmask
  | 20 => some control
  | _ => none

/-- The bits that a written value can have in a cell. -/
def mask : SpecialCell → Word
  | application => Psr.application
  | msp | psp => ~~~3
  | primask | faultmask => 1
  | basepri => 0xFF
  | control => 3

end SpecialCell

namespace Special

/-- The cell behind a special register. -/
def cell : Special → Option SpecialCell
  | status flags _ => if flags then some .application else none
  | msp => some .msp
  | psp => some .psp
  | primask => some .primask
  | basepri | basepriMax => some .basepri
  | faultmask => some .faultmask
  | control => some .control
  | unknown => none

/-- Whether a special register shows the exception number. -/
def showsNumber : Special → Bool
  | status _ number => number
  | _ => false

/-- Whether a write may only raise a priority. -/
def onlyRaises : Special → Bool
  | basepriMax => true
  | _ => false

theorem ofSelector_of_le {selector : Nat} (h : 21 ≤ selector) :
  ofSelector selector = unknown
  := by
  obtain ⟨k, rfl⟩ := Nat.exists_eq_add_of_le' h
  unfold ofSelector
  rw [if_neg (by omega)]
  rfl

theorem cell_ofSelector (selector : Nat) :
  (ofSelector selector).cell = SpecialCell.ofSelector selector
  := by
  rcases Nat.lt_or_ge selector 21 with h | h
  · decide +revert
  · rw [ofSelector_of_le h]
    obtain ⟨k, rfl⟩ := Nat.exists_eq_add_of_le' h
    rfl

theorem showsNumber_ofSelector (selector : Nat) :
  (ofSelector selector).showsNumber = decide (selector < 8 ∧ selector % 2 = 1)
  := by
  rcases Nat.lt_or_ge selector 21 with h | h
  · decide +revert
  · rw [ofSelector_of_le h]
    exact (decide_eq_false (by omega)).symm

theorem onlyRaises_ofSelector (selector : Nat) :
  (ofSelector selector).onlyRaises = decide (selector = 18)
  := by
  rcases Nat.lt_or_ge selector 21 with h | h
  · decide +revert
  · rw [ofSelector_of_le h]
    exact (decide_eq_false (by omega)).symm

end Special

/-- The bits that were put under a mask. -/
theorem Word.insert_inside (w v mask : Word) :
  ((w &&& ~~~mask) ||| (v &&& mask)) &&& mask = v &&& mask
  := by
  apply UInt32.eq_of_toBitVec_eq
  ext i hi
  simp only [UInt32.toBitVec_or, UInt32.toBitVec_and, UInt32.toBitVec_not, BitVec.getElem_or,
    BitVec.getElem_and, BitVec.getElem_not]
  cases mask.toBitVec[i] with
  | false => simp only [Bool.and_false]
  | true => simp only [Bool.not_true, Bool.and_false, Bool.false_or, Bool.and_true]

namespace ThumbCore

/-- The value held in a cell. -/
def cell (core : ThumbCore) : SpecialCell → Word
  | .application => core.psr &&& Psr.application
  | .msp => core.sp
  | .psp => core.psp
  | .primask => core.primask
  | .basepri => core.basepri
  | .faultmask => core.faultmask
  | .control => core.control

/-- Puts a value into a cell. -/
def setCell (core : ThumbCore) (cell : SpecialCell) (value : Word) : ThumbCore :=
  match cell with
  | .application =>
    { core with psr := (core.psr &&& ~~~Psr.application) ||| (value &&& Psr.application) }
  | .msp => { core with sp := value }
  | .psp => { core with psp := value }
  | .primask => { core with primask := value }
  | .basepri => { core with basepri := value }
  | .faultmask => { core with faultmask := value }
  | .control => { core with control := value }

theorem cell_setCell (core : ThumbCore) (cell : SpecialCell) (value : Word) :
  (core.setCell cell (value &&& cell.mask)).cell cell = value &&& cell.mask
  := by
  cases cell with
  | application =>
    apply (Word.insert_inside ..).trans
    rw [SpecialCell.mask, UInt32.and_assoc, UInt32.and_self]
  | _ => rfl

theorem cell_setCell_of_ne (core : ThumbCore) {cell other : SpecialCell} (h : cell ≠ other)
    (value : Word) :
  (core.setCell cell value).cell other = core.cell other
  := by
  cases cell <;> cases other <;> first | rfl | contradiction

/-! ### Reading and writing -/

variable (core : ThumbCore) {selector : Nat} {cell : SpecialCell}

/-- A special register shows its cell, and may show the exception number. -/
theorem readSpecial_eq (selector : Nat) :
  core.readSpecial selector
    = (if (Special.ofSelector selector).showsNumber then core.exceptionNumber else 0)
      ||| (SpecialCell.ofSelector selector).elim 0 core.cell
  := by
  rw [readSpecial, ← Special.cell_ofSelector]
  cases Special.ofSelector selector with
  | status flags number => cases flags <;> rfl
  | _ => exact UInt32.zero_or.symm

/-- A write through a selector that names no cell has no effect. -/
theorem writeSpecial_of_none (h : SpecialCell.ofSelector selector = none) (value : Word) :
  core.writeSpecial selector value = core
  := by
  rw [← Special.cell_ofSelector] at h
  rw [writeSpecial]
  generalize Special.ofSelector selector = special at h
  cases special with
  | unknown => rfl
  | status flags number =>
    cases flags with
    | false => rfl
    | true => cases h
  | _ => cases h

/-- Any other write sets the cell, to the bits of the value that fit or to the higher priority. -/
theorem writeSpecial_of_some (h : SpecialCell.ofSelector selector = some cell) (value : Word) :
  core.writeSpecial selector value
    = core.setCell cell
      (if (Special.ofSelector selector).onlyRaises then
        raisedBasepri core.basepri (value &&& cell.mask)
      else value &&& cell.mask)
  := by
  rw [← Special.cell_ofSelector] at h
  rw [writeSpecial]
  generalize Special.ofSelector selector = special at h
  cases special with
  | status flags number =>
    cases flags with
    | false => cases h
    | true =>
      cases h
      simp only [setCell, SpecialCell.mask, Special.onlyRaises, Bool.false_eq_true, if_false,
        UInt32.and_assoc, UInt32.and_self]
  | unknown => cases h
  | _ =>
    cases h
    rfl

theorem psr_writeSpecial_and {field : Word} (h : Word.Clear Psr.application field) (value : Word) :
  (core.writeSpecial selector value).psr &&& field = core.psr &&& field
  := by
  have houtside : (core.writeSpecial selector value).psr &&& ~~~(~~~field)
      = core.psr &&& ~~~(~~~field) := by
    apply core.psr_writeSpecial
    intro _
    rwa [UInt32.not_not]
  rwa [UInt32.not_not] at houtside

theorem exceptionNumber_writeSpecial (value : Word) :
  (core.writeSpecial selector value).exceptionNumber = core.exceptionNumber
  := core.psr_writeSpecial_and (by decide) value

theorem registers_writeSpecial (value : Word) :
  (core.writeSpecial selector value).general = core.general
    ∧ (core.writeSpecial selector value).lr = core.lr
    ∧ (core.writeSpecial selector value).pc = core.pc
  := by
  rw [writeSpecial]
  split <;> exact ⟨rfl, rfl, rfl⟩

/-- A write to one cell does not show in another one. -/
theorem readSpecial_writeSpecial_of_ne {shown : Nat}
    (h : SpecialCell.ofSelector selector = some cell)
    (hother : SpecialCell.ofSelector shown ≠ some cell) (value : Word) :
  (core.writeSpecial selector value).readSpecial shown = core.readSpecial shown
  := by
  rw [readSpecial_eq, readSpecial_eq, exceptionNumber_writeSpecial, core.writeSpecial_of_some h]
  cases hshown : SpecialCell.ofSelector shown with
  | none => rfl
  | some other =>
    have hne : cell ≠ other := by
      rintro rfl
      exact hother hshown
    rw [Option.elim_some, Option.elim_some, cell_setCell_of_ne _ hne]

/-- A write through any selector but one is read back, cut to the cell. -/
theorem readSpecial_writeSpecial (h : SpecialCell.ofSelector selector = some cell)
    (hsets : selector ≠ 18) (value : Word) :
  (core.writeSpecial selector value).readSpecial selector
    = (if (Special.ofSelector selector).showsNumber then core.exceptionNumber else 0)
      ||| (value &&& cell.mask)
  := by
  have hplain : (Special.ofSelector selector).onlyRaises = false := by
    rw [Special.onlyRaises_ofSelector, decide_eq_false hsets]
  rw [readSpecial_eq, exceptionNumber_writeSpecial, core.writeSpecial_of_some h, hplain,
    if_neg Bool.false_ne_true, h, Option.elim_some, cell_setCell]

end ThumbCore

/-! ### Raising the priority -/

/-- The smallest nonzero word of a list, or zero if there is none. -/
def leastNonzero (words : List Word) : Word :=
  (words.filter (· ≠ 0)).min?.getD 0

theorem filter_nonzero {word : Word} (h : word ≠ 0) (rest : List Word) :
  (word :: rest).filter (· ≠ 0) = word :: rest.filter (· ≠ 0)
  := by
  apply List.filter_cons_of_pos
  exact decide_eq_true h

theorem leastNonzero_cons {word : Word} (h : word ≠ 0) (rest : List Word) :
  leastNonzero (word :: rest) = (rest.filter (· ≠ 0)).foldl min word
  := by
  rw [leastNonzero, filter_nonzero h, List.min?_cons', Option.getD_some]

theorem leastNonzero_singleton (word : Word) :
  leastNonzero [word] = word
  := by
  by_cases h : word = 0
  · rw [h]
    rfl
  · rw [leastNonzero_cons h]
    rfl

/-- The smallest nonzero word does not depend on the order. -/
theorem leastNonzero_perm {words words' : List Word} (h : words.Perm words') :
  leastNonzero words = leastNonzero words'
  := by
  have hfilter := h.filter (· ≠ 0)
  rw [leastNonzero, leastNonzero]
  congr 1
  cases hleast : (words.filter (· ≠ 0)).min? with
  | none =>
    rw [List.min?_eq_none_iff.mp hleast] at hfilter
    rw [← hfilter.nil_eq]
    rfl
  | some least =>
    obtain ⟨hmem, hle⟩ := List.min?_eq_some_iff.mp hleast
    symm
    apply List.min?_eq_some_iff.mpr
    exact ⟨hfilter.mem_iff.mp hmem, fun word hword => hle word (hfilter.mem_iff.mpr hword)⟩

theorem leastNonzero_zero_cons (rest : List Word) :
  leastNonzero (0 :: rest) = leastNonzero rest
  := by rw [leastNonzero, List.filter_cons_of_neg (by decide), leastNonzero]

namespace ThumbCore

/-- Of two priorities the raised one is the smaller. -/
theorem raisedBasepri_eq_min {current value : Word} (hcurrent : current ≠ 0) (hvalue : value ≠ 0) :
  raisedBasepri current value = min current value
  := by
  have hmin : min current value = if current ≤ value then current else value := rfl
  rw [raisedBasepri, hmin]
  by_cases hlt : value < current
  · rw [if_pos ⟨hvalue, .inr hlt⟩, if_neg (UInt32.not_le.mpr hlt)]
  · rw [if_neg fun h => hlt (h.2.resolve_left hcurrent), if_pos (UInt32.not_lt.mp hlt)]

/-- Raising a priority keeps the smallest nonzero word. -/
theorem leastNonzero_raised (current value : Word) (rest : List Word) :
  leastNonzero (raisedBasepri current value :: rest) = leastNonzero (current :: value :: rest)
  := by
  by_cases hvalue : value = 0
  · have hraised : raisedBasepri current value = current := if_neg fun h => h.1 hvalue
    rw [hraised, hvalue, leastNonzero_perm (.swap ..), leastNonzero_zero_cons]
  by_cases hcurrent : current = 0
  · have hraised : raisedBasepri current value = value := if_pos ⟨hvalue, .inl hcurrent⟩
    rw [hraised, hcurrent, leastNonzero_zero_cons]
  · have hraised := raisedBasepri_eq_min hcurrent hvalue
    have hmin : min current value ≠ 0 := by
      rw [← hraised, raisedBasepri]
      split
      · exact hvalue
      · exact hcurrent
    rw [hraised, leastNonzero_cons hmin, leastNonzero_cons hcurrent, filter_nonzero hvalue,
      List.foldl_cons]

/-- Writes that may only raise the priority leave the smallest one. -/
theorem foldl_raise (core : ThumbCore) (values : List Word) :
  values.foldl (fun core value => core.writeSpecial 18 value) core
    = { core with basepri := leastNonzero (core.basepri :: values.map (· &&& 0xFF)) }
  := by
  -- The first write raises the priority that the others start from.
  induction values generalizing core with
  | nil =>
    rw [List.map_nil, leastNonzero_singleton]
    rfl
  | cons value rest ih =>
    rw [List.foldl_cons, ih, List.map_cons, ← leastNonzero_raised]
    rfl

/-! ### All special registers -/

/-- The special registers of a core are cells that do not touch each other. -/
structure IndependentCells (core : ThumbCore) : Prop where
  /-- A write shows only in registers of the same cell, -/
  independent : ∀ selector shown value,
    (core.writeSpecial selector value).readSpecial shown ≠ core.readSpecial shown →
    ∃ cell, SpecialCell.ofSelector selector = some cell ∧ SpecialCell.ofSelector shown = some cell
  /-- and neither in the rest of the status register nor in other registers. -/
  frame : ∀ selector value,
    let after := core.writeSpecial selector value
    after.exceptionNumber = core.exceptionNumber
      ∧ after.psr &&& Psr.t = core.psr &&& Psr.t
      ∧ after.general = core.general ∧ after.lr = core.lr ∧ after.pc = core.pc
  /-- The flags are read back, together with the exception number if the view includes it. -/
  views : ∀ selector < 4, ∀ value,
    (core.writeSpecial selector value).readSpecial selector
      = (if selector % 2 = 1 then core.exceptionNumber else 0) ||| (value &&& Psr.application)
  /-- Any other cell is read back as it is. -/
  readBack : ∀ selector cell, SpecialCell.ofSelector selector = some cell → 4 ≤ selector →
    selector ≠ 18 → ∀ value,
    (core.writeSpecial selector value).readSpecial selector = value &&& cell.mask
  /-- Writes that may only raise the priority leave the smallest of all nonzero ones, -/
  raises : ∀ values : List Word,
    let after := values.foldl (fun core value => core.writeSpecial 18 value) core
    let least := leastNonzero (core.basepri :: values.map (· &&& 0xFF))
    after = { core with basepri := least }
      ∧ after.readSpecial 17 = least ∧ after.readSpecial 18 = least
  /-- in whatever order they come. -/
  order : ∀ values values' : List Word, values.Perm values' →
    values.foldl (fun core value => core.writeSpecial 18 value) core
      = values'.foldl (fun core value => core.writeSpecial 18 value) core
  ignores : ∀ selector, SpecialCell.ofSelector selector = none → ∀ value,
    core.writeSpecial selector value = core

/-- **Special registers are independent cells.** In whatever state a core is, a write through a
selector sets the cell that the selector names and no other part of the core. -/
theorem specialRegisters_independent (core : ThumbCore) :
  core.IndependentCells
  where
  independent selector shown value hchange := by
    cases hcell : SpecialCell.ofSelector selector with
    | none =>
      rw [core.writeSpecial_of_none hcell] at hchange
      contradiction
    | some cell =>
      use cell, rfl
      by_contra hother
      exact hchange (core.readSpecial_writeSpecial_of_ne hcell hother value)
  frame _ value :=
    ⟨core.exceptionNumber_writeSpecial value, core.psr_writeSpecial_and (by decide) value,
      core.registers_writeSpecial value⟩
  views selector hlt value := by
    have hcell : ∀ selector < 4, SpecialCell.ofSelector selector = some .application := by decide
    rw [core.readSpecial_writeSpecial (hcell selector hlt) (by omega),
      Special.showsNumber_ofSelector]
    simp only [decide_eq_true_eq, Nat.lt_trans hlt (by decide : 4 < 8), true_and]
    rfl
  readBack selector cell hcell hge hsets value := by
    have hnone : ∀ selector < 8, 4 ≤ selector → SpecialCell.ofSelector selector = none := by decide
    have hview : ¬ (selector < 8 ∧ selector % 2 = 1) := by
      rintro ⟨hlt, _⟩
      rw [hnone selector hlt hge] at hcell
      cases hcell
    rw [core.readSpecial_writeSpecial hcell hsets, Special.showsNumber_ofSelector,
      decide_eq_false hview]
    exact UInt32.zero_or
  raises values := by
    rw [foldl_raise]
    exact ⟨rfl, rfl, rfl⟩
  order values values' h := by
    rw [foldl_raise, foldl_raise, leastNonzero_perm ((h.map _).cons _)]
  ignores _ h := core.writeSpecial_of_none h

/-- Zero masks nothing: it is not taken for the highest priority, and neither raises nor hides
another one. -/
example :
    let core := [0xC0, 0, 0x140, 0x80].foldl (fun core value => core.writeSpecial 18 value)
      (ThumbCore.reset 0)
    core.basepri = 0x40 ∧ core.readSpecial 17 = 0x40 := by
  decide

end ThumbCore

end ThumbSoc
