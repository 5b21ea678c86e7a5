import ThumbSoc.Proofs.Encoding.Operands
import ThumbSoc.Proofs.Listing.Text

/-!
# Mnemonics

A mnemonic is taken apart into an operation and its suffixes. No two of those that encoded
instructions have are written alike, and none contains a blank, so that a statement determines
its mnemonic and its operands.
-/

namespace ThumbSoc

/-! ### Mnemonics -/

/-- The head of a statement: an operation with its suffixes. -/
inductive Head where
  /-- An operation, marked if it sets the flags. -/
  | operation (opcode : Opcode) (setFlags : Bool)
  /-- A move that shifts. -/
  | shift (kind : Shift) (setFlags : Bool)
  | branch (condition : Condition)
  | transfer (opcode : Opcode) (signed : Bool) (width : Width)
  /-- A switch of the interrupt mask. -/
  | mask (off : Bool)
  deriving DecidableEq

namespace Head

/-- The mnemonic as it is written. -/
def text : Head → String
  | operation opcode setFlags => opcode.mnemonic ++ if setFlags then "s" else ""
  | shift kind setFlags => kind.mnemonic ++ if setFlags then "s" else ""
  | branch condition => "b" ++ condition.suffix
  | transfer opcode signed width =>
    let width := match width with
      | .byte => "b"
      | .halfword => "h"
      | .word => ""
    opcode.mnemonic ++ (if signed then "s" else "") ++ width
  | mask off => if off then "cpsid" else "cpsie"

/-- The operation behind a mnemonic. -/
def opcode : Head → Opcode
  | operation opcode _ => opcode
  | shift _ _ => .mov
  | branch _ => .b
  | transfer opcode _ _ => opcode
  | mask _ => .msr

/-- The mnemonics that encoded instructions have. -/
def all : List Head :=
  [Opcode.mov, .add, .sub, .and, .orr, .eor].flatMap
      (fun o => [operation o false, operation o true])
    ++ [Opcode.cmp, .tst, .bl, .bx, .blx, .ldm, .stm, .push, .pop, .mrs, .msr, .nop, .wfi,
        .svc].map (operation · false)
    ++ [Shift.lsl, .lsr, .asr, .ror].flatMap (fun s => [shift s false, shift s true])
    ++ [Condition.eq, .ne, .cs, .cc, .mi, .pl, .vs, .vc, .hi, .ls, .ge, .lt, .gt, .le, .al].map
        branch
    ++ [Opcode.ldr, .str].flatMap (fun o => [false, true].flatMap fun signed =>
        [Width.byte, .halfword, .word].map (transfer o signed))
    ++ [mask false, mask true]

/-- No two mnemonics are written alike. -/
theorem text_inj :
  ∀ h ∈ all, ∀ h' ∈ all, h.text = h'.text → h = h'
  := by decide +kernel

theorem blank_not_mem :
  ∀ h ∈ all, ' ' ∉ h.text.toList
  := by decide

end Head

namespace Instruction

/-- The mnemonic of an instruction, taken apart. -/
def head (i : Instruction) : Head :=
  match i.opcode with
  | .mov =>
    if i.rs.isSome || i.shiftsByAmount then .shift i.shift i.setFlags
    else .operation .mov i.setFlags
  | .add | .sub | .and | .orr | .eor => .operation i.opcode i.setFlags
  | .b => .branch i.condition
  | .ldr | .str => .transfer i.opcode i.signed i.width
  | .msr => if i.rn.isSome then .operation .msr false else .mask (i.immediate ≠ 0)
  | opcode => .operation opcode false

variable {i : Instruction} {w : Word} {length : Nat}

theorem mnemonic_eq (h : i.opcode ≠ .udf) :
  i.mnemonic = i.head.text
  := by
  rw [mnemonic, head]
  cases hopcode : i.opcode with
  | udf => exact absurd hopcode h
  | mov =>
    dsimp only
    split <;> rfl
  | msr =>
    dsimp only
    split
    · rfl
    · by_cases hzero : i.immediate = 0 <;> simp [hzero, Head.text]
  | _ => rfl

theorem Encoded.head_mem (h : i.Encoded w length) :
  i.head ∈ Head.all
  := by
  have hopcode := h.opcode_ne
  have hcondition := h.condition
  rw [head]
  cases hcase : i.opcode with
  | udf => exact absurd hcase hopcode
  | mov =>
    dsimp only
    cases i.shift <;> cases i.setFlags <;> split <;> decide
  | add | sub | and | orr | eor =>
    dsimp only
    cases i.setFlags <;> decide
  | b =>
    dsimp only
    revert hcondition
    cases i.condition <;> decide
  | ldr | str =>
    dsimp only
    cases i.signed <;> cases i.width <;> decide
  | msr =>
    dsimp only
    cases decide (i.immediate ≠ 0) <;> split <;> decide
  | _ =>
    dsimp only
    decide

theorem opcode_head :
  i.head.opcode = i.opcode
  := by
  rw [head]
  cases i.opcode with
  | mov | msr =>
    dsimp only
    split <;> rfl
  | _ => rfl

end Instruction

/-! ### Statements -/

/-- A statement is cut at its first blank. -/
theorem Row.statement_inj {row row' : Row} (h : ' ' ∉ row.mnemonic.toList)
    (h' : ' ' ∉ row'.mnemonic.toList) (heq : row.statement = row'.statement) :
  row.mnemonic = row'.mnemonic ∧ row.operands = row'.operands
  := by
  simp only [statement, String.isEmpty_iff] at heq
  have written {mnemonic operands : String} :
      (mnemonic ++ " " ++ operands).toList = mnemonic.toList ++ ' ' :: operands.toList := by
    rw [String.toList_append, String.toList_append, List.append_assoc]
    rfl
  split at heq
  · next hempty =>
    split at heq
    · next hempty' => exact ⟨heq, hempty.trans hempty'.symm⟩
    · rw [heq, written] at h
      simp at h
  · split at heq
    · rw [← heq, written] at h'
      simp at h'
    · have hlists := congrArg String.toList heq
      rw [written, written] at hlists
      obtain ⟨hmnemonic, hoperands⟩ := cut h h' hlists
      exact ⟨String.toList_injective hmnemonic, String.toList_injective hoperands⟩

end ThumbSoc
