import ThumbSoc.Encoding.Narrow
import ThumbSoc.Encoding.Wide
import ThumbSoc.Fault

/-!
# Decoding

From a word and a length to an instruction. A word that encodes nothing is a fault that
carries the word and the length.
-/

namespace ThumbSoc

/-- The instruction that stands in for a word that encodes none. -/
def DecodeFault.instruction (fault : DecodeFault) : Instruction :=
  .plain .udf fault.raw fault.length

namespace Instruction

/-- The instruction that `word` encodes in `length` bytes, if there is one. -/
def decode? (word : Word) (length : Nat) : Option Instruction :=
  match length with
  | 2 => if word ≤ 0xFFFF then Narrow.decode word else none
  | 4 => Wide.decode word
  | _ => none

/-- The instruction that `word` encodes in `length` bytes. -/
def decode (word : Word) (length : Nat) : Except DecodeFault Instruction :=
  match decode? word length with
  | some i => .ok i
  | none => .error ⟨word, length⟩

theorem decode?_of_decode {word : Word} {length : Nat} {i : Instruction}
    (h : decode word length = .ok i) :
  decode? word length = some i
  := by
  rw [decode] at h
  split at h
  · next hsome =>
    cases h
    apply hsome
  · cases h

/-- A decoded instruction is narrow or wide. -/
theorem decode_cases {word : Word} {length : Nat} {i : Instruction}
    (h : decode word length = .ok i) :
  (length = 2 ∧ word ≤ 0xFFFF ∧ Narrow.decode word = some i)
    ∨ (length = 4 ∧ Wide.decode word = some i)
  := by
  have hdecode := decode?_of_decode h
  unfold decode? at hdecode
  split at hdecode
  · split at hdecode
    · next hword => exact .inl ⟨rfl, hword, hdecode⟩
    · cases hdecode
  · exact .inr ⟨rfl, hdecode⟩
  · cases hdecode

end Instruction

end ThumbSoc
