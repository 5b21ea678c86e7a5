/-!
# Conditions

The condition field of a conditional branch, and what each condition says about the four
condition flags.
-/

namespace ThumbSoc

/-- The four condition flags: negative, zero, carry, overflow. -/
structure Flags where
  n : Bool
  z : Bool
  c : Bool
  v : Bool
  deriving DecidableEq, Repr

/-- The sixteen values of a condition field. The last two hold under all flags. -/
inductive Condition where
  | eq
  | ne
  | cs
  | cc
  | mi
  | pl
  | vs
  | vc
  | hi
  | ls
  | ge
  | lt
  | gt
  | le
  | al
  | always
  deriving DecidableEq, Repr

namespace Condition

/-- The condition that the low four bits of a number encode. -/
def ofBits (bits : Nat) : Condition :=
  match bits % 16 with
  | 0 => eq
  | 1 => ne
  | 2 => cs
  | 3 => cc
  | 4 => mi
  | 5 => pl
  | 6 => vs
  | 7 => vc
  | 8 => hi
  | 9 => ls
  | 10 => ge
  | 11 => lt
  | 12 => gt
  | 13 => le
  | 14 => al
  | _ => always

/-- The four-bit encoding. -/
def bits : Condition → Nat
  | eq => 0
  | ne => 1
  | cs => 2
  | cc => 3
  | mi => 4
  | pl => 5
  | vs => 6
  | vc => 7
  | hi => 8
  | ls => 9
  | ge => 10
  | lt => 11
  | gt => 12
  | le => 13
  | al => 14
  | always => 15

/-- The suffix that a branch mnemonic takes; the conditions that always hold have none. -/
def suffix : Condition → String
  | eq => "eq"
  | ne => "ne"
  | cs => "cs"
  | cc => "cc"
  | mi => "mi"
  | pl => "pl"
  | vs => "vs"
  | vc => "vc"
  | hi => "hi"
  | ls => "ls"
  | ge => "ge"
  | lt => "lt"
  | gt => "gt"
  | le => "le"
  | al | always => ""

/-- Whether the condition holds under all flags. -/
def isAlways : Condition → Bool
  | al | always => true
  | _ => false

/-- Whether the condition holds under the given flags. -/
def holds (f : Flags) : Condition → Bool
  | eq => f.z
  | ne => !f.z
  | cs => f.c
  | cc => !f.c
  | mi => f.n
  | pl => !f.n
  | vs => f.v
  | vc => !f.v
  | hi => f.c && !f.z
  | ls => !f.c || f.z
  | ge => f.n == f.v
  | lt => f.n != f.v
  | gt => !f.z && f.n == f.v
  | le => f.z || f.n != f.v
  | al | always => true

@[simp]
theorem ofBits_bits (c : Condition) :
  ofBits c.bits = c
  := by cases c <;> rfl

end Condition

end ThumbSoc
