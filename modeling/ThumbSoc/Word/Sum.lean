import ThumbSoc.Word

/-!
# Addition with carry

Addition of two words and an incoming carry, together with the two ways in which the result
can fail to be the true sum: the unsigned carry out and the signed overflow.
-/

namespace ThumbSoc

/-- The outcome of an addition: the sum modulo `2 ^ 32`, whether the unsigned sum needs a
33rd bit, and whether the signed sum is out of range. -/
structure Sum where
  value : Word
  carry : Bool
  overflow : Bool
  deriving DecidableEq, Repr

/-- `a + b`, plus one if `carryIn`. -/
def addWithCarry (a b : Word) (carryIn : Bool) : Sum :=
  let one := carryIn.toNat
  let value := a + b + UInt32.ofNat one
  { value
    carry := UInt32.size ≤ a.toNat + b.toNat + one
    overflow := value.toInt32.toInt ≠ a.toInt32.toInt + b.toInt32.toInt + one }

/-- `a - b`, computed as `a + ~b + 1`: the carry is set exactly when nothing is borrowed. -/
def subtract (a b : Word) : Sum :=
  addWithCarry a (~~~b) true

end ThumbSoc
