import ThumbSoc.Word

/-!
# Modified immediates

A twelve-bit field denotes a word in one of two ways: a byte repeated in a fixed pattern, or
a byte with its top bit set that is rotated right by at least eight places.
-/

namespace ThumbSoc.Immediate

/-- Whether a twelve-bit field denotes a rotated byte and not a pattern. -/
def isRotated (field : Nat) : Bool :=
  field / 1024 % 4 ≠ 0

/-- The rotation of a rotated byte, and zero for a pattern. -/
def rotation (field : Nat) : Nat :=
  if isRotated field then field / 128 % 32 else 0

/-- The word that a twelve-bit field denotes. -/
def expand (field : Nat) : Word :=
  let byte := UInt32.ofNat (field % 256)
  if isRotated field then
    Word.rotateRight (UInt32.ofNat (128 + field % 128)) (rotation field)
  else match field / 256 % 4 with
    | 0 => byte
    | 1 => byte ||| (byte <<< 16)
    | 2 => (byte <<< 8) ||| (byte <<< 24)
    | _ => byte ||| (byte <<< 8) ||| (byte <<< 16) ||| (byte <<< 24)

/-- The older form: a byte rotated right by twice a four-bit count. -/
def rotatedByte (byte count : Nat) : Word :=
  Word.rotateRight (UInt32.ofNat (byte % 256)) (2 * (count % 16))

end ThumbSoc.Immediate
