import ThumbSoc.AddressMap

/-!
# Program images

An image says which bytes go where in memory and where execution starts. A flat file is an
image of a single segment, entered at its first byte.
-/

namespace ThumbSoc

/-- Bytes that go to consecutive addresses. -/
structure Segment where
  address : Word
  data : List UInt8
  deriving DecidableEq, Repr

/-- Segments, to be placed in order, and the address at which execution starts. -/
structure Image where
  segments : List Segment
  entry : Word
  deriving DecidableEq, Repr

namespace Image

/-- The number of bytes in all segments. -/
def size (image : Image) : Nat :=
  image.segments.foldr (fun segment n => segment.data.length + n) 0

/-- The image of a flat file placed at `base`. -/
def flat (base : Word) (data : List UInt8) : Image :=
  { segments := [⟨base, data⟩], entry := base }

end Image

/-- The reasons for which an image cannot be loaded. -/
inductive LoadError where
  /-- A segment does not lie in memory. -/
  | outOfRange (address : Word) (length : Nat)
  /-- The file could not be read, for the reason that the host gives. -/
  | unreadable (path reason : String)
  deriving DecidableEq, Repr

/-- The wording of the error. -/
def LoadError.message : LoadError → String
  | outOfRange address length =>
    s!"load of {length} bytes at {Hex.address address} falls outside sram"
  | unreadable path reason => s!"failed to read program {path}: {reason}"

end ThumbSoc
