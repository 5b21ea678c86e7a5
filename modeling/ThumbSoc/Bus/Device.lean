/-!
# Devices

A device shows the bus a block of 32-bit registers at word-aligned offsets. A register that
does not exist, or that takes no writes, refuses the access.
-/

namespace ThumbSoc

/-- The reasons for which a device refuses an access. -/
inductive DeviceError where
  | noRegister
  | readOnly
  deriving DecidableEq, Repr

end ThumbSoc
