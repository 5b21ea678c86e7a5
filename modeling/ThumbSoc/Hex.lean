/-!
# Hexadecimal numbers

Numbers are written in lower-case hexadecimal, padded on the left with zeros to a least
number of digits and never cut.
-/

namespace ThumbSoc.Hex

/-- `n` in hexadecimal, with at least `width` digits. -/
def digits (width n : Nat) : String :=
  let ds := Nat.toDigits 16 n
  String.ofList (List.replicate (width - ds.length) '0' ++ ds)

/-- A word with the leading mark of a hexadecimal number, in at least eight digits. -/
def address (w : UInt32) : String :=
  "0x" ++ digits 8 w.toNat

/-- A number with the leading mark of a hexadecimal number and no padding. -/
def number (n : Nat) : String :=
  "0x" ++ digits 1 n

end ThumbSoc.Hex
