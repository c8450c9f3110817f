import Typecodes.Bytes

/-! Hexadecimal text: numbers without leading zeros, and bytes as two digits each.
Digits are lower-case throughout.
-/

namespace Typecodes.Text

/-- The digit of a number below sixteen; larger numbers are taken modulo sixteen. -/
def hexDigit (value : Nat) : Char :=
  let digit := value % 16
  if digit < 10 then Char.ofNat (48 + digit) else Char.ofNat (87 + digit)

/-- A number in base sixteen, marked by `0x` and without leading zeros. -/
def hexNumber (value : Nat) : String :=
  "0x" ++ String.ofList (Nat.toDigits 16 value)

/-- A byte as exactly two digits, the high one first. -/
def hexByte (byte : UInt8) : List Char :=
  [hexDigit (byte.toNat / 16), hexDigit byte.toNat]

/-- A byte string as two digits for each byte. -/
def hexBytes (bytes : Bytes) : String :=
  String.ofList (bytes.flatMap hexByte)

end Typecodes.Text
