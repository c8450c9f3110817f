import Typecodes.Text.Hexadecimal

/-! Byte strings as printable ASCII text. Tabs, line ends, quotes and the backslash have short
escapes, other printable bytes stand for themselves, and the rest are `\x` and two digits.
-/

namespace Typecodes.Text

/-- The text of one byte. -/
def escapeByte (byte : UInt8) : List Char :=
  match byte.toNat with
  | 9 => ['\\', 't']
  | 10 => ['\\', 'n']
  | 13 => ['\\', 'r']
  | code =>
      if code = 34 ∨ code = 39 ∨ code = 92 then
        ['\\', Char.ofNat code]
      else if 32 ≤ code ∧ code < 127 then
        [Char.ofNat code]
      else
        '\\' :: 'x' :: hexByte byte

/-- The text of a byte string, byte after byte. -/
def escapeBytes (bytes : Bytes) : String :=
  String.ofList (bytes.flatMap escapeByte)

end Typecodes.Text
