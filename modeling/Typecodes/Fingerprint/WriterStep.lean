import Typecodes.Fingerprint

/-! Everything that can be done to a writer, as data. -/

namespace Typecodes

/-- One thing done to a writer. -/
inductive WriterStep where
  | byte (value : UInt8)
  | number (value : UInt32)
  | word (value : UInt64)
  /-- A text and the zero byte that ends it. -/
  | text (value : Option String)
  | bytes (values : Bytes)
  | elementType (element : ElementType)
  | shape (value : Shape)
  /-- Drops all bytes. -/
  | clear
  /-- Replaces the writer by a copy of it. -/
  | copy

/-- Carries a step out. Only element types and shapes can fail, and they leave what they wrote. -/
def WriterStep.perform : WriterStep → Run Writer Unit
  | byte value => Run.change (·.push value)
  | number value => Run.change (·.appendUInt32 value)
  | word value => Run.change (·.appendWord value)
  | text value => Run.change (·.appendText value)
  | bytes values => Run.change (·.append values)
  | elementType element => Writer.putElementType element
  | shape value => Writer.put value
  | clear => Run.change Writer.clear
  | copy => Run.change Writer.copy

end Typecodes
