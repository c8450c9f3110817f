import Typecodes.Bytes

/-! Writers of fingerprints: a byte string that grows at its end. A writer has room for forty bytes
in place and remembers whether it ever needed more.
-/

namespace Typecodes

/-- A byte string under construction. -/
structure Writer where
  bytes : Array UInt8
  /-- Whether the writer has given up its room in place. -/
  spilled : Bool
deriving DecidableEq

namespace Writer

/-- The number of bytes that a writer holds in place. -/
abbrev inlineCapacity : Nat := 40

/-- The writer without bytes. -/
def empty : Writer :=
  ⟨#[], false⟩

/-- Makes room for more bytes, which ends storage in place once the room there does not suffice. -/
def reserve (writer : Writer) (additional : Nat) : Writer :=
  { writer with
    spilled := writer.spilled || decide (inlineCapacity < writer.bytes.size + additional) }

/-- Appends bytes. -/
def append (writer : Writer) (bytes : Bytes) : Writer :=
  let roomy := writer.reserve bytes.length
  { roomy with bytes := roomy.bytes ++ bytes }

/-- Appends one byte. -/
def push (writer : Writer) (byte : UInt8) : Writer :=
  let roomy := writer.reserve 1
  { roomy with bytes := roomy.bytes.push byte }

/-- Appends a number of 32 bits. -/
def appendUInt32 (writer : Writer) (value : UInt32) : Writer :=
  writer.append (Bytes.ofUInt32 value)

/-- Appends a machine word. -/
def appendWord (writer : Writer) (value : UInt64) : Writer :=
  writer.append (Bytes.ofUInt64 value)

/-- Appends a text and the zero byte that ends it. What follows a NUL inside the text is dropped. -/
def appendText (writer : Writer) (text : Option String) : Writer :=
  writer.append (Bytes.terminated text)

/-- Whether the bytes still lie in place. -/
def isInline (writer : Writer) : Bool :=
  !writer.spilled

/-- Drops all bytes. Room in place, once given up, is not regained. -/
def clear (writer : Writer) : Writer :=
  { writer with bytes := #[] }

/-- A new writer with the same bytes, in place if they fit there. -/
def copy (writer : Writer) : Writer :=
  ⟨writer.bytes, decide (inlineCapacity < writer.bytes.size)⟩

-----------------------------------------------------------------------------------------
-- The bytes and the room in place after each operation
-----------------------------------------------------------------------------------------

@[simp]
theorem toList_append (writer : Writer) (bytes : Bytes)
    : (writer.append bytes).bytes.toList = writer.bytes.toList ++ bytes := by
  simp [append, reserve]

@[simp]
theorem toList_push (writer : Writer) (byte : UInt8)
    : (writer.push byte).bytes.toList = writer.bytes.toList ++ [byte] := by
  simp [push, reserve]

/-- Appended bytes end storage in place exactly if they do not fit there with the bytes before. -/
theorem spilled_append (writer : Writer) (bytes : Bytes)
    : (writer.append bytes).spilled
      = (writer.spilled || decide (inlineCapacity < writer.bytes.size + bytes.length)) :=
  rfl

theorem push_eq_append (writer : Writer) (byte : UInt8)
    : writer.push byte = writer.append [byte] := by
  simp [push, append, reserve]

end Writer

end Typecodes
