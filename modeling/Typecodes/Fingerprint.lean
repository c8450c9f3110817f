import Typecodes.Fingerprint.Writer
import Typecodes.Run

/-! Fingerprints: byte strings that stand for shapes. Every node writes one tag and then its
payload; tuples are framed by a start and an end mark, so nesting is never ambiguous. Records are
written by the identity of their layout and not by their fields.
-/

namespace Typecodes

namespace Fingerprint

/-- The first bytes of the nodes, and the byte that ends a tuple. -/
inductive Tag where
  | tupleStart
  | tupleEnd
  | int
  | float
  | complex
  | bool
  | byteArray
  | bytes
  | none
  | buffer
  | scalar
  | array
  | descriptor
deriving DecidableEq

namespace Tag

/-- Every tag. -/
def all : List Tag :=
  [tupleStart, tupleEnd, int, float, complex, bool, byteArray, bytes, none, buffer, scalar, array,
    descriptor]

/-- The character of a tag. -/
def char : Tag → Char
  | tupleStart => '('
  | tupleEnd => ')'
  | int => 'i'
  | float => 'f'
  | complex => 'c'
  | bool => '?'
  | byteArray => 'a'
  | bytes => 'b'
  | none => 'n'
  | buffer => 'B'
  | scalar => 'S'
  | array => 'A'
  | descriptor => 'D'

/-- The byte of a tag. -/
def byte : Tag → UInt8
  | tupleStart => 40
  | tupleEnd => 41
  | int => 105
  | float => 102
  | complex => 99
  | bool => 63
  | byteArray => 97
  | bytes => 98
  | none => 110
  | buffer => 66
  | scalar => 83
  | array => 65
  | descriptor => 68

/-- No two tags share a byte. -/
theorem byte_inj {first second : Tag} (same : first.byte = second.byte) : first = second := by
  revert same
  cases first <;> cases second <;> decide

end Tag

/-- The byte for the access that a value grants. -/
def accessByte (writable : Bool) : UInt8 :=
  if writable then 87 else 82

/-- The long form of a fingerprint. -/
def inspect (bytes : Bytes) : String :=
  "Fingerprint(\"" ++ Text.escapeBytes bytes ++ "\")"

end Fingerprint

namespace Writer

/-- Writes a tag. -/
def putTag (tag : Fingerprint.Tag) : Run Writer Unit :=
  Run.change (·.push tag.byte)

/-- Writes one byte. -/
def putByte (byte : UInt8) : Run Writer Unit :=
  Run.change (·.push byte)

/-- Writes the unit of a step and all 32 bits of its multiplier. -/
def putTimeStep (step : TimeStep) : Run Writer Unit := do
  putByte step.unit.code
  Run.change (·.appendUInt32 step.multiplier.toUInt32)

/-- Writes an element type. Objects and fixed-width strings have no fingerprint; for them nothing is
written.
-/
def putElementType : ElementType → Run Writer Unit
  | .scalar kind => putByte kind.code
  | .structured layout => do
      putByte (ElementType.structured layout).code
      Run.change (·.appendWord layout.word)
  | .datetime step => do
      putByte (ElementType.datetime step).code
      putTimeStep step
  | .timedelta step => do
      putByte (ElementType.timedelta step).code
      putTimeStep step
  | .object | .string | .unicode => Run.fail (.unrecognized "dtype")

/-- Writes what arrays and views have in common: rank, layout class and access. -/
def putExtent (rank : UInt32) (layout : Layout) (writable : Bool) : Run Writer Unit := do
  Run.change (·.appendUInt32 rank)
  putByte layout.byte
  putByte (Fingerprint.accessByte writable)

mutual

/-- Writes a shape. Where a leaf has no fingerprint the run fails, and what was written before that
leaf stays in the writer.
-/
def put : Shape → Run Writer Unit
  | .none => putTag .none
  | .bool => putTag .bool
  | .int => putTag .int
  | .float => putTag .float
  | .complex => putTag .complex
  | .bytes => putTag .bytes
  | .byteArray => putTag .byteArray
  | .tuple items => do
      putTag .tupleStart
      putAll items
      putTag .tupleEnd
  | .scalar element => do
      putTag .scalar
      putElementType element
  | .array shape => do
      putTag .array
      putExtent shape.rank shape.layout shape.writable
      putElementType shape.element
  | .buffer exporter =>
      Run.withView exporter (fun _ => .unrecognized "buffer") fun view => do
        putTag .buffer
        putExtent view.rank view.layout (!view.readOnly)
        Run.change (·.appendText view.format)
        Run.change (·.appendWord exporter.runtimeType.word)
  | .descriptor element => do
      putTag .descriptor
      putElementType element
  | .foreign _ => Run.fail (.unrecognized "opaque")

/-- Writes shapes one after the other. -/
def putAll : List Shape → Run Writer Unit
  | [] => pure ()
  | item :: rest => do
      put item
      putAll rest

end

end Writer

/-- The fingerprint of a shape, or why it has none. Views are asked for from left to right and up to
the first leaf without a fingerprint.
-/
def Shape.fingerprint {σ : Type} (value : Shape) : Run σ Bytes :=
  Run.within (fun _ => Writer.empty) (fun own _ => own) do
    Writer.put value
    return (← Run.own).bytes.toList

end Typecodes
