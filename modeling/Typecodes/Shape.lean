import Typecodes.ArrayShape
import Typecodes.Buffer.Exporter

/-! Shapes of host values: what a typecode may depend on. A shape holds type attributes and no
contents; only buffers are inspected late, by asking their exporter for a view.
-/

namespace Typecodes

/-- The type attributes of a host value. -/
inductive Shape where
  | none
  | bool
  | int
  | float
  | complex
  | bytes
  | byteArray
  | tuple (items : List Shape)
  /-- A single element of the given type, without dimensions. -/
  | scalar (element : ElementType)
  | array (shape : ArrayShape)
  /-- An object that exports its memory through views. -/
  | buffer (exporter : Exporter)
  /-- An element type passed around as a value. -/
  | descriptor (element : ElementType)
  /-- Any other object, known by its runtime type. -/
  | foreign (runtimeType : Identity)

namespace Shape

/-- The name of a value's kind. -/
def kindName : Shape → String
  | none => "none"
  | bool => "bool"
  | int => "int"
  | float => "float"
  | complex => "complex"
  | bytes => "bytes"
  | byteArray => "bytearray"
  | tuple _ => "tuple"
  | scalar _ => "scalar"
  | array _ => "array"
  | buffer _ => "buffer"
  | descriptor _ => "dtype"
  | foreign _ => "opaque"

mutual

/-- The long form of a shape. -/
def inspect : Shape → String
  | tuple items => "Tuple([" ++ String.intercalate ", " (inspectAll items) ++ "])"
  | scalar item => s!"Scalar({item.inspect})"
  | array shape => s!"Array({shape.inspect})"
  | buffer exporter => s!"Buffer({exporter.runtimeType.inspect})"
  | descriptor item => s!"DType({item.inspect})"
  | foreign runtimeType => s!"Opaque({runtimeType.inspect})"
  | none => "none"
  | bool => "bool"
  | int => "int"
  | float => "float"
  | complex => "complex"
  | bytes => "bytes"
  | byteArray => "bytearray"

/-- The long forms of a list of shapes. -/
def inspectAll : List Shape → List String
  | [] => []
  | item :: rest => inspect item :: inspectAll rest

end

end Shape

end Typecodes
