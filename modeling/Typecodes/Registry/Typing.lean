import Typecodes.Registry

/-! Full analysis of a value: its type is stored in a registry, items of tuples before the tuple.
Integers, floats and complex numbers of the host have the types of single 64-bit integers, 64-bit
floats and 128-bit complex numbers, and truth values that of single array truth values.
-/

namespace Typecodes

/-- The type of a single element. Truth values have a type of their own and other numbers that of
their kind.
-/
def ElementType.singleNode : ElementType → TypeNode
  | .scalar .bool => .boolean
  | .scalar kind => .number kind
  | element => .element element

/-- The type of an array. -/
def ArrayShape.node (array : ArrayShape) : TypeNode :=
  .array array.element array.rank array.layout (!array.writable)

/-- The type of a buffer through one of its views. The item format counts as the exporter gives
it.
-/
def Exporter.node (exporter : Exporter) (view : View) : TypeNode :=
  .buffer view.rank view.layout view.readOnly view.format exporter.runtimeType

namespace Registry

mutual

/-- The typecode of a value by full analysis. It fails where a buffer grants no view, and what was
stored before stays.
-/
def typeOf (logger : Logger) : Shape → Run Registry Typecode
  | .none => intern logger .none
  | .bool => intern logger .boolean
  | .int => intern logger (.number .pointerSized)
  | .float => intern logger (.number .float64)
  | .complex => intern logger (.number .complex128)
  | .bytes => intern logger .bytes
  | .byteArray => intern logger .byteArray
  | .tuple items => do
      let codes ← typesOf logger items
      intern logger (.tuple codes)
  | .scalar element => intern logger element.singleNode
  | .array shape => intern logger shape.node
  | .buffer exporter => do
      let node ← Run.withView exporter (fun refusal => .resolution refusal.message)
        fun view => pure (exporter.node view)
      intern logger node
  | .descriptor element => intern logger (.descriptor element)
  | .foreign runtimeType => intern logger (.foreign runtimeType)

/-- The typecodes of values, from left to right and up to the first failure. -/
def typesOf (logger : Logger) : List Shape → Run Registry (List Typecode)
  | [] => pure []
  | item :: rest => do
      let code ← typeOf logger item
      let codes ← typesOf logger rest
      return code :: codes

end

end Registry

end Typecodes
