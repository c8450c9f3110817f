import Typecodes.ElementType
import Typecodes.Layout

/-! Shapes of arrays: rank, memory order, access and element type. Sizes and contents are no part of
a shape.
-/

namespace Typecodes

/-- The type attributes of an array. -/
structure ArrayShape where
  rank : UInt32
  contiguity : Contiguity
  writable : Bool
  element : ElementType
deriving DecidableEq

namespace ArrayShape

/-- The layout class of the array's contiguity flags. -/
def layout (array : ArrayShape) : Layout :=
  Layout.classify array.contiguity

/-- The same array without write access. -/
def readOnly (array : ArrayShape) : ArrayShape :=
  { array with writable := false }

/-- The long form of a shape. -/
def inspect (array : ArrayShape) : String :=
  "ArrayShape \x7b ndim: " ++ toString array.rank.toNat ++ ", contiguity: "
    ++ array.contiguity.inspect ++ ", writable: " ++ toString array.writable ++ ", dtype: "
    ++ array.element.inspect ++ " \x7d"

end ArrayShape

end Typecodes
