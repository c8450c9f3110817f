import Typecodes.ElementType
import Typecodes.Layout
import Typecodes.Typecode

/-! Resolved types as the registry stores them. A tuple type refers to its items by typecode, so a
stored type has bounded size however deeply values nest.
-/

namespace Typecodes

/-- A resolved type, one level deep. -/
inductive TypeNode where
  | none
  | boolean
  | number (kind : ScalarKind)
  | bytes
  | byteArray
  /-- A tuple type, by the typecodes of its items. -/
  | tuple (items : List Typecode)
  | array (element : ElementType) (rank : UInt32) (layout : Layout) (readOnly : Bool)
  /-- A single element that is no number. -/
  | element (item : ElementType)
  | buffer (rank : UInt32) (layout : Layout) (readOnly : Bool) (format : Option String)
      (runtimeType : Identity)
  /-- The type of an element type that is passed around as a value. -/
  | descriptor (element : ElementType)
  /-- The type of any other object. -/
  | foreign (runtimeType : Identity)
deriving DecidableEq, Hashable

namespace TypeNode

/-- The word that marks a type whose values may not be written. -/
def accessMark (readOnly : Bool) : String :=
  if readOnly then "readonly " else ""

/-- The readable form of a type. -/
def display : TypeNode → String
  | none => "none"
  | boolean => "boolean"
  | number kind => kind.name
  | bytes => "bytes"
  | byteArray => "bytearray"
  | tuple items => "(" ++ String.intercalate ", " (items.map Typecode.display) ++ ")"
  | array item rank layout readOnly =>
      accessMark readOnly ++ s!"array({item.inspect}, {rank.toNat}d, {layout.display})"
  | element item => item.inspect
  | buffer rank layout readOnly format runtimeType =>
      let shown := format.getD ""
      accessMark readOnly
        ++ s!"buffer({shown}, {rank.toNat}d, {layout.display}, type={runtimeType.display})"
  | descriptor item => s!"dtype({item.inspect})"
  | foreign runtimeType => s!"object({runtimeType.display})"

end TypeNode

end Typecodes
