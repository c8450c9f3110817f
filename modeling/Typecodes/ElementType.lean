import Typecodes.Identity
import Typecodes.ElementType.Kind
import Typecodes.ElementType.Time

/-! Element types: what one element of an array is. Every element type has a byte code, but only
numbers, records and steps of time have a fingerprint.
-/

namespace Typecodes

/-- The type of an array's elements, or of a single element. -/
inductive ElementType where
  /-- Numbers of one kind. -/
  | scalar (kind : ScalarKind)
  /-- References to host objects. -/
  | object
  /-- Fixed-width byte strings. -/
  | string
  /-- Fixed-width text. -/
  | unicode
  /-- Records; a record layout is known by its identity and not by its fields. -/
  | structured (layout : Identity)
  /-- Points in time, counted in steps. -/
  | datetime (step : TimeStep)
  /-- Durations, counted in steps. -/
  | timedelta (step : TimeStep)
deriving DecidableEq, Hashable

namespace ElementType

/-- The byte that stands for an element type, without its payload. -/
def code : ElementType → UInt8
  | scalar kind => kind.code
  | object => 16
  | string => 17
  | unicode => 18
  | structured _ => 19
  | datetime _ => 20
  | timedelta _ => 21

/-- The elementary kind of the elements, if they are numbers of such a kind. -/
def elementary? : ElementType → Option ElementaryKind
  | scalar kind => kind.elementary?
  | _ => none

/-- The long form of an element type. -/
def inspect : ElementType → String
  | scalar kind => s!"Scalar({kind.inspect})"
  | object => "Object"
  | string => "String"
  | unicode => "Unicode"
  | structured layout => s!"Structured({layout.inspect})"
  | datetime step => s!"Datetime({step.inspect})"
  | timedelta step => s!"Timedelta({step.inspect})"

end ElementType

end Typecodes
