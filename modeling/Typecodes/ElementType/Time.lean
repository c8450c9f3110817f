import Typecodes.ElementType.Kind

/-! Steps of time that date and duration elements count in. A unit has a byte code; the code 3
stands for no unit.
-/

namespace Typecodes

/-- Units of time, from years down to attoseconds, and the unspecified unit. -/
inductive TimeUnit where
  | year
  | month
  | week
  | day
  | hour
  | minute
  | second
  | millisecond
  | microsecond
  | nanosecond
  | picosecond
  | femtosecond
  | attosecond
  | generic
deriving DecidableEq, Hashable

namespace TimeUnit

/-- Every unit, in the order of the codes. -/
def all : List TimeUnit :=
  [year, month, week, day, hour, minute, second, millisecond, microsecond, nanosecond, picosecond,
    femtosecond, attosecond, generic]

/-- The byte that stands for a unit; 3 is left out. -/
def code : TimeUnit → UInt8
  | year => 0
  | month => 1
  | week => 2
  | day => 4
  | hour => 5
  | minute => 6
  | second => 7
  | millisecond => 8
  | microsecond => 9
  | nanosecond => 10
  | picosecond => 11
  | femtosecond => 12
  | attosecond => 13
  | generic => 14

/-- The unit that a byte stands for. -/
def ofCode (code : UInt8) : Except UnknownCode TimeUnit :=
  match all.find? (fun unit => unit.code = code) with
  | some unit => .ok unit
  | none => .error ⟨"TimeUnit", code⟩

/-- The capitalised name of a unit. -/
def inspect : TimeUnit → String
  | year => "Year"
  | month => "Month"
  | week => "Week"
  | day => "Day"
  | hour => "Hour"
  | minute => "Minute"
  | second => "Second"
  | millisecond => "Millisecond"
  | microsecond => "Microsecond"
  | nanosecond => "Nanosecond"
  | picosecond => "Picosecond"
  | femtosecond => "Femtosecond"
  | attosecond => "Attosecond"
  | generic => "Generic"

-----------------------------------------------------------------------------------------
-- Codes and units determine each other
-----------------------------------------------------------------------------------------

theorem ofCode_code (unit : TimeUnit) : ofCode unit.code = .ok unit := by
  cases unit <;> rfl

/-- No two units share a code. -/
theorem code_inj {left right : TimeUnit} (same : left.code = right.code) : left = right := by
  have decoded := ofCode_code left
  rw [same, ofCode_code right] at decoded
  exact (Except.ok.inj decoded).symm

end TimeUnit

/-- A step of time: so many of a unit. The count keeps all its 32 bits and may be negative. -/
structure TimeStep where
  unit : TimeUnit
  multiplier : Int32
deriving DecidableEq, Hashable

/-- The long form of a step. -/
def TimeStep.inspect (step : TimeStep) : String :=
  "TimeMeta \x7b unit: " ++ step.unit.inspect ++ ", multiplier: "
    ++ toString step.multiplier.toInt ++ " \x7d"

end Typecodes
