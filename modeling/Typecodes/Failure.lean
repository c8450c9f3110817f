/-! Why a classification ends without a typecode. A failure is a cause with its data and has one
wording; a stop is either a failure or a panic, which no caller handles.
-/

namespace Typecodes

/-- Why no typecode could be given. -/
inductive Failure where
  /-- A part of the value, of the named kind, has no fingerprint. -/
  | unrecognized (kind : String)
  /-- Storage could not grow while the named work was under way. -/
  | outOfMemory (context : String)
  /-- A number is no typecode: it is negative or past the greatest one. -/
  | invalidTypecode (raw : Int)
  /-- Full analysis of the value failed. -/
  | resolution (message : String)
  /-- The name of an elementary kind has no typecode. -/
  | missingElementary (name : String)
  /-- Pointers have a width for which no pointer-sized integer is known. -/
  | unsupportedPointerWidth (bits : UInt32)
  /-- The process-wide dispatcher is already in place. -/
  | alreadyInitialized
  /-- The process-wide dispatcher is not yet in place. -/
  | notInitialized
deriving DecidableEq

namespace Failure

/-- The wording of a failure. -/
def message : Failure → String
  | unrecognized kind => s!"cannot compute type fingerprint for {kind} value"
  | outOfMemory context => s!"out of memory while {context}"
  | invalidTypecode raw => s!"invalid typecode {raw}"
  | resolution message => s!"type resolution failed: {message}"
  | missingElementary name => s!"missing typecode for elementary type '{name}'"
  | unsupportedPointerWidth bits => s!"unsupported pointer width: {bits.toNat} bits"
  | alreadyInitialized => "typecode dispatcher already initialized"
  | notInitialized => "typecode dispatcher not initialized"

/-- Whether the failure says that a value has no fingerprint. -/
def isUnrecognized : Failure → Bool
  | unrecognized _ => true
  | _ => false

end Failure

/-- Why a run stopped early. -/
inductive Stop where
  /-- A failure, which the caller receives as an answer. -/
  | failure (cause : Failure)
  /-- A panic, which unwinds through every caller. -/
  | panic
deriving DecidableEq

end Typecodes
