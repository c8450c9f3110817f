import Typecodes.ArrayGrid.Slot
import Typecodes.Text.Escaped
import Typecodes.Text.Occurrence
import Typecodes.TypeNode

/-! Lines that the classification writes to the host's log. A line is a cause with its data; its
level and wording follow from it. A logger may panic at lines of its choice.
-/

namespace Typecodes

/-- A line of the log. -/
inductive LogLine where
  /-- A type is about to be stored in the registry under a new code. -/
  | registered (code : Typecode) (node : TypeNode)
  /-- A value has no fingerprint and is about to be resolved on its own. -/
  | uncached (cause : Failure)
  /-- A resolver answered one code while its fingerprint had another one stored already. -/
  | conflict (fingerprint : Bytes) (stored answered : Typecode)
  /-- A fingerprint is about to be stored. -/
  | caching (fingerprint : Bytes) (code : Typecode)
  /-- A grid position is about to be written. -/
  | slotFilled (slot : GridSlot) (code : Typecode)
  /-- A fingerprint table is in use although a panic once interrupted a change of it. -/
  | recovered


namespace LogLine

/-- The level of a line. -/
def level : LogLine → String
  | registered _ _ => "TRACE"
  | uncached _ => "DEBUG"
  | conflict _ _ _ => "DEBUG"
  | caching _ _ => "TRACE"
  | slotFilled _ _ => "TRACE"
  | recovered => "DEBUG"

/-- The wording of a line, without its level. -/
def message : LogLine → String
  | registered code node => s!"registry: {code.display} -> {node.display}"
  | uncached cause => s!"typecache: {cause.message}, resolving uncached"
  | conflict fingerprint stored answered =>
      s!"typecache: fingerprint {Text.escapeBytes fingerprint} already cached as {stored.display}"
        ++ s!", resolver returned {answered.display}"
  | caching fingerprint code =>
      s!"typecache: caching {Text.escapeBytes fingerprint} as {code.display}"
  | slotFilled slot code =>
      s!"typecache: array slot {slot.rank.toNat}d {slot.layout.display} {slot.kind.name}"
        ++ s!" -> {code.display}"
  | recovered => "[typecache] fingerprint table poisoned, recovering"

/-- The whole line as a log shows it. -/
def display (line : LogLine) : String :=
  s!"{line.level} {line.message}"

end LogLine

/-- Where lines go. Every line is written; the logger panics after the lines that it picks. -/
structure Logger where
  panicsAfter : LogLine → Bool

namespace Logger

/-- The logger that never panics. -/
def steady : Logger :=
  ⟨fun _ => false⟩

/-- The logger that panics after each line in which a text occurs. -/
def panickingOn (text : String) : Logger :=
  ⟨fun line => Text.occursIn text.toList line.display.toList⟩

end Logger

end Typecodes
