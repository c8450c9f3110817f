import Typecodes.Host.LogLine
import Typecodes.Shape

/-! The host around the classification: its exporters, its log and its resolver, as far as a run
touches them. Exporters answer from the history of events, and the notes record what a run did.
-/

namespace Typecodes

/-- What a resolver's answer is stored under: the bytes of a fingerprint or a grid position. -/
inductive Key where
  | fingerprint (bytes : Bytes)
  | slot (slot : GridSlot)
deriving DecidableEq

/-- One step of a run that the host can observe. -/
inductive Note where
  | buffer (seen : BufferEvent)
  | line (entry : LogLine)
  /-- A resolver was called on a value whose typecode belongs under the key, if there is one. -/
  | called (key : Option Key) (value : Shape)
  /-- The latest call that was still open came to its end. -/
  | answered (key : Option Key) (answer : Except Stop Typecode)

namespace Note

/-- The buffer event of a note, if it is one. -/
def event? : Note → Option BufferEvent
  | buffer seen => some seen
  | _ => none

/-- The log line of a note, if it is one. -/
def line? : Note → Option LogLine
  | line entry => some entry
  | _ => none

/-- The value of a call, if the note is one. -/
def value? : Note → Option Shape
  | called _ value => some value
  | _ => none

/-- Whether a note marks the start or the end of a call. -/
def marksCall : Note → Bool
  | called _ _ | answered _ _ => true
  | buffer _ | line _ => false

end Note

/-- The host's state. Both lists are newest first. -/
structure Host where
  /-- Everything that ever happened to the exporters. -/
  history : List BufferEvent
  /-- What the present run did so far. -/
  notes : List Note

namespace Host

/-- A host on which nothing has happened. -/
def fresh : Host :=
  ⟨[], []⟩

/-- Adds a note that concerns no exporter. -/
def note (host : Host) (note : Note) : Host :=
  { host with notes := note :: host.notes }

/-- Adds a buffer event to the history and to the notes. -/
def observe (host : Host) (event : BufferEvent) : Host :=
  ⟨event :: host.history, .buffer event :: host.notes⟩

/-- The same host with no notes, as it stands before a new run. -/
def rested (host : Host) : Host :=
  { host with notes := [] }

/-- The host after a stretch of work that took notes of its own. Its buffer events and log lines
follow the earlier notes; marks of calls are no matter of such work and are left out.
-/
def resume (host after : Host) : Host :=
  { after with notes := after.notes.filter (fun note => !note.marksCall) ++ host.notes }

end Host

namespace Exporter

/-- Asks for a view of one kind. -/
def ask (exporter : Exporter) (request : BufferRequest) (host : Host) : BufferReply × Host :=
  let reply := exporter.reply host.history request
  (reply, host.observe (.asked exporter.handle exporter.runtimeType request reply))

/-- Asks for a writable view, and for a read-only one if that is refused. The second refusal is the
one that counts.
-/
def acquire (exporter : Exporter) (host : Host) : BufferReply × Host :=
  match exporter.ask .writable host with
  | (.ok view, host) => (.ok view, host)
  | (.error _, host) => exporter.ask .readOnly host

/-- Gives a granted view back. -/
def release (exporter : Exporter) (view : View) (host : Host) : Host :=
  host.observe (.released exporter.handle exporter.runtimeType view)

end Exporter

end Typecodes
