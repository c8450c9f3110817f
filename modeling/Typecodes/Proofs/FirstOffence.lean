import Typecodes.Proofs.Outline

/-! How a shape is written, step by step. The way through a shape goes from left to right and depth
first; it enters and leaves tuples and visits leaves. Writing appends the bytes of one visit after
the other, whatever the writer holds, and stops at the first leaf that offends: with the kind of
that leaf, and with nothing of it written but its header.
-/

namespace Typecodes

namespace Exporter

/-- Whether one of the two requests for a view is granted: the one for a writable view, or the one
for a read-only view after it.
-/
def grants (exporter : Exporter) (host : Host) : Bool :=
  let (writable, asked) := exporter.ask .writable host
  writable.isOk || (exporter.ask .readOnly asked).1.isOk

theorem acquire_isOk (exporter : Exporter) (host : Host)
    : (exporter.acquire host).1.isOk = exporter.grants host := by
  rw [acquire, grants]
  cases exporter.ask .writable host with
  | mk reply asked => cases reply <;> rfl

end Exporter

/-- A point on the way through a shape. -/
inductive Visit where
  /-- A tuple begins. -/
  | entered
  /-- A tuple ends. -/
  | left
  /-- A leaf that is known by its tag. -/
  | plain (tag : Fingerprint.Tag)
  /-- A leaf with an element type, which the header comes before. -/
  | typed (header : Bytes) (element : ElementType)
  | buffer (exporter : Exporter)
  | foreign

namespace Shape

mutual

/-- The way through a shape. -/
def visits : Shape → List Visit
  | .none => [.plain .none]
  | .bool => [.plain .bool]
  | .int => [.plain .int]
  | .float => [.plain .float]
  | .complex => [.plain .complex]
  | .bytes => [.plain .bytes]
  | .byteArray => [.plain .byteArray]
  | .tuple items => .entered :: (visitsAll items ++ [.left])
  | .scalar element => [.typed [Fingerprint.Tag.scalar.byte] element]
  | .array shape =>
      let extent := Outline.extentBytes shape.rank shape.layout shape.writable
      [.typed (Fingerprint.Tag.array.byte :: extent) shape.element]
  | .buffer exporter => [.buffer exporter]
  | .descriptor element => [.typed [Fingerprint.Tag.descriptor.byte] element]
  | .foreign _ => [.foreign]

/-- The way through shapes one after the other. -/
def visitsAll : List Shape → List Visit
  | [] => []
  | item :: rest => visits item ++ visitsAll rest

end

end Shape

namespace Visit

/-- The kind of a leaf that has no fingerprint when it is visited. -/
def offence? : Visit → Host → Option String
  | typed _ element, _ => if element.encodable then none else some "dtype"
  | buffer exporter, host => if exporter.grants host then none else some "buffer"
  | foreign, _ => some "opaque"
  | entered, _ | left, _ | plain _, _ => none

/-- What is written of a leaf before it can offend. -/
def header : Visit → Bytes
  | typed header _ => header
  | entered | left | plain _ | buffer _ | foreign => []

/-- The bytes of a visit without offence. -/
def bytes : Visit → Host → Bytes
  | entered, _ => [Fingerprint.Tag.tupleStart.byte]
  | left, _ => [Fingerprint.Tag.tupleEnd.byte]
  | plain tag, _ => [tag.byte]
  | typed header element, _ => header ++ element.bytes
  | buffer exporter, host =>
      match exporter.acquire host with
      | (.ok view, _) => (exporter.outline view).encoding
      | (.error _, _) => []
  | foreign, _ => []

/-- The host after a visit. Only buffers are asked anything, and a granted view is given back. -/
def after : Visit → Host → Host
  | buffer exporter, host =>
      match exporter.acquire host with
      | (.ok view, asked) => exporter.release view asked
      | (.error _, asked) => asked
  | _, host => host

/-- The host after visits in a row. -/
def afterAll : List Visit → Host → Host
  | [], host => host
  | visit :: rest, host => afterAll rest (visit.after host)

/-- The bytes of visits in a row, each on the host that the earlier ones left. -/
def bytesOfAll : List Visit → Host → Bytes
  | [], _ => []
  | visit :: rest, host => visit.bytes host ++ bytesOfAll rest (visit.after host)

/-- No visit of a row offends on the host that the earlier ones left. -/
def Clear : List Visit → Host → Prop
  | [], _ => True
  | visit :: rest, host => visit.offence? host = none ∧ Clear rest (visit.after host)

/-- Visits in a row are clear, or one of them is the first to offend. -/
theorem clear_or_offends (visits : List Visit) (host : Host)
    : Clear visits host
      ∨ ∃ before visit later kind,
          visits = before ++ visit :: later
          ∧ Clear before host
          ∧ visit.offence? (afterAll before host) = some kind := by
  induction visits generalizing host with
  | nil => exact .inl trivial
  | cons visit rest ih =>
      cases offence : visit.offence? host with
      | some kind => exact .inr ⟨[], visit, rest, kind, rfl, trivial, offence⟩
      | none =>
          rcases ih (visit.after host) with clear | ⟨before, leaf, later, kind, rfl, clear, offends⟩
          · exact .inl ⟨offence, clear⟩
          · exact .inr ⟨visit :: before, leaf, later, kind, rfl, ⟨offence, clear⟩, offends⟩

end Visit

namespace Writer

/-- A run that appends the given bytes to any writer, ends in the given way and leaves the host as
given, all of which is a matter of the host before it and not of the writer.
-/
def Writes (work : Run Writer Unit) (host : Host) (bytes : Bytes) (outcome : Except Stop Unit)
    (after : Host) : Prop :=
  ∀ writer, ∃ content,
    work.run ⟨writer, host⟩ = (outcome, ⟨content, after⟩)
    ∧ content.bytes.toList = writer.bytes.toList ++ bytes

namespace Writes

variable {work more : Run Writer Unit} {host middle after : Host} {bytes others : Bytes}
  {outcome : Except Stop Unit}

theorem ofAppends (appends : Appends work bytes) (host : Host)
    : Writes work host bytes (.ok ()) host :=
  fun writer => ⟨writer.append bytes, appends writer host, toList_append writer bytes⟩

theorem ofFail (cause : Failure) (host : Host)
    : Writes (Run.fail cause) host [] (.error (.failure cause)) host :=
  fun writer => ⟨writer, rfl, by simp⟩

theorem ofPure (host : Host) : Writes (pure ()) host [] (.ok ()) host :=
  fun writer => ⟨writer, rfl, by simp⟩

/-- Two runs in a row append the bytes of both. -/
theorem next (first : Writes work host bytes (.ok ()) middle)
    (second : Writes more middle others outcome after)
    : Writes (do work; more) host (bytes ++ others) outcome after := by
  intro writer
  obtain ⟨content, ran, grown⟩ := first writer
  obtain ⟨final, ran', grown'⟩ := second content
  refine ⟨final, ?_, ?_⟩
  · rw [Run.run_bind_ok _ ran, ran']
  · rw [grown', grown, List.append_assoc]

/-- What comes after a stop is not done. -/
theorem stopped {ending : Stop} (first : Writes work host bytes (.error ending) middle)
    : Writes (do work; more) host bytes (.error ending) middle := by
  intro writer
  obtain ⟨content, ran, grown⟩ := first writer
  exact ⟨content, Run.run_bind_error _ ran, grown⟩

end Writes

-----------------------------------------------------------------------------------------
-- Writing a shape is making its visits
-----------------------------------------------------------------------------------------

/-- What is done at a visit. -/
def putVisit : Visit → Run Writer Unit
  | .entered => putTag .tupleStart
  | .left => putTag .tupleEnd
  | .plain tag => putTag tag
  | .typed header element => do
      Run.change (·.append header)
      putElementType element
  | .buffer exporter => put (.buffer exporter)
  | .foreign => Run.fail (.unrecognized "opaque")

/-- What is done at visits in a row. -/
def putVisits : List Visit → Run Writer Unit
  | [] => pure ()
  | visit :: rest => do
      putVisit visit
      putVisits rest

theorem putVisits_singleton (visit : Visit) : putVisits [visit] = putVisit visit :=
  bind_pure _

theorem putVisits_append (first second : List Visit)
    : putVisits (first ++ second) = (do putVisits first; putVisits second) := by
  induction first with
  | nil => exact (pure_bind _ _).symm
  | cons visit rest ih => rw [List.cons_append, putVisits, ih, putVisits, bind_assoc]

/-- There is one run that appends given bytes. -/
theorem Appends.eq_change {work : Run Writer Unit} {bytes : Bytes} (appends : Appends work bytes)
    : work = Run.change (·.append bytes) :=
  Run.run_inj fun state => appends state.own state.host

mutual

/-- A shape is written visit by visit, by induction over the shape. -/
theorem put_eq_putVisits (value : Shape) : put value = putVisits value.visits := by
  cases value with
  | none | bool | int | float | complex | bytes | byteArray | foreign _ =>
      rw [put, Shape.visits, putVisits_singleton, putVisit]
  | buffer exporter => rw [Shape.visits, putVisits_singleton, putVisit]
  | tuple items =>
      rw [put, Shape.visits, putVisits, putVisits_append, putVisits_singleton,
        putAll_eq_putVisits items]
      rfl
  | scalar element =>
      rw [Shape.visits, putVisits_singleton, putVisit, put, ← (Appends.ofByte _).eq_change]
      rfl
  | descriptor element =>
      rw [Shape.visits, putVisits_singleton, putVisit, put, ← (Appends.ofByte _).eq_change]
      rfl
  | array shape =>
      have opened := (Appends.ofByte Fingerprint.Tag.array.byte).next
        (putExtent_appends shape.rank shape.layout shape.writable)
      rw [List.singleton_append] at opened
      rw [Shape.visits, putVisits_singleton, putVisit, ← opened.eq_change, put, bind_assoc]
      rfl

theorem putAll_eq_putVisits (items : List Shape)
    : putAll items = putVisits (Shape.visitsAll items) := by
  cases items with
  | nil => rfl
  | cons item rest =>
      rw [putAll, Shape.visitsAll, putVisits_append, put_eq_putVisits item,
        putAll_eq_putVisits rest]

end

-----------------------------------------------------------------------------------------
-- What one visit writes, and what many do
-----------------------------------------------------------------------------------------

/-- A visit without offence appends its bytes. -/
theorem putVisit_clear {visit : Visit} {host : Host} (clear : visit.offence? host = none)
    : Writes (putVisit visit) host (visit.bytes host) (.ok ()) (visit.after host) := by
  cases visit with
  | entered | left | plain tag => exact .ofAppends (.ofByte _) host
  | typed header element =>
      have encodable : element.encodable = true := by simpa [Visit.offence?] using clear
      exact .ofAppends ((Appends.ofBytes header).next (putElementType_appends encodable)) host
  | buffer exporter =>
      intro writer
      rw [putVisit, put, Run.run_withView, Visit.bytes, Visit.after]
      have granted : (exporter.acquire host).1.isOk = true := by
        simpa [Visit.offence?, Exporter.acquire_isOk] using clear
      cases acquired : exporter.acquire host with
      | mk reply asked =>
          rw [acquired] at granted
          cases reply with
          | error refusal => cases granted
          | ok view =>
              dsimp only
              rw [putView_appends]
              exact ⟨_, rfl, toList_append _ _⟩
  | foreign => cases clear

/-- An offending visit fails with its kind and appends its header. -/
theorem putVisit_offending {visit : Visit} {host : Host} {kind : String}
    (offends : visit.offence? host = some kind)
    : Writes (putVisit visit) host visit.header (.error (.failure (.unrecognized kind)))
        (visit.after host) := by
  cases visit with
  | entered | left | plain tag => cases offends
  | typed header element =>
      cases encodable : element.encodable with
      | true => simp [Visit.offence?, encodable] at offends
      | false =>
          obtain rfl : "dtype" = kind := by simpa [Visit.offence?, encodable] using offends
          rw [putVisit, putElementType_eq_fail encodable]
          have opened := Writes.ofAppends (.ofBytes header) host
          have failed := opened.next (.ofFail (.unrecognized "dtype") host)
          rwa [List.append_nil] at failed
  | buffer exporter =>
      intro writer
      rw [putVisit, put, Run.run_withView, Visit.after]
      have refused : exporter.grants host = false ∧ "buffer" = kind := by
        cases granted : exporter.grants host with
        | true => simp [Visit.offence?, granted] at offends
        | false => exact ⟨rfl, by simpa [Visit.offence?, granted] using offends⟩
      obtain ⟨refused, rfl⟩ := refused
      rw [← Exporter.acquire_isOk] at refused
      cases acquired : exporter.acquire host with
      | mk reply asked =>
          rw [acquired] at refused
          cases reply with
          | ok view => cases refused
          | error refusal => exact ⟨writer, rfl, by simp [Visit.header]⟩
  | foreign =>
      cases offends
      exact .ofFail _ host

/-- Visits without offence append their bytes in turn, by induction over them. -/
theorem putVisits_clear {visits : List Visit} {host : Host} (clear : Visit.Clear visits host)
    : Writes (putVisits visits) host (Visit.bytesOfAll visits host) (.ok ())
        (Visit.afterAll visits host) := by
  induction visits generalizing host with
  | nil => exact .ofPure host
  | cons visit rest ih => exact (putVisit_clear clear.1).next (ih clear.2)

/-- The first offending visit is the last one that is made. -/
theorem putVisits_offending {before : List Visit} {visit : Visit} (later : List Visit) {host : Host}
    {kind : String} (clear : Visit.Clear before host)
    (offends : visit.offence? (Visit.afterAll before host) = some kind)
    : Writes (putVisits (before ++ visit :: later)) host
        (Visit.bytesOfAll before host ++ visit.header)
        (.error (.failure (.unrecognized kind))) (visit.after (Visit.afterAll before host)) := by
  rw [putVisits_append]
  exact (putVisits_clear clear).next (putVisit_offending offends).stopped

/-- How a shape is written on a host. -/
structure UpToOffence (value : Shape) (host : Host) : Prop where
  /-- If every leaf has a fingerprint when it is visited, all of the shape is written. -/
  complete
    : Visit.Clear value.visits host
      → Writes (put value) host (Visit.bytesOfAll value.visits host) (.ok ())
          (Visit.afterAll value.visits host)
  /-- Otherwise the bytes of all visits before the first offending leaf are written, and the header
  of that leaf. Its kind is the failure, and no exporter to the right of it is asked anything.
  -/
  cut
    : ∀ before leaf later kind,
        value.visits = before ++ leaf :: later
        → Visit.Clear before host
        → leaf.offence? (Visit.afterAll before host) = some kind
        → Writes (put value) host (Visit.bytesOfAll before host ++ leaf.header)
            (.error (.failure (.unrecognized kind))) (leaf.after (Visit.afterAll before host))
  decided
    : Visit.Clear value.visits host
      ∨ ∃ before leaf later kind,
          value.visits = before ++ leaf :: later
          ∧ Visit.Clear before host
          ∧ leaf.offence? (Visit.afterAll before host) = some kind

/-- Writing a shape only appends, without regard to what the writer holds, and fails exactly at the
first leaf that has no fingerprint when it is visited.
-/
theorem put_up_to_offence (value : Shape) (host : Host) : UpToOffence value host where
  complete clear := by
    rw [put_eq_putVisits]
    exact putVisits_clear clear
  cut before leaf later kind way clear offends := by
    rw [put_eq_putVisits, way]
    exact putVisits_offending later clear offends
  decided := Visit.clear_or_offends value.visits host

/-- An array of objects deep inside a tuple: the seven bytes of its header are the last ones, and
the buffer to the right of it is not asked for a view.
-/
example
    : let refusing : Exporter := .scripted 0 ⟨9⟩ [] []
      let array : Shape := .array ⟨2, ⟨1⟩, true, .object⟩
      let value : Shape := .tuple [.int, .tuple [.none, array, .buffer refusing], .foreign ⟨7⟩]
      let finish := (put value).run ⟨Writer.empty.append [1], .fresh⟩
      finish.1 = .error (.failure (.unrecognized "dtype"))
        ∧ finish.2.own.bytes.toList = [1, 40, 105, 40, 110, 65, 2, 0, 0, 0, 67, 87]
        ∧ finish.2.host = .fresh :=
  ⟨rfl, rfl, rfl⟩

end Writer

end Typecodes
