import Mathlib.Computability.Language
import Typecodes.Proofs.Encoders
import Typecodes.Proofs.UniqueDecoding

/-! What writing a shape spells, by means that may stop at any write. A run that answers has
appended a whole text of its language, and one that stops has appended the beginning of a text, of
which a part is missing. As no fingerprint goes on where another one ends, such a beginning is none.
-/

namespace Typecodes

variable {σ : Type} {content : σ → Bytes}

/-- A means of writing that either appends all the bytes to the content, or stops and appends none
of them.
-/
structure WholeOrNothing (content : σ → Bytes) (write : Bytes → Run σ Unit) : Prop where
  appended
    : ∀ {bytes state after},
        (write bytes).run state = (.ok (), after) → content after.own = content state.own ++ bytes
  withheld
    : ∀ {bytes state ending after},
        (write bytes).run state = (.error ending, after) → content after.own = content state.own

-----------------------------------------------------------------------------------------
-- Runs that spell texts
-----------------------------------------------------------------------------------------

/-- What is there after a run that should append a text of the language. -/
inductive Spelt (texts : Language UInt8) (before : Bytes) : Except Stop Unit → Bytes → Prop
  /-- The run has appended a whole text. -/
  | whole {text after : Bytes} (member : text ∈ texts) (written : after = before ++ text)
    : Spelt texts before (.ok ()) after
  /-- The run has stopped and a part of its text is missing. -/
  | part {ending : Stop} {text missing after : Bytes} (member : text ++ missing ∈ texts)
    (short : missing ≠ []) (written : after = before ++ text)
    : Spelt texts before (.error ending) after

namespace Spelt

variable {texts others larger : Language UInt8} {before text after : Bytes}
  {outcome : Except Stop Unit}

theorem mono (spelt : Spelt texts before outcome after)
    (contained : ∀ text ∈ texts, text ∈ larger)
    : Spelt larger before outcome after := by
  cases spelt with
  | whole member written => exact .whole (contained _ member) written
  | part member short written => exact .part (contained _ member) short written

/-- What stops before another text is wanted has a part of both missing. -/
theorem cut {ending : Stop} (spelt : Spelt texts before (.error ending) after)
    (member : text ∈ others)
    : Spelt (texts * others) before (.error ending) after := by
  cases spelt with
  | part begun short written =>
      have both := Language.append_mem_mul begun member
      rw [List.append_assoc] at both
      exact .part both (List.append_ne_nil_of_left_ne_nil short text) written

/-- What is spelt behind a text is spelt behind what was there before it, with the text at the
front.
-/
theorem behind (member : text ∈ texts) (spelt : Spelt others (before ++ text) outcome after)
    : Spelt (texts * others) before outcome after := by
  cases spelt with
  | whole member' written =>
      rw [List.append_assoc] at written
      exact .whole (Language.append_mem_mul member member') written
  | part begun short written =>
      have both := Language.append_mem_mul member begun
      rw [← List.append_assoc] at both
      rw [List.append_assoc] at written
      exact .part both short written

end Spelt

/-- A run that appends a text of the language, or the beginning of one if it stops. -/
def Run.Spells (content : σ → Bytes) (texts : Language UInt8) (work : Run σ Unit) : Prop :=
  ∀ state, Spelt texts (content state.own) (work.run state).1 (content (work.run state).2.own)

namespace Run.Spells

variable {texts others larger : Language UInt8} {text other : Bytes} {work more : Run σ Unit}

/-- One write of something. -/
theorem ofWrite {write : Bytes → Run σ Unit} (means : WholeOrNothing content write)
    (something : text ≠ [])
    : Spells content {text} (write text) := by
  intro state
  cases ran : (write text).run state with
  | mk outcome after =>
      cases outcome with
      | ok _ => exact .whole rfl (means.appended ran)
      | error ending =>
          have nothing := (means.withheld ran).trans (List.append_nil _).symm
          exact .part rfl something nothing

/-- A run that writes nothing spells the empty text. -/
theorem ofPure : Spells content {[]} (pure ()) :=
  fun _ => .whole rfl (List.append_nil _).symm

/-- Where a run stops before it has written anything, all of a text is missing. -/
theorem ofFail (member : text ∈ texts) (something : text ≠ []) (cause : Failure)
    : Spells content texts (Run.fail cause) :=
  fun _ => .part member something (List.append_nil _).symm

theorem mono (spells : Spells content texts work) (contained : ∀ text ∈ texts, text ∈ larger)
    : Spells content larger work :=
  fun state => (spells state).mono contained

/-- A run that spells one text spells any language with that text. -/
theorem among (spells : Spells content {text} work) (member : text ∈ texts)
    : Spells content texts work := by
  refine spells.mono ?_
  rintro _ rfl
  exact member

/-- Two runs in a row spell a text of each. If the first one stops, a text of the second is missing
as well, so there has to be one.
-/
theorem next (first : Spells content texts work) (second : Spells content others more)
    (member : text ∈ others)
    : Spells content (texts * others) (work >>= fun _ => more) := by
  intro state
  have here := first state
  rw [run_bind]
  cases ran : work.run state with
  | mk outcome middle =>
      rw [ran] at here
      cases here with
      | part begun short written => exact Spelt.cut (.part begun short written) member
      | whole begun written =>
          have there := second middle
          rw [written] at there
          exact there.behind begun

/-- Two runs in a row that spell one text each. -/
theorem append (first : Spells content {text} work) (second : Spells content {other} more)
    : Spells content {text ++ other} (work >>= fun _ => more) := by
  refine (first.next second rfl).mono ?_
  rintro _ ⟨_, rfl, _, rfl, rfl⟩
  rfl

/-- A view does not matter to what is written, unless it is refused; then everything is missing. -/
theorem withView {exporter : Exporter} {refused : Refusal → Failure} {use : View → Run σ Unit}
    (member : text ∈ texts) (something : text ≠ [])
    (used : ∀ view, Spells content texts (use view))
    : Spells content texts (Run.withView exporter refused use) := by
  intro state
  rw [run_withView]
  cases exporter.acquire state.host with
  | mk reply host =>
      cases reply with
      | error refusal => exact .part member something (List.append_nil _).symm
      | ok view => exact used view ⟨state.own, host⟩

end Run.Spells

-----------------------------------------------------------------------------------------
-- The languages of element types and outlines
-----------------------------------------------------------------------------------------

/-- The bytes of element types that have a fingerprint. -/
def ElementType.texts : Language UInt8 :=
  {text | ∃ element : ElementType, element.encodable = true ∧ element.bytes = text}

theorem ElementType.bytes_mem_texts (element : ElementType) (encodable : element.encodable = true)
    : element.bytes ∈ texts :=
  ⟨element, encodable, rfl⟩

namespace Outline

/-- The bytes of encodable outlines. -/
def texts : Language UInt8 :=
  {text | ∃ outline : Outline, outline.encodable = true ∧ outline.encoding = text}

/-- The bytes of encodable outlines in a row. -/
def rows : Language UInt8 :=
  {text | ∃ outlines, allEncodable outlines = true ∧ encodings outlines = text}

theorem encoding_mem_texts (outline : Outline) (encodable : outline.encodable = true)
    : outline.encoding ∈ texts :=
  ⟨outline, encodable, rfl⟩

/-- One more outline at the head of a row. -/
theorem mul_rows {text : Bytes} (member : text ∈ texts * rows) : text ∈ rows := by
  obtain ⟨_, ⟨outline, encodable, rfl⟩, _, ⟨outlines, others, rfl⟩, rfl⟩ := member
  exact ⟨outline :: outlines, Bool.and_eq_true_iff.mpr ⟨encodable, others⟩, rfl⟩

/-- No text goes on where another one ends. -/
theorem not_mem_texts_of_append {text missing : Bytes} (member : text ++ missing ∈ texts)
    (short : missing ≠ [])
    : text ∉ texts := by
  rintro ⟨outline, encodable, rfl⟩
  obtain ⟨whole, encodable', completed⟩ := member
  have same := (List.append_nil _).trans completed
  exact short (encoding_append_inj encodable' encodable same).2.symm

end Outline

-----------------------------------------------------------------------------------------
-- What is spelt for a shape
-----------------------------------------------------------------------------------------

section Writing

variable {write : Bytes → Run σ Unit}

/-- One byte or more, the first of which is known. -/
theorem WholeOrNothing.spells (means : WholeOrNothing content write) (byte : UInt8) (rest : Bytes)
    : Run.Spells content {byte :: rest} (write (byte :: rest)) :=
  .ofWrite means (List.cons_ne_nil _ _)

/-- An element type is spelt as its bytes. One without a fingerprint leaves all of them missing. -/
theorem ElementType.encodeTo_spells (means : WholeOrNothing content write) (element : ElementType)
    : Run.Spells content ElementType.texts (element.encodeTo write) := by
  have missing : (ElementType.scalar .bool).bytes ∈ ElementType.texts := bytes_mem_texts _ rfl
  cases element with
  | scalar kind => exact (means.spells _ _).among (bytes_mem_texts (.scalar kind) rfl)
  | structured layout =>
      exact ((means.spells _ _).append (means.spells _ _)).among
        (bytes_mem_texts (.structured layout) rfl)
  | datetime step =>
      exact ((means.spells _ _).append ((means.spells _ _).append (means.spells _ _))).among
        (bytes_mem_texts (.datetime step) rfl)
  | timedelta step =>
      exact ((means.spells _ _).append ((means.spells _ _).append (means.spells _ _))).among
        (bytes_mem_texts (.timedelta step) rfl)
  | object | string | unicode => exact .ofFail missing (List.cons_ne_nil _ _) _

/-- A header and then an element type spell an outline if the header begins one with every element
type that has a fingerprint.
-/
theorem Run.Spells.element {header : Bytes} {work : Run σ Unit}
    (headed : Run.Spells content {header} work) (means : WholeOrNothing content write)
    (element : ElementType)
    (begins
      : ∀ other : ElementType, other.encodable = true → header ++ other.bytes ∈ Outline.texts)
    : Run.Spells content Outline.texts (work >>= fun _ => element.encodeTo write) := by
  have missing : (ElementType.scalar .bool).bytes ∈ ElementType.texts :=
    ElementType.bytes_mem_texts _ rfl
  refine (headed.next (element.encodeTo_spells means) missing).mono ?_
  rintro _ ⟨_, rfl, _, ⟨other, encodable, rfl⟩, rfl⟩
  exact begins other encodable

namespace Shape

mutual

/-- A shape is spelt as the bytes of an outline. Witness: structural induction over the shape; where
a leaf has no fingerprint or a view is refused, all of an outline is missing.
-/
theorem encodeTo_spells (means : WholeOrNothing content write) (value : Shape)
    : Run.Spells content Outline.texts (value.encodeTo write) := by
  have missing : Outline.encoding .none ∈ Outline.texts := Outline.encoding_mem_texts .none rfl
  have leaf (outline : Outline) (encodable : outline.encodable = true)
      (single : outline.encoding = [outline.tag.byte])
      : Run.Spells content Outline.texts (write [outline.tag.byte]) := by
    rw [← single]
    exact (means.spells _ _).among (Outline.encoding_mem_texts outline encodable)
  cases value with
  | none => exact leaf .none rfl rfl
  | bool => exact leaf .bool rfl rfl
  | int => exact leaf .int rfl rfl
  | float => exact leaf .float rfl rfl
  | complex => exact leaf .complex rfl rfl
  | bytes => exact leaf .bytes rfl rfl
  | byteArray => exact leaf .byteArray rfl rfl
  | tuple items =>
      have opened := means.spells Fingerprint.Tag.tupleStart.byte []
      have closed := means.spells Fingerprint.Tag.tupleEnd.byte []
      have filled := (encodeAllTo_spells means items).next closed rfl
      refine (opened.next filled (Language.append_mem_mul ⟨[], rfl, rfl⟩ rfl)).mono ?_
      rintro _ ⟨_, rfl, _, ⟨_, ⟨outlines, encodable, rfl⟩, _, rfl, rfl⟩, rfl⟩
      exact Outline.encoding_mem_texts (.tuple outlines) encodable
  | scalar element =>
      exact (means.spells _ _).element means element fun other =>
        Outline.encoding_mem_texts (.scalar other)
  | array shape =>
      have tag := means.spells Fingerprint.Tag.array.byte []
      have rank
          : Run.Spells content {Bytes.ofUInt32 shape.rank} (write (Bytes.ofUInt32 shape.rank)) :=
        means.spells _ _
      have layout := means.spells shape.layout.byte []
      have access := means.spells (Fingerprint.accessByte shape.writable) []
      have header := ((tag.append rank).append layout).append access
      simp only [encodeTo, ← bind_assoc]
      exact header.element means shape.element fun other =>
        Outline.encoding_mem_texts (.array shape.rank shape.layout shape.writable other)
  | buffer exporter =>
      rw [encodeTo]
      refine .withView missing (List.cons_ne_nil _ _) fun view => ?_
      have ended : Bytes.terminated view.format ≠ [] :=
        List.append_ne_nil_of_right_ne_nil _ (List.cons_ne_nil _ _)
      have format := Run.Spells.ofWrite means ended
      exact ((means.spells _ _).append ((means.spells _ _).append ((means.spells _ _).append
        ((means.spells _ _).append (format.append (means.spells _ _)))))).among
        (Outline.encoding_mem_texts (exporter.outline view) rfl)
  | descriptor element =>
      exact (means.spells _ _).element means element fun other =>
        Outline.encoding_mem_texts (.descriptor other)
  | foreign runtimeType => exact .ofFail missing (List.cons_ne_nil _ _) _

/-- Shapes in a row are spelt as the bytes of outlines in a row. -/
theorem encodeAllTo_spells (means : WholeOrNothing content write) (items : List Shape)
    : Run.Spells content Outline.rows (encodeAllTo write items) := by
  cases items with
  | nil => exact Run.Spells.ofPure.among ⟨[], rfl, rfl⟩
  | cons item rest =>
      exact ((encodeTo_spells means item).next (encodeAllTo_spells means rest) ⟨[], rfl, rfl⟩).mono
        fun _ => Outline.mul_rows

end

/-- Where nothing was written before, a shape that is written without a stop leaves a text. -/
theorem mem_texts_of_written (means : WholeOrNothing content write) {value : Shape}
    {start after : Hosted σ} (blank : content start.own = [])
    (written : (value.encodeTo write).run start = (.ok (), after))
    : content after.own ∈ Outline.texts := by
  have spelt := value.encodeTo_spells means start
  rw [written, blank] at spelt
  cases spelt with
  | whole member left => exact left ▸ member

/-- Where nothing was written before, what a stop leaves is no text. -/
theorem not_mem_texts_of_stopped (means : WholeOrNothing content write) {value : Shape}
    {start after : Hosted σ} {ending : Stop} (blank : content start.own = [])
    (stopped : (value.encodeTo write).run start = (.error ending, after))
    : content after.own ∉ Outline.texts := by
  have spelt := value.encodeTo_spells means start
  rw [stopped, blank] at spelt
  cases spelt with
  | part member short left => exact left ▸ Outline.not_mem_texts_of_append member short

end Shape

end Writing

/-- Fingerprints are texts. -/
theorem Shape.fingerprint_mem_texts {value : Shape} {state : Hosted σ} {bytes : Bytes}
    (printed : (value.fingerprint.run state).1 = .ok bytes)
    : bytes ∈ Outline.texts := by
  obtain ⟨outline, -, encodable, same, -⟩ := fingerprint_eq_ok (Run.run_of_outcome printed)
  exact ⟨outline, encodable, same.symm⟩

/-- A writer takes all bytes and never stops. -/
theorem Writer.append_wholeOrNothing
    : WholeOrNothing (fun writer : Writer => writer.bytes.toList)
        (fun bytes => Run.change fun writer => writer.append bytes) where
  appended := by
    rintro bytes state _ ⟨⟩
    exact toList_append _ _
  withheld := nofun

end Typecodes
