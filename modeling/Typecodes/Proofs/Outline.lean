import Typecodes.Fingerprint
import Typecodes.Proofs.SelfDelimiting

/-! Outlines: shapes in which a view stands for every buffer. An outline keeps what types and
fingerprints may depend on, its bytes are the fingerprint, and two outlines of one normal form have
the same bytes.
-/

namespace Typecodes

/-- A shape with every buffer replaced by what a view of it shows, and contiguity flags by their
layout class.
-/
inductive Outline where
  | none
  | bool
  | int
  | float
  | complex
  | bytes
  | byteArray
  | tuple (items : List Outline)
  | scalar (element : ElementType)
  | array (rank : UInt32) (layout : Layout) (writable : Bool) (element : ElementType)
  | buffer (rank : UInt32) (layout : Layout) (readOnly : Bool) (format : Option String)
      (runtimeType : Identity)
  | descriptor (element : ElementType)
  | foreign (runtimeType : Identity)

/-- The outline of an array. -/
def ArrayShape.outline (array : ArrayShape) : Outline :=
  .array array.rank array.layout array.writable array.element

/-- The outline of a buffer through one of its views. -/
def Exporter.outline (exporter : Exporter) (view : View) : Outline :=
  .buffer view.rank view.layout view.readOnly view.format exporter.runtimeType

namespace Shape

mutual

/-- The outline of a shape. Views are asked for from left to right and each is given back before
the next is asked for; a shape with a buffer that grants no view has no outline.
-/
def outline : Shape → Run Unit Outline
  | .none => pure .none
  | .bool => pure .bool
  | .int => pure .int
  | .float => pure .float
  | .complex => pure .complex
  | .bytes => pure .bytes
  | .byteArray => pure .byteArray
  | .tuple items => do return .tuple (← outlines items)
  | .scalar element => pure (.scalar element)
  | .array shape => pure shape.outline
  | .buffer exporter =>
      Run.withView exporter (fun _ => .unrecognized "buffer") fun view =>
        pure (exporter.outline view)
  | .descriptor element => pure (.descriptor element)
  | .foreign runtimeType => pure (.foreign runtimeType)

/-- The outlines of shapes, one after the other. -/
def outlines : List Shape → Run Unit (List Outline)
  | [] => pure []
  | item :: rest => do
      let first ← outline item
      let others ← outlines rest
      return first :: others

end

end Shape

-----------------------------------------------------------------------------------------
-- The bytes of an outline
-----------------------------------------------------------------------------------------

/-- Whether elements of the type have a fingerprint. -/
def ElementType.encodable : ElementType → Bool
  | .scalar _ | .structured _ | .datetime _ | .timedelta _ => true
  | .object | .string | .unicode => false

namespace Outline

mutual

/-- Whether every leaf has a fingerprint. -/
def encodable : Outline → Bool
  | .none | .bool | .int | .float | .complex | .bytes | .byteArray | .buffer _ _ _ _ _ => true
  | .tuple items => allEncodable items
  | .scalar element | .array _ _ _ element | .descriptor element => element.encodable
  | .foreign _ => false

/-- Whether every leaf of each outline has a fingerprint. -/
def allEncodable : List Outline → Bool
  | [] => true
  | item :: rest => encodable item && allEncodable rest

end

/-- The tag that an outline begins with. A foreign object begins no fingerprint, and neither does
the end mark of a tuple.
-/
def tag : Outline → Fingerprint.Tag
  | .none => .none
  | .bool => .bool
  | .int => .int
  | .float => .float
  | .complex => .complex
  | .bytes => .bytes
  | .byteArray => .byteArray
  | .tuple _ => .tupleStart
  | .scalar _ => .scalar
  | .array _ _ _ _ => .array
  | .buffer _ _ _ _ _ => .buffer
  | .descriptor _ => .descriptor
  | .foreign _ => .tupleEnd

/-- The bytes of rank, layout class and access. -/
def extentBytes (rank : UInt32) (layout : Layout) (writable : Bool) : Bytes :=
  Bytes.ofUInt32 rank ++ [layout.byte, Fingerprint.accessByte writable]

mutual

/-- What follows the tag of an outline. -/
def payload : Outline → Bytes
  | .tuple items => encodings items ++ [Fingerprint.Tag.tupleEnd.byte]
  | .scalar element | .descriptor element => element.bytes
  | .array rank layout writable element => extentBytes rank layout writable ++ element.bytes
  | .buffer rank layout readOnly format runtimeType =>
      extentBytes rank layout (!readOnly)
        ++ (Bytes.terminated format ++ Bytes.ofUInt64 runtimeType.word)
  | .none | .bool | .int | .float | .complex | .bytes | .byteArray | .foreign _ => []

/-- The bytes of outlines in a row. -/
def encodings : List Outline → Bytes
  | [] => []
  | item :: rest => item.tag.byte :: (payload item ++ encodings rest)

end

/-- The bytes of an outline, which count only where the outline is encodable. -/
def encoding (outline : Outline) : Bytes :=
  outline.tag.byte :: outline.payload

theorem encodings_cons (item : Outline) (rest : List Outline)
    : encodings (item :: rest) = item.encoding ++ encodings rest :=
  rfl

mutual

/-- The normal form: the item format of a buffer counts up to its first NUL, and an absent one
counts as empty.
-/
def normal : Outline → Outline
  | .buffer rank layout readOnly format runtimeType =>
      .buffer rank layout readOnly (some (Text.beforeNul (format.getD ""))) runtimeType
  | .tuple items => .tuple (normals items)
  | .none => .none
  | .bool => .bool
  | .int => .int
  | .float => .float
  | .complex => .complex
  | .bytes => .bytes
  | .byteArray => .byteArray
  | .scalar element => .scalar element
  | .array rank layout writable element => .array rank layout writable element
  | .descriptor element => .descriptor element
  | .foreign runtimeType => .foreign runtimeType

/-- The normal forms of outlines. -/
def normals : List Outline → List Outline
  | [] => []
  | item :: rest => normal item :: normals rest

end

end Outline

-----------------------------------------------------------------------------------------
-- What is written for a shape
-----------------------------------------------------------------------------------------

namespace Writer

/-- Appending twice is appending both at once, also for the room in place. -/
theorem append_append (writer : Writer) (first second : Bytes)
    : (writer.append first).append second = writer.append (first ++ second) := by
  have bytes : ((writer.append first).append second).bytes
      = (writer.append (first ++ second)).bytes := by
    apply Array.toList_inj.mp
    simp only [toList_append, List.append_assoc]
  have spilled : ((writer.append first).append second).spilled
      = (writer.append (first ++ second)).spilled := by
    simp only [spilled_append, ← Array.length_toList, toList_append, List.length_append]
    grind
  exact congrArg₂ Writer.mk bytes spilled

/-- A writer has left its room in place once its bytes no longer fit there. -/
def Sound (writer : Writer) : Prop :=
  inlineCapacity < writer.bytes.size → writer.spilled = true

theorem sound_append (writer : Writer) (bytes : Bytes) : (writer.append bytes).Sound := by
  intro large
  rw [← Array.length_toList, toList_append, List.length_append, Array.length_toList] at large
  rw [spilled_append, decide_eq_true large, Bool.or_true]

/-- Appending nothing changes no sound writer. -/
theorem Sound.append_nil {writer : Writer} (sound : writer.Sound) : writer.append [] = writer := by
  have bytes : (writer.append []).bytes = writer.bytes := by
    apply Array.toList_inj.mp
    simp only [toList_append, List.append_nil]
  have spilled : (writer.append []).spilled = writer.spilled := by
    simp only [spilled_append, List.length_nil, Nat.add_zero, Bool.or_eq_left_iff_imp,
      decide_eq_true_eq]
    exact sound
  exact congrArg₂ Writer.mk bytes spilled

/-- A run that appends the given bytes to any writer and does nothing else. -/
def Appends (work : Run Writer Unit) (bytes : Bytes) : Prop :=
  ∀ writer host, work.run ⟨writer, host⟩ = (.ok (), ⟨writer.append bytes, host⟩)

namespace Appends

theorem ofBytes (bytes : Bytes) : Appends (Run.change (·.append bytes)) bytes :=
  fun _ _ => rfl

theorem ofByte (byte : UInt8) : Appends (Run.change (·.push byte)) [byte] := by
  intro writer host
  rw [← push_eq_append]
  rfl

/-- Two such runs in a row append the bytes of both. -/
theorem next {work more : Run Writer Unit} {bytes others : Bytes}
    (first : Appends work bytes) (second : Appends more others)
    : Appends (do work; more) (bytes ++ others) := by
  intro writer host
  rw [Run.run_bind_ok _ (first writer host), second, append_append]

end Appends

theorem putTimeStep_appends (step : TimeStep) : Appends (putTimeStep step) step.bytes :=
  (Appends.ofByte _).next (.ofBytes _)

theorem putExtent_appends (rank : UInt32) (layout : Layout) (writable : Bool)
    : Appends (putExtent rank layout writable) (Outline.extentBytes rank layout writable) :=
  (Appends.ofBytes _).next ((Appends.ofByte _).next (.ofByte _))

/-- An element type that has a fingerprint is written by its code and payload. -/
theorem putElementType_appends {element : ElementType} (encodable : element.encodable = true)
    : Appends (putElementType element) element.bytes := by
  cases element with
  | scalar kind => exact .ofByte _
  | structured layout => exact (Appends.ofByte _).next (.ofBytes _)
  | datetime step => exact (Appends.ofByte _).next (putTimeStep_appends step)
  | timedelta step => exact (Appends.ofByte _).next (putTimeStep_appends step)
  | object | string | unicode => contradiction

/-- A granted view is written by its outline. -/
theorem putView_appends (exporter : Exporter) (view : View)
    : Appends
        (do
          putTag .buffer
          putExtent view.rank view.layout (!view.readOnly)
          Run.change (·.appendText view.format)
          Run.change (·.appendWord exporter.runtimeType.word))
        (exporter.outline view).encoding :=
  (Appends.ofByte _).next
    ((putExtent_appends _ _ _).next ((Appends.ofBytes _).next (.ofBytes _)))

/-- Any other element type is refused and nothing is written for it. -/
theorem putElementType_eq_fail {element : ElementType} (refused : element.encodable = false)
    : putElementType element = Run.fail (.unrecognized "dtype") := by
  cases element with
  | object | string | unicode => rfl
  | scalar _ | structured _ | datetime _ | timedelta _ => contradiction

/-- What an answered run of the given kind has done to the writer and to the host. -/
theorem Appends.eq_ok {work : Run Writer Unit} {bytes : Bytes} (appends : Appends work bytes)
    {state after : Hosted Writer} (answered : work.run state = (.ok (), after))
    : after = ⟨state.own.append bytes, state.host⟩ := by
  have same := (appends state.own state.host).symm.trans answered
  exact (Prod.mk.inj same).2.symm

/-- A run that appends and then writes an element type appends both, if it answers at all. -/
theorem Appends.element_eq_ok {work : Run Writer Unit} {bytes : Bytes} {element : ElementType}
    (appends : Appends work bytes) {state after : Hosted Writer}
    (answered : (work >>= fun _ => putElementType element).run state = (.ok (), after))
    : element.encodable = true
      ∧ after = ⟨state.own.append (bytes ++ element.bytes), state.host⟩ := by
  cases encodable : element.encodable with
  | true => exact ⟨rfl, (appends.next (putElementType_appends encodable)).eq_ok answered⟩
  | false =>
      rw [putElementType_eq_fail encodable, Run.run_bind_ok _ (appends state.own state.host)]
        at answered
      cases answered

mutual

/-- A shape that is written without failure has an encodable outline, on the same views, and what is
written is the bytes of the outline. Witness: structural induction over the shape; a leaf is one of
the appending runs, and a tuple's items are written between its marks.
-/
theorem put_eq_ok {value : Shape} {state after : Hosted Writer}
    (written : (put value).run state = (.ok (), after))
    : ∃ outline,
        value.outline.run ⟨(), state.host⟩ = (.ok outline, ⟨(), after.host⟩)
        ∧ outline.encodable = true
        ∧ after.own = state.own.append outline.encoding := by
  cases value with
  | none | bool | int | float | complex | bytes | byteArray =>
      obtain rfl := (Appends.ofByte _).eq_ok written
      exact ⟨_, rfl, rfl, rfl⟩
  | tuple items =>
      obtain ⟨_, opened, start, written⟩ := Run.run_bind_eq_ok.mp written
      obtain ⟨_, filled, content, finish⟩ := Run.run_bind_eq_ok.mp written
      obtain rfl := (Appends.ofByte _).eq_ok start
      obtain ⟨outlines, views, encodable, bytes⟩ := putAll_eq_ok (sound_append _ _) content
      obtain rfl := (Appends.ofByte _).eq_ok finish
      refine ⟨.tuple outlines, Run.run_bind_ok _ views, encodable, ?_⟩
      simp only [bytes, append_append, Outline.encoding, Outline.payload, Outline.tag,
        List.nil_append, List.cons_append]
  | scalar element =>
      obtain ⟨encodable, rfl⟩ := (Appends.ofByte _).element_eq_ok written
      exact ⟨_, rfl, encodable, rfl⟩
  | array shape =>
      have opened := (Appends.ofByte Fingerprint.Tag.array.byte).next
        (putExtent_appends shape.rank shape.layout shape.writable)
      simp only [put, ← bind_assoc] at written
      obtain ⟨encodable, rfl⟩ := opened.element_eq_ok written
      exact ⟨_, rfl, encodable, rfl⟩
  | buffer exporter =>
      rw [put, Run.run_withView] at written
      rw [Shape.outline, Run.run_withView]
      cases granted : exporter.acquire state.host with
      | mk reply host =>
          rw [granted] at written
          cases reply with
          | error refusal => cases written
          | ok view =>
              dsimp only at written
              rw [putView_appends] at written
              cases written
              exact ⟨exporter.outline view, rfl, rfl, rfl⟩
  | descriptor element =>
      obtain ⟨encodable, rfl⟩ := (Appends.ofByte _).element_eq_ok written
      exact ⟨_, rfl, encodable, rfl⟩
  | foreign runtimeType => cases written

/-- Shapes that are written one after the other have encodable outlines, and what is written is
their bytes in a row.
-/
theorem putAll_eq_ok {items : List Shape} {state after : Hosted Writer} (sound : state.own.Sound)
    (written : (putAll items).run state = (.ok (), after))
    : ∃ outlines,
        (Shape.outlines items).run ⟨(), state.host⟩ = (.ok outlines, ⟨(), after.host⟩)
        ∧ Outline.allEncodable outlines = true
        ∧ after.own = state.own.append (Outline.encodings outlines) := by
  cases items with
  | nil =>
      cases written
      exact ⟨[], rfl, rfl, sound.append_nil.symm⟩
  | cons item rest =>
      obtain ⟨_, middle, first, others⟩ := Run.run_bind_eq_ok.mp written
      obtain ⟨outline, views, encodable, bytes⟩ := put_eq_ok first
      obtain ⟨outlines, moreViews, allEncodable, moreBytes⟩ :=
        putAll_eq_ok (bytes ▸ sound_append _ _) others
      refine ⟨outline :: outlines, ?_, ?_, ?_⟩
      · exact Run.run_bind_ok _ views |>.trans (Run.run_bind_ok _ moreViews)
      · simp only [Outline.allEncodable, encodable, allEncodable, Bool.and_self]
      · rw [moreBytes, bytes, append_append, Outline.encodings_cons]

end

mutual

/-- A shape with an encodable outline is written, on the same views, as the bytes of the outline, by
induction over the shape.
-/
theorem put_of_outline {value : Shape} {host after : Host} {outline : Outline} (writer : Writer)
    (views : value.outline.run ⟨(), host⟩ = (.ok outline, ⟨(), after⟩))
    (encodable : outline.encodable = true)
    : (put value).run ⟨writer, host⟩ = (.ok (), ⟨writer.append outline.encoding, after⟩) := by
  cases value with
  | none | bool | int | float | complex | bytes | byteArray =>
      cases views
      exact Appends.ofByte _ writer host
  | tuple items =>
      obtain ⟨outlines, ⟨⟨⟩, middle⟩, parts, finish⟩ := Run.run_bind_eq_ok.mp views
      cases finish
      have content := putAll_of_outlines (sound_append writer [Fingerprint.Tag.tupleStart.byte])
        parts encodable
      have start : (putTag .tupleStart).run ⟨writer, host⟩ = (.ok (), ⟨writer.append _, host⟩) :=
        Appends.ofByte _ writer host
      rw [put, Run.run_bind_ok _ start, Run.run_bind_ok _ content]
      refine (Appends.ofByte _ _ _).trans ?_
      simp only [append_append, Outline.encoding, Outline.payload, Outline.tag, List.nil_append,
        List.cons_append]
  | scalar element | descriptor element =>
      cases views
      exact ((Appends.ofByte _).next (putElementType_appends encodable)) writer host
  | array shape =>
      cases views
      exact ((Appends.ofByte _).next
        ((putExtent_appends _ _ _).next (putElementType_appends encodable))) writer host
  | buffer exporter =>
      rw [Shape.outline, Run.run_withView] at views
      rw [put, Run.run_withView]
      cases granted : exporter.acquire host with
      | mk reply left =>
          rw [granted] at views
          cases reply with
          | error refusal => cases views
          | ok view =>
              cases views
              dsimp only
              rw [putView_appends]
              rfl
  | foreign runtimeType =>
      cases views
      cases encodable

theorem putAll_of_outlines {items : List Shape} {host after : Host} {outlines : List Outline}
    {writer : Writer} (sound : writer.Sound)
    (views : (Shape.outlines items).run ⟨(), host⟩ = (.ok outlines, ⟨(), after⟩))
    (encodable : Outline.allEncodable outlines = true)
    : (putAll items).run ⟨writer, host⟩
      = (.ok (), ⟨writer.append (Outline.encodings outlines), after⟩) := by
  cases items with
  | nil =>
      cases views
      rw [Outline.encodings, sound.append_nil]
      rfl
  | cons item rest =>
      obtain ⟨outline, ⟨⟨⟩, middle⟩, first, views⟩ := Run.run_bind_eq_ok.mp views
      obtain ⟨others, ⟨⟨⟩, last⟩, second, views⟩ := Run.run_bind_eq_ok.mp views
      cases views
      obtain ⟨here, there⟩ := Bool.and_eq_true_iff.mp encodable
      rw [putAll, Run.run_bind_ok _ (put_of_outline writer first here),
        putAll_of_outlines (sound_append _ _) second there, append_append, Outline.encodings_cons]

end

/-- A property of runs that the parts of writing a shape have, and that putting them together keeps.
-/
structure Composable (holds : Run Writer Unit → Prop) : Prop where
  pure : holds (pure ())
  appends : ∀ {work bytes}, Appends work bytes → holds work
  fail : ∀ kind, holds (Run.fail (.unrecognized kind))
  next : ∀ {work more}, holds work → holds more → holds (do work; more)
  withView
    : ∀ exporter {use},
        (∀ view, holds (use view))
        → holds (Run.withView exporter (fun _ => .unrecognized "buffer") use)

namespace Composable

variable {holds : Run Writer Unit → Prop}

theorem putElementType (composable : Composable holds) (element : ElementType)
    : holds (putElementType element) := by
  cases encodable : element.encodable with
  | true => exact composable.appends (putElementType_appends encodable)
  | false =>
      rw [putElementType_eq_fail encodable]
      exact composable.fail _

mutual

/-- Writing a shape has the property, by induction over the shape. -/
theorem put (composable : Composable holds) (value : Shape) : holds (put value) := by
  cases value with
  | none | bool | int | float | complex | bytes | byteArray =>
      exact composable.appends (.ofByte _)
  | tuple items =>
      have opened := composable.appends (.ofByte Fingerprint.Tag.tupleStart.byte)
      have closed := composable.appends (.ofByte Fingerprint.Tag.tupleEnd.byte)
      exact composable.next opened (composable.next (composable.putAll items) closed)
  | scalar element | descriptor element =>
      exact composable.next (composable.appends (.ofByte _)) (composable.putElementType element)
  | array shape =>
      have extent := putExtent_appends shape.rank shape.layout shape.writable
      exact composable.next (composable.appends (.ofByte _))
        (composable.next (composable.appends extent) (composable.putElementType shape.element))
  | buffer exporter =>
      exact composable.withView exporter fun view =>
        composable.appends (putView_appends exporter view)
  | foreign runtimeType => exact composable.fail "opaque"

theorem putAll (composable : Composable holds) (items : List Shape) : holds (putAll items) := by
  cases items with
  | nil => exact composable.pure
  | cons item rest => exact composable.next (composable.put item) (composable.putAll rest)

end

end Composable

/-- A run that cannot fail in any other way than for want of a fingerprint. -/
def Recognizes (work : Run Writer Unit) : Prop :=
  ∀ ⦃state after ending⦄,
    work.run state = (.error ending, after) → ∃ kind, ending = .failure (.unrecognized kind)

theorem recognizes_composable : Composable Recognizes where
  pure := by
    intro state after ending stopped
    cases stopped
  appends appends := by
    intro state after ending stopped
    cases (appends state.own state.host).symm.trans stopped
  fail kind := by
    intro state after ending stopped
    cases stopped
    exact ⟨kind, rfl⟩
  next first second := by
    intro state after ending stopped
    rcases Run.run_bind_eq_error.mp stopped with early | ⟨_, middle, _, late⟩
    · exact first early
    · exact second late
  withView exporter use used := by
    intro state after ending stopped
    rw [Run.run_withView] at stopped
    cases granted : exporter.acquire state.host with
    | mk reply host =>
        rw [granted] at stopped
        cases reply with
        | error refusal =>
            cases stopped
            exact ⟨_, rfl⟩
        | ok view =>
            obtain ⟨ended, -⟩ := Prod.mk.inj stopped
            exact used view (Run.run_of_outcome ended)

/-- Writing a shape fails only where a leaf has no fingerprint. -/
theorem put_recognizes (value : Shape) : Recognizes (put value) :=
  recognizes_composable.put value

end Writer

-----------------------------------------------------------------------------------------
-- Fingerprints are the bytes of outlines
-----------------------------------------------------------------------------------------

namespace Shape

variable {σ : Type}

/-- Computing a fingerprint writes the shape into an empty writer and leaves the own state alone. -/
theorem run_fingerprint (value : Shape) (state : Hosted σ)
    : value.fingerprint.run state
      = match (Writer.put value).run ⟨.empty, state.host⟩ with
        | (.ok _, after) => (.ok after.own.bytes.toList, ⟨state.own, after.host⟩)
        | (.error ending, after) => (.error ending, ⟨state.own, after.host⟩) := by
  rw [fingerprint, Run.run_within, Run.run_bind]
  cases (Writer.put value).run ⟨.empty, state.host⟩ with
  | mk outcome after => cases outcome <;> rfl

/-- The own state around a fingerprint does not matter to it. -/
theorem fingerprint_outcome {τ : Type} (value : Shape) (own : τ) (state : Hosted σ)
    : (value.fingerprint.run state).1
      = (value.fingerprint.run (⟨own, state.host⟩ : Hosted τ)).1 := by
  rw [run_fingerprint, run_fingerprint]
  cases (Writer.put value).run ⟨.empty, state.host⟩ with
  | mk outcome after => cases outcome <;> rfl

/-- A fingerprint is the bytes of the outline that the very views show that the run asks for. -/
theorem fingerprint_eq_ok {value : Shape} {state after : Hosted σ} {bytes : Bytes}
    (encodes : value.fingerprint.run state = (.ok bytes, after))
    : ∃ outline,
        value.outline.run ⟨(), state.host⟩ = (.ok outline, ⟨(), after.host⟩)
        ∧ outline.encodable = true
        ∧ bytes = outline.encoding
        ∧ after.own = state.own := by
  rw [run_fingerprint] at encodes
  cases written : (Writer.put value).run ⟨.empty, state.host⟩ with
  | mk outcome finish =>
      rw [written] at encodes
      cases outcome with
      | error ending => cases encodes
      | ok _ =>
          cases encodes
          obtain ⟨outline, views, encodable, own⟩ := Writer.put_eq_ok written
          refine ⟨outline, views, encodable, ?_, rfl⟩
          rw [own, Writer.toList_append]
          rfl

/-- A value with an encodable outline has the outline's bytes for its fingerprint. -/
theorem fingerprint_of_outline {value : Shape} {state : Hosted σ} {host : Host} {outline : Outline}
    (views : value.outline.run ⟨(), state.host⟩ = (.ok outline, ⟨(), host⟩))
    (encodable : outline.encodable = true)
    : value.fingerprint.run state = (.ok outline.encoding, ⟨state.own, host⟩) := by
  rw [run_fingerprint, Writer.put_of_outline .empty views encodable]
  simp [Writer.empty]

/-- An array of encodable elements has a fingerprint, for which nothing is asked of any exporter. -/
theorem fingerprint_array {array : ArrayShape} (encodable : array.element.encodable = true)
    (state : Hosted σ)
    : (Shape.array array).fingerprint.run state = (.ok array.outline.encoding, state) :=
  fingerprint_of_outline rfl encodable

/-- Only arrays have the outline of an array. -/
theorem outline_eq_array {value : Shape} {state after : Hosted Unit} {rank : UInt32}
    {layout : Layout} {writable : Bool} {element : ElementType}
    (views : value.outline.run state = (.ok (.array rank layout writable element), after))
    : ∃ array, value = .array array ∧ array.outline = .array rank layout writable element := by
  cases value with
  | array shape =>
      cases views
      exact ⟨shape, rfl, rfl⟩
  | tuple items =>
      obtain ⟨outlines, middle, -, finish⟩ := Run.run_bind_eq_ok.mp views
      cases finish
  | buffer exporter =>
      rw [outline, Run.run_withView] at views
      cases granted : exporter.acquire state.host with
      | mk reply host =>
          rw [granted] at views
          cases reply <;> cases views
  | _ => cases views

/-- A fingerprint is missing only where a leaf of the shape has none. -/
theorem fingerprint_eq_error {value : Shape} {state after : Hosted σ} {ending : Stop}
    (stopped : value.fingerprint.run state = (.error ending, after))
    : (∃ kind, ending = .failure (.unrecognized kind)) ∧ after.own = state.own := by
  rw [run_fingerprint] at stopped
  cases written : (Writer.put value).run ⟨.empty, state.host⟩ with
  | mk outcome finish =>
      rw [written] at stopped
      cases outcome with
      | ok _ => cases stopped
      | error early =>
          cases stopped
          exact ⟨Writer.put_recognizes value written, rfl⟩

end Shape

end Typecodes
