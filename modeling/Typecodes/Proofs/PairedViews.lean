import Mathlib
import Typecodes.Proofs.Encoders
import Typecodes.Proofs.StructuralTypes

/-! What fingerprints and full analysis do to exporters. One view at most is taken of every buffer
that is reached, and it is given back before anything else is asked for; so the buffer events fall
into blocks, one for each buffer from left to right. A buffer that grants no view is the last one.
-/

namespace Typecodes

/-- What happens to an exporter where a view of it is wanted. -/
inductive ViewBlock where
  /-- A writable view is granted, and given back. -/
  | writable (exporter : Exporter) (view : View)
  /-- A writable view is refused; a read-only one is granted, and given back. -/
  | readOnly (exporter : Exporter) (refusal : Refusal) (view : View)
  /-- Both are refused. -/
  | refused (exporter : Exporter) (first second : Refusal)

namespace ViewBlock

/-- The one exporter of a block. -/
def exporter : ViewBlock → Exporter
  | writable exporter _ | readOnly exporter _ _ | refused exporter _ _ => exporter

/-- Whether a view is granted. -/
def granted : ViewBlock → Bool
  | writable _ _ | readOnly _ _ _ => true
  | refused _ _ _ => false

/-- The events of a block in the order of time. -/
def events : ViewBlock → List BufferEvent
  | writable exporter view =>
      [.asked exporter.handle exporter.runtimeType .writable (.ok view),
        .released exporter.handle exporter.runtimeType view]
  | readOnly exporter refusal view =>
      [.asked exporter.handle exporter.runtimeType .writable (.error refusal),
        .asked exporter.handle exporter.runtimeType .readOnly (.ok view),
        .released exporter.handle exporter.runtimeType view]
  | refused exporter first second =>
      [.asked exporter.handle exporter.runtimeType .writable (.error first),
        .asked exporter.handle exporter.runtimeType .readOnly (.error second)]

end ViewBlock

/-- How a run that should take views of the given exporters, in this order, did so. If no view is
refused, it reaches all of them and then answers or fails as expected, unless it stops for an
excused reason.
-/
structure Inspected {α : Type} (exporters : List Exporter) (answers : Bool) (excused : Stop → Prop)
    (before : Host) (outcome : Except Stop α) (after : Host) (blocks : List ViewBlock)
    : Prop where
  history : after.history = (blocks.flatMap ViewBlock.events).reverse ++ before.history
  ordered : blocks.map ViewBlock.exporter <+: exporters
  /-- Only the last block may be a refusal, -/
  last : ∀ block ∈ blocks.dropLast, block.granted = true
  /-- which is a failure of the run. -/
  fails : ∀ block ∈ blocks, block.granted = false → ∃ cause, outcome = .error (.failure cause)
  complete
    : (∀ block ∈ blocks, block.granted = true)
      → (∀ ending, outcome = .error ending → ¬excused ending)
      → blocks.map ViewBlock.exporter = exporters ∧ outcome.isOk = answers

namespace Inspected

variable {α β : Type} {exporters longer : List Exporter} {answers expected : Bool}
  {excused : Stop → Prop} {before after : Host} {blocks : List ViewBlock}

/-- Every view is granted to a run that answers, and it is one that should. -/
theorem of_ok {answer : α}
    (inspected : Inspected exporters answers excused before (.ok answer) after blocks)
    : (∀ block ∈ blocks, block.granted = true)
      ∧ blocks.map ViewBlock.exporter = exporters
      ∧ answers = true := by
  have granted : ∀ block ∈ blocks, block.granted = true := by
    intro block member
    by_contra refused
    obtain ⟨cause, same⟩ := inspected.fails block member (Bool.eq_false_iff.mpr refused)
    cases same
  obtain ⟨visited, answered⟩ := inspected.complete granted nofun
  exact ⟨granted, visited, answered.symm⟩

/-- A stop ends any longer run as well. -/
theorem of_error {ending : Stop}
    (inspected
      : Inspected exporters answers excused before (.error ending : Except Stop α) after blocks)
    (further : exporters <+: longer)
    (sooner : answers = true ∨ exporters = longer ∧ expected = false)
    : Inspected longer expected excused before (.error ending : Except Stop β) after blocks where
  history := inspected.history
  ordered := inspected.ordered.trans further
  last := inspected.last
  fails block member refused := by
    obtain ⟨cause, same⟩ := inspected.fails block member refused
    cases same
    exact ⟨cause, rfl⟩
  complete granted unexcused := by
    have unexcused' := unexcused ending rfl
    obtain ⟨visited, answered⟩ :=
      inspected.complete granted (by rintro _ ⟨⟩; exact unexcused')
    rcases sooner with rfl | ⟨rfl, rfl⟩
    · cases answered
    · exact ⟨visited, rfl⟩

end Inspected

/-- A run that takes views of the given exporters, each until it is done with it. -/
def Run.Inspects {σ α : Type} (exporters : List Exporter) (answers : Bool)
    (excused : Stop → Prop) (work : Run σ α) : Prop :=
  ∀ state, ∃ blocks,
    Inspected exporters answers excused state.host (work.run state).1 (work.run state).2.host blocks

namespace Run.Inspects

variable {σ α β : Type} {excused : Stop → Prop} {exporters others : List Exporter}
  {answers : Bool}

/-- A run that leaves the exporters alone. -/
theorem silent {work : Run σ α}
    (untouched : ∀ state, (work.run state).2.host.history = state.host.history)
    (outcome
      : ∀ state,
          (∀ ending, (work.run state).1 = .error ending → ¬excused ending)
          → (work.run state).1.isOk = answers)
    : work.Inspects [] answers excused :=
  fun state => ⟨[], untouched state, List.prefix_rfl, List.forall_mem_nil _, List.forall_mem_nil _,
    fun _ unexcused => ⟨rfl, outcome state unexcused⟩⟩

theorem ofPure (answer : α) : (pure answer : Run σ α).Inspects [] true excused :=
  silent (fun _ => rfl) fun _ _ => rfl

theorem ofFail (cause : Failure) : (Run.fail cause : Run σ α).Inspects [] false excused :=
  silent (fun _ => rfl) fun _ _ => rfl

/-- A run that takes no views changes nothing about the exporters. -/
theorem untouched {work : Run σ α} (inspects : work.Inspects [] answers excused)
    (state : Hosted σ)
    : (work.run state).2.host.history = state.host.history := by
  obtain ⟨blocks, inspected⟩ := inspects state
  have nothing := List.prefix_nil.mp inspected.ordered
  rw [List.map_eq_nil_iff] at nothing
  rw [inspected.history, nothing]
  rfl

/-- Two runs in a row take the views of both. -/
theorem next {work : Run σ α} {more : α → Run σ β} (first : work.Inspects exporters true excused)
    (second : ∀ answer, (more answer).Inspects others answers excused)
    : (work >>= more).Inspects (exporters ++ others) answers excused := by
  intro state
  obtain ⟨blocks, inspected⟩ := first state
  rw [Run.run_bind]
  cases ran : work.run state with
  | mk outcome after =>
      rw [ran] at inspected
      cases outcome with
      | error ending =>
          exact ⟨blocks, inspected.of_error (List.prefix_append _ _) (.inl rfl)⟩
      | ok answer =>
          obtain ⟨granted, visited, -⟩ := inspected.of_ok
          obtain ⟨rest, continued⟩ := second answer after
          refine ⟨blocks ++ rest, ?_, ?_, ?_, ?_, ?_⟩
          · rw [continued.history, inspected.history]
            simp
          · rw [List.map_append, visited]
            exact (List.prefix_append_right_inj _).mpr continued.ordered
          · intro block member
            rw [List.dropLast_append] at member
            split at member
            · exact granted block (List.dropLast_subset _ member)
            · rcases List.mem_append.mp member with member | member
              · exact granted block member
              · exact continued.last block member
          · intro block member refused
            rcases List.mem_append.mp member with member | member
            · rw [granted block member] at refused
              cases refused
            · exact continued.fails block member refused
          · intro allGranted unexcused
            obtain ⟨here, there⟩ := continued.complete
              (fun block member => allGranted block (List.mem_append_right _ member)) unexcused
            exact ⟨by rw [List.map_append, visited, here], there⟩

/-- A run that cannot answer is the end. -/
theorem halt {work : Run σ α} {more : α → Run σ β} (first : work.Inspects exporters false excused)
    : (work >>= more).Inspects exporters false excused := by
  intro state
  obtain ⟨blocks, inspected⟩ := first state
  rw [Run.run_bind]
  cases ran : work.run state with
  | mk outcome after =>
      rw [ran] at inspected
      cases outcome with
      | error ending =>
          exact ⟨blocks, inspected.of_error List.prefix_rfl (.inr ⟨rfl, rfl⟩)⟩
      | ok answer => cases inspected.of_ok.2.2

/-- What follows a run and takes no views adds none. -/
theorem followed {work : Run σ α} {more : α → Run σ β}
    (first : work.Inspects exporters answers excused)
    (silent : ∀ answer, (more answer).Inspects [] true excused)
    : (work >>= more).Inspects exporters answers excused := by
  cases answers with
  | true =>
      have both := first.next silent
      rwa [List.append_nil] at both
  | false => exact first.halt

/-- Exporters belong to the host, whatever part of a state a run works on. -/
theorem within {τ : Type} {work : Run τ α} (inside : work.Inspects exporters answers excused)
    (part : σ → τ) (put : σ → τ → σ)
    : (Run.within part put work).Inspects exporters answers excused :=
  fun state => inside ⟨part state.own, state.host⟩

/-- A view is given back however its use ends, also by a stop in the middle. -/
theorem withView {exporter : Exporter} {refused : Refusal → Failure} {use : View → Run σ α}
    (used : ∀ view, (use view).Inspects [] answers excused)
    : (Run.withView exporter refused use).Inspects [exporter] answers excused := by
  intro state
  rw [Run.run_withView, Exporter.acquire]
  have afterUse (view : View) (host : Host) (block : ViewBlock) (on : block.exporter = exporter)
      (granted : block.granted = true)
      (events : .released exporter.handle exporter.runtimeType view :: host.history
        = block.events.reverse ++ state.host.history)
      : Inspected [exporter] answers excused state.host ((use view).run ⟨state.own, host⟩).1
          (exporter.release view ((use view).run ⟨state.own, host⟩).2.host) [block] := by
    obtain ⟨inner, inspected⟩ := used view ⟨state.own, host⟩
    have nothing := List.map_eq_nil_iff.mp (List.prefix_nil.mp inspected.ordered)
    subst nothing
    refine ⟨?_, by simp [on], by simp, by simp [granted], ?_⟩
    · show BufferEvent.released _ _ _ :: _ = _
      rw [(used view).untouched]
      simpa using events
    · intro _ unexcused
      exact ⟨by simp [on], (inspected.complete (List.forall_mem_nil _) unexcused).2⟩
  simp only [Exporter.ask]
  cases first : exporter.reply state.host.history .writable with
  | ok view => exact ⟨[.writable exporter view], afterUse view _ _ rfl rfl rfl⟩
  | error refusal =>
      dsimp only
      generalize asked : state.host.observe
        (.asked exporter.handle exporter.runtimeType .writable (.error refusal)) = host
      cases second : exporter.reply host.history .readOnly with
      | ok view =>
          subst asked
          exact ⟨[.readOnly exporter refusal view], afterUse view _ _ rfl rfl rfl⟩
      | error refusal' =>
          subst asked
          refine ⟨[.refused exporter refusal refusal'], rfl, List.prefix_rfl, ?_, ?_, ?_⟩
          · exact List.forall_mem_nil _
          · exact fun _ _ _ => ⟨_, rfl⟩
          · exact fun granted => absurd (granted _ List.mem_cons_self) Bool.false_ne_true

end Run.Inspects

-----------------------------------------------------------------------------------------
-- Fingerprints
-----------------------------------------------------------------------------------------

namespace Shape

mutual

/-- Whether no leaf lacks a fingerprint, given that every buffer grants a view. -/
def encodable : Shape → Bool
  | .tuple items => allEncodable items
  | .scalar element | .descriptor element => element.encodable
  | .array shape => shape.element.encodable
  | .foreign _ => false
  | .none | .bool | .int | .float | .complex | .bytes | .byteArray | .buffer _ => true

/-- Whether no leaf of any shape lacks a fingerprint. -/
def allEncodable : List Shape → Bool
  | [] => true
  | item :: rest => encodable item && allEncodable rest

end

mutual

/-- The exporters of the buffers to the left of the first leaf without a fingerprint, in order. -/
def reached : Shape → List Exporter
  | .buffer exporter => [exporter]
  | .tuple items => reachedAll items
  | _ => []

/-- The exporters of the buffers in shapes, up to the first leaf without a fingerprint. -/
def reachedAll : List Shape → List Exporter
  | [] => []
  | item :: rest => reached item ++ if encodable item then reachedAll rest else []

end

mutual

/-- In a shape without such a leaf every buffer is reached. -/
theorem reached_of_encodable {value : Shape} (encodable : value.encodable = true)
    : value.reached = value.exporters := by
  cases value with
  | tuple items => exact reachedAll_of_encodable encodable
  | _ => rfl

theorem reachedAll_of_encodable {items : List Shape} (encodable : allEncodable items = true)
    : reachedAll items = exportersAll items := by
  cases items with
  | nil => rfl
  | cons item rest =>
      obtain ⟨here, there⟩ := Bool.and_eq_true_iff.mp encodable
      rw [reachedAll, if_pos here, reached_of_encodable here, reachedAll_of_encodable there]
      rfl

end

mutual

/-- The exporters that are reached come first among all. -/
theorem reached_exporters (value : Shape) : value.reached <+: value.exporters := by
  cases value with
  | tuple items => exact reachedAll_exporters items
  | _ => exact List.prefix_rfl

theorem reachedAll_exporters (items : List Shape) : reachedAll items <+: exportersAll items := by
  cases items with
  | nil => exact List.prefix_rfl
  | cons item rest =>
      rw [reachedAll, exportersAll]
      cases complete : item.encodable with
      | true =>
          rw [if_pos rfl, reached_of_encodable complete]
          exact (List.prefix_append_right_inj _).mpr (reachedAll_exporters rest)
      | false =>
          rw [if_neg Bool.false_ne_true, List.append_nil]
          exact (reached_exporters item).trans (List.prefix_append _ _)

end

end Shape

-----------------------------------------------------------------------------------------
-- Writing by any means
-----------------------------------------------------------------------------------------

section Writing

variable {σ : Type} {write : Bytes → Run σ Unit} {excused : Stop → Prop}

theorem ElementType.encodeTo_inspects
    (writes : ∀ bytes, (write bytes).Inspects [] true excused) (element : ElementType)
    : (element.encodeTo write).Inspects [] element.encodable excused := by
  cases element with
  | scalar kind => exact writes _
  | structured layout => exact (writes _).next fun _ => writes _
  | datetime step | timedelta step =>
      exact (writes _).next fun _ => (writes _).next fun _ => writes _
  | object | string | unicode => exact .ofFail _

namespace Shape

mutual

/-- Writing a shape takes a view of every buffer that is reached, by any means of writing that
leaves exporters alone. The views are paired even where a write stops between a grant and the end
of its buffer. Witness: structural induction over the shape; what lacks a fingerprint ends a tuple.
-/
theorem encodeTo_inspects (writes : ∀ bytes, (write bytes).Inspects [] true excused)
    (value : Shape)
    : (value.encodeTo write).Inspects value.reached value.encodable excused := by
  cases value with
  | none | bool | int | float | complex | bytes | byteArray => exact writes _
  | tuple items =>
      exact (writes _).next fun _ => (encodeAllTo_inspects writes items).followed fun _ => writes _
  | scalar element | descriptor element =>
      exact (writes _).next fun _ => element.encodeTo_inspects writes
  | array shape =>
      exact (writes _).next fun _ => (writes _).next fun _ => (writes _).next fun _ =>
        (writes _).next fun _ => shape.element.encodeTo_inspects writes
  | buffer exporter =>
      exact .withView fun view =>
        (writes _).next fun _ => (writes _).next fun _ => (writes _).next fun _ =>
          (writes _).next fun _ => (writes _).next fun _ => writes _
  | foreign runtimeType => exact .ofFail _

theorem encodeAllTo_inspects (writes : ∀ bytes, (write bytes).Inspects [] true excused)
    (items : List Shape)
    : (encodeAllTo write items).Inspects (reachedAll items) (allEncodable items) excused := by
  cases items with
  | nil => exact .ofPure _
  | cons item rest =>
      have first := encodeTo_inspects writes item
      rw [encodeAllTo, reachedAll, allEncodable]
      cases complete : item.encodable with
      | true =>
          rw [complete] at first
          exact first.next fun _ => encodeAllTo_inspects writes rest
      | false =>
          rw [complete] at first
          rw [if_neg Bool.false_ne_true, List.append_nil]
          exact first.halt

end

end Shape

end Writing

/-- Computing a fingerprint takes a view of every buffer up to the first leaf without a fingerprint,
and fails only for such a leaf or for a buffer that grants no view.
-/
theorem Shape.fingerprint_inspects {σ : Type} (value : Shape)
    : (value.fingerprint : Run σ Bytes).Inspects value.reached value.encodable fun _ => False := by
  have appends (bytes : Bytes)
      : (Run.change fun writer : Writer => writer.append bytes).Inspects [] true fun _ => False :=
    .silent (fun _ => rfl) fun _ _ => rfl
  have written := encodeTo_inspects appends value
  rw [← Writer.put_eq_encodeTo] at written
  exact (written.followed fun _ => .silent (fun _ => rfl) fun _ _ => rfl).within _ _

/-- An exporter that is met twice and changes its replies: it grants a read-only view first, and
none the second time.
-/
example
    : let view : View := ⟨1, ⟨1⟩, true, some "d"⟩
      let exporter : Exporter :=
        .scripted 3 ⟨9⟩ [.error .notWritable] [.ok view, .error .unsupported]
      let value : Shape := .tuple [.buffer exporter, .int, .buffer exporter, .buffer exporter]
      let finish := value.fingerprint.run (⟨(), .fresh⟩ : Hosted Unit)
      finish.2.host.history.reverse
        = [ViewBlock.readOnly exporter .notWritable view,
            .refused exporter .notWritable .unsupported].flatMap ViewBlock.events := by
  cbv

-----------------------------------------------------------------------------------------
-- Full analysis
-----------------------------------------------------------------------------------------

namespace Registry

/-- The reasons for which full analysis may stop before it has reached every buffer: the logger
panics, or the registry is full.
-/
def Excused (ending : Stop) : Prop :=
  ending = .panic ∨ ∃ raw, ending = .failure (.invalidTypecode raw)

theorem intern_inspects (logger : Logger) (node : TypeNode)
    : (intern logger node).Inspects [] true Excused := by
  refine .silent (fun state => intern_history rfl) ?_
  intro state unexcused
  cases ran : (intern logger node).run state with
  | mk outcome after =>
      cases outcome with
      | ok code => rfl
      | error ending => exact absurd (intern_eq_error ran) (unexcused ending (by rw [ran]))

mutual

/-- Full analysis takes a view of every buffer up to the first that grants none, by induction over
the shape.
-/
theorem typeOf_inspects (logger : Logger) (value : Shape)
    : (typeOf logger value).Inspects value.exporters true Excused := by
  cases value with
  | tuple items =>
      rw [typeOf]
      exact (typesOf_inspects logger items).followed fun _ => intern_inspects logger _
  | buffer exporter =>
      rw [typeOf]
      exact (Run.Inspects.withView fun _ => .ofPure _).next fun _ => intern_inspects logger _
  | _ =>
      rw [typeOf]
      exact intern_inspects logger _

theorem typesOf_inspects (logger : Logger) (items : List Shape)
    : (typesOf logger items).Inspects (Shape.exportersAll items) true Excused := by
  cases items with
  | nil => exact .ofPure _
  | cons item rest =>
      rw [typesOf]
      exact (typeOf_inspects logger item).next fun _ =>
        (typesOf_inspects logger rest).followed fun _ => .ofPure _

end

end Registry

theorem Analyzer.typeOf_inspects (logger : Logger) (value : Shape)
    : (typeOf logger value).Inspects value.exporters true Registry.Excused :=
  fun state => Registry.typeOf_inspects logger value ⟨state.own.registry, state.host⟩

end Typecodes
