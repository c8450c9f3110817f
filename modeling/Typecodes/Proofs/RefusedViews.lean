import Mathlib
import Typecodes.Proofs.AnalysisSteps
import Typecodes.Proofs.FirstOffence
import Typecodes.Proofs.StructuralTypes

/-! Full analysis where a buffer grants no view. As long as there are codes left, that is all that
makes it fail: the first buffer for which both requests are refused ends it, with the wording of the
second refusal. What is stored by then are the types of everything before that buffer, and no
exporter after it is asked for anything.
-/

namespace Typecodes

/-- A logger that does not panic at the line for a new type. -/
def Logger.SparesRegistry (logger : Logger) : Prop :=
  ∀ code node, logger.panicsAfter (.registered code node) = false

-----------------------------------------------------------------------------------------
-- Views that are granted in turn
-----------------------------------------------------------------------------------------

namespace Exporter

/-- A writable view is refused, and a read-only one after it with the given cause. -/
structure Refuses (exporter : Exporter) (host : Host) (refusal : Refusal) : Prop where
  writable : ∃ cause, (exporter.ask .writable host).1 = .error cause
  readOnly : (exporter.ask .readOnly (exporter.ask .writable host).2).1 = .error refusal

theorem refuses_iff {exporter : Exporter} {host : Host} {refusal : Refusal}
    : exporter.Refuses host refusal ↔ (exporter.acquire host).1 = .error refusal := by
  rw [acquire]
  cases asked : exporter.ask .writable host with
  | mk reply after =>
      cases reply with
      | ok view =>
          constructor
          · intro refuses
            obtain ⟨cause, refused⟩ := refuses.writable
            cases (congrArg Prod.fst asked).symm.trans refused
          · intro granted
            cases granted
      | error cause =>
          constructor
          · intro refuses
            have refused := refuses.readOnly
            rwa [asked] at refused
          · intro refused
            refine ⟨⟨cause, congrArg Prod.fst asked⟩, ?_⟩
            rw [asked]
            exact refused

end Exporter

namespace Visit

theorem clear_append {first second : List Visit} {host : Host}
    : Clear (first ++ second) host ↔ Clear first host ∧ Clear second (afterAll first host) := by
  induction first generalizing host with
  | nil => simp [Clear, afterAll]
  | cons visit rest ih => simp [Clear, afterAll, ih, and_assoc]

theorem afterAll_append (first second : List Visit) (host : Host)
    : afterAll (first ++ second) host = afterAll second (afterAll first host) := by
  induction first generalizing host with
  | nil => rfl
  | cons visit rest ih => exact ih (visit.after host)

/-- Exporters see the history alone, so a buffer is the same visit on hosts with one history. -/
theorem buffer_of_history (exporter : Exporter) {host host' : Host}
    (same : host.history = host'.history)
    : (buffer exporter).offence? host = (buffer exporter).offence? host'
      ∧ ((buffer exporter).after host).history = ((buffer exporter).after host').history := by
  obtain ⟨replies, likewise⟩ := exporter.acquire_history same
  constructor
  · rw [offence?, offence?, ← exporter.acquire_isOk, ← exporter.acquire_isOk, replies]
  · rw [after, after]
    cases here : exporter.acquire host with
    | mk reply left =>
        cases there : exporter.acquire host' with
        | mk reply' left' =>
            rw [here, there] at replies likewise
            cases (show reply = reply' from replies)
            cases reply with
            | ok view => exact congrArg (_ :: ·) likewise
            | error refusal => exact likewise

/-- The visit of a buffer that refuses both requests offends. -/
theorem not_clear_of_refused {exporter : Exporter} {host : Host} {refusal : Refusal}
    (refused : (exporter.acquire host).1 = .error refusal) (rest : List Visit)
    : ¬ Clear (buffer exporter :: rest) host := by
  intro clear
  have granted := exporter.acquire_isOk host
  rw [refused] at granted
  have offence := clear.1
  simp [offence?, ← granted, Except.isOk, Except.toBool] at offence

end Visit

/-- The exporters grant views in turn, which are given back, and the history shows that alone from
the one host to the other.
-/
structure Viewed (exporters : List Exporter) (before after : Host) : Prop where
  granted : Visit.Clear (exporters.map .buffer) before
  history : after.history = (Visit.afterAll (exporters.map .buffer) before).history

namespace Viewed

variable {exporters first second : List Exporter} {before middle after : Host}

theorem silent (same : after.history = before.history) : Viewed [] before after :=
  ⟨trivial, same⟩

/-- Exporters grant the same views on a host with the same history, by induction over them. -/
theorem ofHistory {host : Host} (viewed : Viewed exporters before after)
    (same : before.history = host.history)
    : Viewed exporters host after := by
  induction exporters generalizing before host with
  | nil => exact silent (viewed.history.trans same)
  | cons exporter rest ih =>
      obtain ⟨⟨granted, others⟩, history⟩ := viewed
      obtain ⟨offence, left⟩ := Visit.buffer_of_history exporter same
      obtain ⟨later, history'⟩ := ih ⟨others, history⟩ left
      exact ⟨⟨offence.symm.trans granted, later⟩, history'⟩

theorem append (earlier : Viewed first before middle) (later : Viewed second middle after)
    : Viewed (first ++ second) before after := by
  have moved := later.ofHistory earlier.history
  constructor
  · rw [List.map_append, Visit.clear_append]
    exact ⟨earlier.granted, moved.granted⟩
  · rw [List.map_append, Visit.afterAll_append]
    exact moved.history

end Viewed

namespace Shape

theorem exportersAll_append (first second : List Shape)
    : exportersAll (first ++ second) = exportersAll first ++ exportersAll second := by
  induction first with
  | nil => rfl
  | cons item rest ih => simp [exportersAll, ih]

end Shape

/-- The buffers that come before a part, as visits. -/
def Frame.visitsBefore (frames : List Frame) : List Visit :=
  (Shape.exportersAll (before frames)).map .buffer

/-- A buffer in a value comes right after the buffers before it, by induction over its surroundings.
-/
theorem Frame.exporters_around (frames : List Frame) (exporter : Exporter)
    : ∃ later,
        (around frames (.buffer exporter)).exporters
        = Shape.exportersAll (before frames) ++ exporter :: later := by
  induction frames with
  | nil => exact ⟨[], rfl⟩
  | cons frame inner ih =>
      obtain ⟨later, whole⟩ := ih
      refine ⟨later ++ Shape.exportersAll frame.juniors, ?_⟩
      simp [around, before, Shape.exporters, Shape.exportersAll, Shape.exportersAll_append, whole]

namespace Registry

variable {logger : Logger}

-----------------------------------------------------------------------------------------
-- The views that full analysis takes
-----------------------------------------------------------------------------------------

mutual

/-- Full analysis that answers takes a view of every buffer, from left to right, and nothing else
happens to exporters. Witness: structural induction over the shape.
-/
theorem typeOf_viewed {value : Shape} {state after : Hosted Registry} {code : Typecode}
    (typed : (typeOf logger value).run state = (.ok code, after))
    : Viewed value.exporters state.host after.host := by
  cases value with
  | tuple items =>
      rw [typeOf] at typed
      obtain ⟨codes, middle, listed, stored⟩ := Run.run_bind_eq_ok.mp typed
      have viewed := (typesOf_viewed listed).append (.silent (intern_history stored))
      rwa [List.append_nil] at viewed
  | buffer exporter =>
      rw [typeOf] at typed
      obtain ⟨node, middle, viewed, stored⟩ := Run.run_bind_eq_ok.mp typed
      have silent := intern_history stored
      have granted := exporter.acquire_isOk state.host
      rw [Run.run_withView] at viewed
      cases acquired : exporter.acquire state.host with
      | mk reply left =>
          rw [acquired] at viewed granted
          cases reply with
          | error refusal => cases viewed
          | ok view =>
              cases viewed
              refine ⟨⟨?_, trivial⟩, ?_⟩
              · rw [Visit.offence?, ← granted]
                rfl
              · rw [silent]
                simp only [Shape.exporters, List.map_cons, List.map_nil, Visit.afterAll,
                  Visit.after, acquired]
                rfl
  | _ =>
      rw [typeOf] at typed
      exact .silent (intern_history typed)

theorem typesOf_viewed {items : List Shape} {state after : Hosted Registry} {codes : List Typecode}
    (typed : (typesOf logger items).run state = (.ok codes, after))
    : Viewed (Shape.exportersAll items) state.host after.host := by
  cases items with
  | nil =>
      cases typed
      exact .silent rfl
  | cons item rest =>
      rw [typesOf] at typed
      obtain ⟨code, middle, first, others⟩ := Run.run_bind_eq_ok.mp typed
      obtain ⟨more, last, second, done⟩ := Run.run_bind_eq_ok.mp others
      cases done
      exact (typeOf_viewed first).append (typesOf_viewed second)

end

-----------------------------------------------------------------------------------------
-- The first refusal
-----------------------------------------------------------------------------------------

/-- A buffer in a value refuses both requests, and each buffer before it grants a view. The requests
come in turn, so exporters may take note of the earlier ones.
-/
structure RefusesFirst (value : Shape) (host : Host) (frames : List Frame) (exporter : Exporter)
    (refusal : Refusal)
    : Prop where
  place : value = Frame.around frames (.buffer exporter)
  reached : Visit.Clear (Frame.visitsBefore frames) host
  refuses : exporter.Refuses (Visit.afterAll (Frame.visitsBefore frames) host) refusal

/-- How full analysis ends at a buffer in a value: with the wording of the refusal and with what is
left when everything before the buffer is typed, in order from the outermost tuple inwards, and then
the buffer itself, for which nothing is stored.
-/
structure EndsAt (logger : Logger) (start : Hosted Registry) (frames : List Frame)
    (exporter : Exporter) (refusal : Refusal) (finish : Except Stop Typecode × Hosted Registry)
    : Prop where
  outcome : finish.1 = .error (.failure (.resolution refusal.message))
  state
    : ∃ codes middle,
        (typesOf logger (Frame.before frames)).run start = (.ok codes, middle)
        ∧ finish = (typeOf logger (.buffer exporter)).run middle
        ∧ finish.2 = ⟨middle.own, (exporter.acquire middle.host).2⟩
  /-- The requests to the buffer are the last ones, and come after those to the buffers before it.
  -/
  history
    : finish.2.host.history
      = (exporter.acquire (Visit.afterAll (Frame.visitsBefore frames) start.host)).2.history

/-- Where there are codes left and the logger does not panic, only a buffer that grants no view
stops the analysis.
-/
theorem StopsAt.refusal (spares : logger.SparesRegistry) {part : Shape}
    {state after : Hosted Registry} {ending : Stop}
    (stops : StopsAt logger part state ending after) (room : after.own.size < typecodeCount)
    : ∃ exporter refusal,
        part = .buffer exporter ∧ (exporter.acquire state.host).1 = .error refusal := by
  cases stops with
  | refused leaf asked => exact ⟨_, _, leaf, congrArg Prod.fst asked⟩
  | unstored needed stopped =>
      obtain ⟨-, kept, ⟨-, -, full⟩ | ⟨-, code, -, panics⟩⟩ := intern_stops stopped
      · rw [kept] at room
        omega
      · rw [spares] at panics
        cases panics

/-- Where everything before a buffer is typed and the buffer then grants no view, it is the first
one that does not.
-/
theorem refusesFirst_of_typed {frames : List Frame} {exporter : Exporter} {refusal : Refusal}
    {state middle : Hosted Registry} {codes : List Typecode}
    (typed : (typesOf logger (Frame.before frames)).run state = (.ok codes, middle))
    (refused : (exporter.acquire middle.host).1 = .error refusal)
    : RefusesFirst (Frame.around frames (.buffer exporter)) state.host frames exporter refusal := by
  have viewed := typesOf_viewed typed
  refine ⟨rfl, viewed.granted, ?_⟩
  rw [Exporter.refuses_iff, ← refused]
  exact (exporter.acquire_history viewed.history.symm).1

/-- The analysis of a buffer that refuses both requests stores nothing. -/
theorem typeOf_of_refused (logger : Logger) {exporter : Exporter} {refusal : Refusal}
    {state : Hosted Registry} (refused : (exporter.acquire state.host).1 = .error refusal)
    : (typeOf logger (.buffer exporter)).run state
      = (.error (.failure (.resolution refusal.message)),
        ⟨state.own, (exporter.acquire state.host).2⟩) := by
  rw [typeOf]
  apply Run.run_bind_error
  rw [Run.run_withView]
  cases acquired : exporter.acquire state.host with
  | mk reply left =>
      rw [acquired] at refused
      cases refused
      rfl

/-- If each buffer before a place grants a view, everything before the place is typed. Witness: if
the analysis stopped earlier, then at a buffer among them.
-/
theorem typesOf_reaches (spares : logger.SparesRegistry) {frames : List Frame}
    {exporter : Exporter} {state : Hosted Registry}
    (clear : Visit.Clear (Frame.visitsBefore frames) state.host)
    (room
      : ((typeOf logger (Frame.around frames (.buffer exporter))).run state).2.own.size
        < typecodeCount)
    : ∃ codes middle, (typesOf logger (Frame.before frames)).run state = (.ok codes, middle) := by
  cases typed : (typesOf logger (Frame.before frames)).run state with
  | mk outcome after =>
      cases outcome with
      | ok codes => exact ⟨codes, after, rfl⟩
      | error ending =>
          have whole := typeOf_around frames (.buffer exporter) (Run.run_bind_error _ typed)
          rw [whole] at room
          obtain ⟨frame, inner, part, codes, middle, items, early, stops⟩ := typesOf_stops typed
          obtain ⟨other, refusal, rfl, refused⟩ := stops.refusal spares room
          obtain ⟨-, -, refuses⟩ := refusesFirst_of_typed early refused
          obtain ⟨later, whole⟩ := Frame.exporters_around (frame :: inner) other
          have among
              : Frame.visitsBefore frames
                = Frame.visitsBefore (frame :: inner) ++ (other :: later).map .buffer := by
            rw [Frame.visitsBefore, Frame.visitsBefore, ← List.map_append, ← whole, items]
            rfl
          rw [among, Visit.clear_append] at clear
          exact absurd clear.2 (Visit.not_clear_of_refused (Exporter.refuses_iff.mp refuses) _)

theorem RefusesFirst.endsAt (spares : logger.SparesRegistry) {value : Shape} {registry : Registry}
    {host : Host} {frames : List Frame} {exporter : Exporter} {refusal : Refusal}
    (first : RefusesFirst value host frames exporter refusal)
    (room : ((typeOf logger value).run ⟨registry, host⟩).2.own.size < typecodeCount)
    : EndsAt logger ⟨registry, host⟩ frames exporter refusal
        ((typeOf logger value).run ⟨registry, host⟩) := by
  obtain ⟨rfl, reached, refuses⟩ := first
  obtain ⟨codes, middle, typed⟩ := typesOf_reaches spares reached room
  obtain ⟨replies, likewise⟩ := exporter.acquire_history (typesOf_viewed typed).history
  have refused := replies.trans (Exporter.refuses_iff.mp refuses)
  have leaf := typeOf_of_refused logger refused
  have whole := typeOf_around frames _ ((Run.run_bind_ok _ typed).trans leaf)
  rw [whole]
  exact ⟨rfl, ⟨codes, middle, typed, leaf.symm, rfl⟩, likewise⟩

/-- As long as there are codes left, full analysis fails exactly if a buffer is reached that refuses
both requests for a view. The first such buffer settles everything else: no more is stored, and no
exporter is asked after this one.
-/
theorem typeOf_fails_at_first_refusal (spares : logger.SparesRegistry) (value : Shape)
    (registry : Registry) (host : Host)
    (room : ((typeOf logger value).run ⟨registry, host⟩).2.own.size < typecodeCount)
    : let finish := (typeOf logger value).run ⟨registry, host⟩
      ((∃ ending, finish.1 = .error ending)
        ↔ ∃ frames exporter refusal, RefusesFirst value host frames exporter refusal)
      ∧ ∀ frames exporter refusal,
          RefusesFirst value host frames exporter refusal
          → EndsAt logger ⟨registry, host⟩ frames exporter refusal finish := by
  intro finish
  refine ⟨⟨?_, ?_⟩, ?_⟩
  · rintro ⟨ending, stopped⟩
    obtain ⟨frames, part, codes, middle, rfl, typed, stops⟩ :=
      typeOf_stops (Run.run_of_outcome stopped)
    obtain ⟨exporter, refusal, rfl, refused⟩ := stops.refusal spares room
    exact ⟨frames, exporter, refusal, refusesFirst_of_typed typed refused⟩
  · rintro ⟨frames, exporter, refusal, first⟩
    exact ⟨_, (first.endsAt spares room).outcome⟩
  · intro frames exporter refusal first
    exact first.endsAt spares room

/-- An exporter that is met three times and grants a view only once. -/
theorem typeOf_fails_at_first_refusal_shared
    : let exporter : Exporter :=
        .scripted 3 ⟨9⟩ [.ok ⟨1, ⟨1⟩, true, none⟩, .error .notWritable] [.error .unsupported]
      let frames : List Frame :=
        [⟨[.int, .buffer exporter], [.buffer exporter]⟩, ⟨[.bool], [.none]⟩]
      let value : Shape :=
        .tuple [.int, .buffer exporter, .tuple [.bool, .buffer exporter, .none], .buffer exporter]
      let finish := (typeOf .steady value).run ⟨.empty, .fresh⟩
      Logger.steady.SparesRegistry
      ∧ finish.2.own.size < typecodeCount
      ∧ RefusesFirst value .fresh frames exporter .unsupported
      ∧ (∃ ending, finish.1 = .error ending)
      ∧ EndsAt .steady ⟨.empty, .fresh⟩ frames exporter .unsupported finish := by
  intro exporter frames value finish
  have spares : Logger.steady.SparesRegistry := fun _ _ => rfl
  have first : RefusesFirst value .fresh frames exporter .unsupported :=
    ⟨rfl, ⟨rfl, trivial⟩, ⟨_, rfl⟩, rfl⟩
  let middle := ((typesOf .steady [.int, .buffer exporter, .bool]).run ⟨.empty, .fresh⟩).2
  have early
      : ((typesOf .steady [.int, .buffer exporter, .bool]).run ⟨.empty, .fresh⟩).1
        = .ok [⟨0⟩, ⟨1⟩, ⟨2⟩] := by
    unfold exporter
    cbv
  have refused : (exporter.acquire middle.host).1 = .error .unsupported := by
    unfold middle exporter
    cbv
  have size : middle.own.size = 3 := by
    unfold middle exporter
    cbv
  have room : finish.2.own.size < typecodeCount := by
    have leaf := typeOf_of_refused .steady refused
    have whole := typeOf_around frames _ ((Run.run_bind_ok _ (Run.run_of_outcome early)).trans leaf)
    rw [show finish = _ from whole, size]
    decide
  obtain ⟨fails, ends⟩ := typeOf_fails_at_first_refusal spares value .empty .fresh room
  exact ⟨spares, room, first, fails.mpr ⟨_, _, _, first⟩, ends _ _ _ first⟩

end Registry

end Typecodes
