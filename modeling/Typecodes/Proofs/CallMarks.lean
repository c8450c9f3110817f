import Typecodes.Proofs.DispatcherOperations
import Typecodes.Proofs.HostFrames
import Typecodes.Proofs.Outline

/-! The marks of resolver calls among a host's notes. A call is marked at its start and at its end,
and by nothing else: neither a fingerprint nor what a layer does before and after a call leaves such
a mark, and work of a resolver on its own state leaves none.
-/

namespace Typecodes

/-- The answer at the end of a call, if the note is one. -/
def Note.answer? : Note → Option (Except Stop Typecode)
  | answered _ answer => some answer
  | _ => none

namespace Host

/-- The marks of calls among the notes, in the order of time. -/
def marks (host : Host) : List Note :=
  (host.notes.filter Note.marksCall).reverse

/-- The values on which resolvers were called since the host had no notes. -/
def calls (host : Host) : List Shape :=
  host.notes.reverse.filterMap Note.value?

/-- The answers at the ends of calls since the host had no notes. -/
def answers (host : Host) : List (Except Stop Typecode) :=
  host.notes.reverse.filterMap Note.answer?

theorem marks_note_of_mark {mark : Note} (marking : mark.marksCall = true) (host : Host)
    : (host.note mark).marks = host.marks ++ [mark] := by
  simp [marks, note, marking]

theorem unlogged_marks : Unlogged marks :=
  fun host line => by simp [marks, note, Note.marksCall]

theorem marks_resume (host after : Host) : (host.resume after).marks = host.marks := by
  simp [marks, resume, List.filter_filter]

theorem calls_eq (host : Host) : host.calls = host.marks.filterMap Note.value? := by
  rw [calls, marks, ← List.filter_reverse, List.filterMap_filter]
  congr 1
  funext note
  cases note <;> rfl

theorem answers_eq (host : Host) : host.answers = host.marks.filterMap Note.answer? := by
  rw [answers, marks, ← List.filter_reverse, List.filterMap_filter]
  congr 1
  funext note
  cases note <;> rfl

end Host

-----------------------------------------------------------------------------------------
-- Runs that make no calls
-----------------------------------------------------------------------------------------

/-- Marks of calls are no matter of work on a resolver's own state. -/
theorem Run.onSecond_unmarked {σ ω α : Type} (work : Run ω α)
    : (Run.onSecond work : Run (σ × ω) α).Leaves Host.marks :=
  fun state => Host.marks_resume state.host _

/-- Asking exporters makes no calls. -/
theorem Exporter.marks_acquire (exporter : Exporter) (host : Host)
    : (exporter.acquire host).2.marks = host.marks := by
  have asked (request : BufferRequest) (host : Host)
      : (exporter.ask request host).2.marks = host.marks :=
    rfl
  rw [acquire]
  cases granted : exporter.ask .writable host with
  | mk reply first =>
      have early := asked .writable host
      rw [granted] at early
      cases reply with
      | ok view => exact early
      | error refusal => exact (asked .readOnly first).trans early

theorem Writer.unmarked_composable : Composable (Run.Leaves Host.marks) where
  pure := .ofPure ()
  appends appends := by
    intro state
    rw [appends state.own state.host]
  fail _ _ := rfl
  next first second := first.next fun _ => second
  withView exporter use used := by
    intro state
    rw [Run.run_withView]
    have acquired := exporter.marks_acquire state.host
    cases granted : exporter.acquire state.host with
    | mk reply held =>
        rw [granted] at acquired
        cases reply with
        | error refusal => exact acquired
        | ok view => exact (used view ⟨state.own, held⟩).trans acquired

/-- Writing a shape makes no calls. -/
theorem Writer.put_unmarked (value : Shape) : (put value).Leaves Host.marks :=
  unmarked_composable.put value

theorem Shape.fingerprint_unmarked {σ : Type} (value : Shape)
    : (value.fingerprint : Run σ Bytes).Leaves Host.marks :=
  .within ((Writer.put_unmarked value).next fun _ _ => rfl)

variable {logger : Logger}

theorem FingerprintTable.probe_unmarked (value : Shape)
    : (probe logger value).Leaves Host.marks := by
  refine value.fingerprint_unmarked.attempt.next fun printed => ?_
  cases printed with
  | ok bytes =>
      refine Run.Leaves.next ((lock_leaves Host.unlogged_marks).next fun _ _ => rfl) fun found => ?_
      cases found <;> exact .ofPure _
  | error cause =>
      dsimp only
      split
      · exact (Run.Leaves.ofLog Host.unlogged_marks logger _).next fun _ => .ofPure _
      · exact fun _ => rfl

theorem ArrayGrid.probe_unmarked (value : Shape) : (probe value).Leaves Host.marks := by
  intro state
  rcases probe_cases value state with ⟨-, ran⟩ | ⟨slot, -, ran | ⟨code, -, ran⟩ | ⟨-, ran⟩⟩ <;>
    rw [ran]

/-- Looking a value up makes no calls. -/
theorem Dispatcher.probe_unmarked (value : Shape) : (probe logger value).Leaves Host.marks := by
  refine (ArrayGrid.probe_unmarked value).within.next fun said => ?_
  cases said with
  | unserved =>
      refine (FingerprintTable.probe_unmarked value).within.next fun said => ?_
      cases said <;> exact .ofPure _
  | _ => exact .ofPure _

/-- What a dispatcher does after a call makes no further ones. -/
theorem Dispatcher.conclusion_unmarked {ω : Type} (key : Option Place)
    (answer : Except Stop Typecode)
    : (Run.ofExcept answer >>= Layer.keep logger key
        : Run (Dispatcher × ω) (Option Typecode)).Leaves Host.marks :=
  Layer.conclusion_leaves (store_leaves Host.unlogged_marks) key answer

-----------------------------------------------------------------------------------------
-- The marks of one call
-----------------------------------------------------------------------------------------

namespace Layer

variable {σ κ ω : Type} [Layer σ κ]

theorem marks_calling (key : Option κ) (value : Shape) (state : Hosted (σ × ω))
    : (calling key value state).host.marks
      = state.host.marks ++ [.called (key.map (Layer.key σ)) value] :=
  Host.marks_note_of_mark rfl state.host

theorem marks_answering (key : Option κ) (answer : Except Stop Typecode) (worked : Hosted (σ × ω))
    : (answering key answer worked).host.marks
      = worked.host.marks ++ [.answered (key.map (Layer.key σ)) answer] :=
  Host.marks_note_of_mark rfl worked.host

end Layer

end Typecodes
