import Typecodes.Proofs.Outline

/-! When two hosts are alike. Runs may leave different lines in the log and different marks at
resolver calls, and still have done the same: the same happened to the exporters, and resolvers
were called on the same values. What exporters and resolvers answer cannot tell such hosts apart.
-/

namespace Typecodes

namespace Host

/-- The exporters went through the same, before the run and in it, and the resolver calls of the
run are on the same values.
-/
structure Alike (first second : Host) : Prop where
  history : first.history = second.history
  events : first.notes.filterMap Note.event? = second.notes.filterMap Note.event?
  calls : first.notes.filterMap Note.value? = second.notes.filterMap Note.value?

namespace Alike

variable {first second third : Host}

theorem refl (host : Host) : host.Alike host :=
  ⟨rfl, rfl, rfl⟩

theorem symm (alike : first.Alike second) : second.Alike first :=
  ⟨alike.history.symm, alike.events.symm, alike.calls.symm⟩

theorem trans (left : first.Alike second) (right : second.Alike third) : first.Alike third :=
  ⟨left.history.trans right.history, left.events.trans right.events,
    left.calls.trans right.calls⟩

/-- A note that is neither an event nor a call makes no difference. -/
theorem note {entry : Note} (noEvent : entry.event? = none) (noCall : entry.value? = none)
    (host : Host)
    : (host.note entry).Alike host := by
  refine ⟨rfl, ?_, ?_⟩
  · simp [Host.note, noEvent]
  · simp [Host.note, noCall]

/-- The keys of calls make no difference. -/
theorem called (alike : first.Alike second) (key key' : Option Key) (value : Shape)
    : (first.note (.called key value)).Alike (second.note (.called key' value)) := by
  refine ⟨alike.history, ?_, ?_⟩
  · exact alike.events
  · exact congrArg (value :: ·) alike.calls

/-- Alike hosts are the same to work that starts without notes, and alike after it. -/
theorem resume (alike : first.Alike second) (after : Host)
    : (first.resume after).Alike (second.resume after) := by
  refine ⟨rfl, ?_, ?_⟩
  · simp only [Host.resume, List.filterMap_append, alike.events]
  · simp only [Host.resume, List.filterMap_append, alike.calls]

theorem rested (alike : first.Alike second) : first.rested = second.rested :=
  congrArg (Host.mk · []) alike.history

end Alike

end Host

-----------------------------------------------------------------------------------------
-- Runs that take no heed of earlier notes
-----------------------------------------------------------------------------------------

/-- The host with further notes below its own. -/
def Host.over (host : Host) (notes : List Note) : Host :=
  { host with notes := host.notes ++ notes }

/-- A run that neither sees nor changes the notes before it. -/
def Run.Oblivious {σ α : Type} (work : Run σ α) : Prop :=
  ∀ own host notes,
    work.run ⟨own, host.over notes⟩
      = ((work.run ⟨own, host⟩).1,
        ⟨(work.run ⟨own, host⟩).2.own, (work.run ⟨own, host⟩).2.host.over notes⟩)

namespace Run.Oblivious

variable {σ α β : Type}

theorem ofFail (cause : Failure) : Oblivious (Run.fail cause : Run σ α) :=
  fun _ _ _ => rfl

theorem next {work : Run σ α} {more : α → Run σ β} (first : Oblivious work)
    (second : ∀ answer, Oblivious (more answer))
    : Oblivious (work >>= more) := by
  intro own host notes
  rw [Run.run_bind, Run.run_bind, first]
  cases work.run ⟨own, host⟩ with
  | mk outcome after =>
      cases outcome with
      | ok answer => exact second answer after.own after.host notes
      | error ending => rfl

/-- A view is asked for in sight of the exporters' history alone. -/
theorem withView (exporter : Exporter) (refused : Refusal → Failure) {use : View → Run σ α}
    (used : ∀ view, Oblivious (use view))
    : Oblivious (Run.withView exporter refused use) := by
  have acquired (host : Host) (notes : List Note)
      : exporter.acquire (host.over notes)
        = ((exporter.acquire host).1, (exporter.acquire host).2.over notes) := by
    have asked (request : BufferRequest) (host : Host)
        : exporter.ask request (host.over notes)
          = ((exporter.ask request host).1, (exporter.ask request host).2.over notes) :=
      rfl
    simp only [Exporter.acquire, asked]
    cases exporter.ask .writable host with
    | mk reply after => cases reply <;> rfl
  intro own host notes
  rw [Run.run_withView, Run.run_withView, acquired]
  cases exporter.acquire host with
  | mk reply after =>
      cases reply with
      | error refusal => rfl
      | ok view =>
          dsimp only
          rw [used view]
          rfl

end Run.Oblivious

theorem Writer.oblivious_composable : Composable Run.Oblivious where
  pure _ _ _ := rfl
  appends appends := by
    intro own host notes
    rw [appends, appends]
  fail _ := .ofFail _
  next first second := first.next fun _ => second
  withView exporter _ used := .withView exporter _ used

/-- Writing a shape takes no heed of earlier notes. -/
theorem Writer.put_oblivious (value : Shape) : (put value).Oblivious :=
  oblivious_composable.put value

/-- Further notes below keep alike hosts alike. -/
theorem Host.Alike.over {first second : Host} (alike : first.Alike second) (host : Host)
    : (host.over first.notes).Alike (host.over second.notes) := by
  refine ⟨rfl, ?_, ?_⟩
  · simp only [Host.over, List.filterMap_append, alike.events]
  · simp only [Host.over, List.filterMap_append, alike.calls]

/-- On alike hosts a shape has the same fingerprint, if it has one, and the hosts stay alike. -/
theorem Shape.fingerprint_alike {σ τ : Type} (value : Shape) {first second : Host}
    (alike : first.Alike second) (own : σ) (own' : τ)
    : (value.fingerprint.run ⟨own, first⟩).1 = (value.fingerprint.run ⟨own', second⟩).1
      ∧ (value.fingerprint.run ⟨own, first⟩).2.host.Alike
          (value.fingerprint.run ⟨own', second⟩).2.host := by
  have written := Writer.put_oblivious value .empty first.rested
  have here : (Writer.put value).run ⟨.empty, first⟩ = _ := written first.notes
  have there := written second.notes
  rw [show first.rested.over second.notes = second from
    congrArg (Host.mk · second.notes) alike.history] at there
  rw [run_fingerprint, run_fingerprint, here, there]
  have kept := alike.over ((Writer.put value).run ⟨.empty, first.rested⟩).2.host
  cases ((Writer.put value).run ⟨.empty, first.rested⟩).1 with
  | ok _ => exact ⟨rfl, kept⟩
  | error ending => exact ⟨rfl, kept⟩

end Typecodes
