import Typecodes.Host

/-! Runs: computations on a component's own state and the host around it. A run that stops early
leaves both as they were when it stopped; nothing is rolled back. The lemmas say what each building
block does to the state, and everything else about runs follows from them.
-/

namespace Typecodes

/-- A component's state together with the host. -/
structure Hosted (σ : Type) where
  own : σ
  host : Host

/-- A computation that ends with an answer or a stop, and with a state in either case. -/
structure Run (σ α : Type) where
  run : Hosted σ → Except Stop α × Hosted σ

namespace Run

variable {σ τ ω α β : Type}

/-- Answers at once. -/
protected def pure (answer : α) : Run σ α :=
  ⟨fun state => (.ok answer, state)⟩

/-- Goes on from an answer; a stop ends the whole run. -/
protected def bind (work : Run σ α) (next : α → Run σ β) : Run σ β :=
  ⟨fun state =>
    match work.run state with
    | (.ok answer, after) => (next answer).run after
    | (.error ending, after) => (.error ending, after)⟩

instance : Monad (Run σ) where
  pure := Run.pure
  bind := Run.bind

/-- The component's state. -/
def own : Run σ σ :=
  ⟨fun state => (.ok state.own, state)⟩

/-- Replaces the component's state. -/
def setOwn (next : σ) : Run σ Unit :=
  ⟨fun state => (.ok (), ⟨next, state.host⟩)⟩

/-- Changes the component's state. -/
def change (step : σ → σ) : Run σ Unit :=
  ⟨fun ⟨own, host⟩ => (.ok (), ⟨step own, host⟩)⟩

/-- Stops in the given way. -/
def stop (ending : Stop) : Run σ α :=
  ⟨fun state => (.error ending, state)⟩

/-- Stops with a failure. -/
def fail (cause : Failure) : Run σ α :=
  stop (.failure cause)

/-- Stops with a panic. -/
def unwind : Run σ α :=
  stop .panic

/-- The answer if there is one, and otherwise a stop. -/
def ofExcept : Except Stop α → Run σ α
  | .ok answer => pure answer
  | .error ending => stop ending

/-- The answer if there is one, and otherwise the failure. -/
def ofFailing : Except Failure α → Run σ α
  | .ok answer => pure answer
  | .error cause => fail cause

/-- Takes a note that concerns no exporter. -/
def note (note : Note) : Run σ Unit :=
  ⟨fun state => (.ok (), ⟨state.own, state.host.note note⟩)⟩

/-- Writes a line to the log, after which the logger may panic. -/
def log (logger : Logger) (line : LogLine) : Run σ Unit := do
  note (.line line)
  if logger.panicsAfter line then unwind

/-- Turns a failure into an answer; a panic goes on unwinding. -/
def attempt (work : Run σ α) : Run σ (Except Failure α) :=
  ⟨fun state =>
    match work.run state with
    | (.ok answer, after) => (.ok (.ok answer), after)
    | (.error (.failure cause), after) => (.ok (.error cause), after)
    | (.error .panic, after) => (.error .panic, after)⟩

/-- Changes the component's state if a run stops, and lets the stop pass. -/
def onStop (change : σ → σ) (work : Run σ α) : Run σ α :=
  ⟨fun state =>
    match work.run state with
    | (.ok answer, after) => (.ok answer, after)
    | (.error ending, after) => (.error ending, ⟨change after.own, after.host⟩)⟩

/-- Runs on one part of the component's state, which is then put back. -/
def within (part : σ → τ) (put : σ → τ → σ) (work : Run τ α) : Run σ α :=
  ⟨fun state =>
    match work.run ⟨part state.own, state.host⟩ with
    | (outcome, after) => (outcome, ⟨put state.own after.own, after.host⟩)⟩

/-- Runs on the first of two components. -/
def onFirst (work : Run σ α) : Run (σ × ω) α :=
  within Prod.fst (fun own next => (next, own.2)) work

/-- Runs on the second of two components. The run does not see the notes taken before it and cannot
change them, nor can it mark calls.
-/
def onSecond (work : Run ω α) : Run (σ × ω) α :=
  ⟨fun state =>
    match work.run ⟨state.own.2, state.host.rested⟩ with
    | (outcome, after) => (outcome, ⟨(state.own.1, after.own), state.host.resume after.host⟩)⟩

/-- Uses a view of an exporter's memory and gives it back at every ending. If no view is granted,
the refusal decides the failure.
-/
def withView (exporter : Exporter) (refused : Refusal → Failure) (use : View → Run σ α)
    : Run σ α :=
  ⟨fun state =>
    match exporter.acquire state.host with
    | (.error refusal, host) => (.error (.failure (refused refusal)), ⟨state.own, host⟩)
    | (.ok view, host) =>
        match (use view).run ⟨state.own, host⟩ with
        | (outcome, after) => (outcome, ⟨after.own, exporter.release view after.host⟩)⟩

-----------------------------------------------------------------------------------------
-- What the building blocks do to the state
-----------------------------------------------------------------------------------------

theorem run_inj {first second : Run σ α} (same : ∀ state, first.run state = second.run state)
    : first = second := by
  cases first
  cases second
  exact congrArg Run.mk (funext same)

@[simp]
theorem run_pure (answer : α) (state : Hosted σ)
    : (pure answer : Run σ α).run state = (.ok answer, state) :=
  rfl

/-- A run whose outcome is known ends with it, in whatever state it leaves. -/
theorem run_of_outcome {work : Run σ α} {state : Hosted σ} {outcome : Except Stop α}
    (ends : (work.run state).1 = outcome)
    : work.run state = (outcome, (work.run state).2) := by
  rw [← ends]

theorem run_bind (work : Run σ α) (next : α → Run σ β) (state : Hosted σ)
    : (work >>= next).run state
      = match work.run state with
        | (.ok answer, after) => (next answer).run after
        | (.error ending, after) => (.error ending, after) :=
  rfl

theorem run_bind_ok {work : Run σ α} {state after : Hosted σ} {answer : α}
    (next : α → Run σ β) (ends : work.run state = (.ok answer, after))
    : (work >>= next).run state = (next answer).run after := by
  rw [run_bind, ends]

theorem run_bind_error {work : Run σ α} {state after : Hosted σ} {ending : Stop}
    (next : α → Run σ β) (ends : work.run state = (.error ending, after))
    : (work >>= next).run state = (.error ending, after) := by
  rw [run_bind, ends]

/-- An answer of two runs in a row is one of the second, from where the first answered. -/
theorem run_bind_eq_ok {work : Run σ α} {next : α → Run σ β} {state after : Hosted σ} {answer : β}
    : (work >>= next).run state = (.ok answer, after)
      ↔ ∃ first middle,
          work.run state = (.ok first, middle) ∧ (next first).run middle = (.ok answer, after) := by
  rw [run_bind]
  cases work.run state with
  | mk outcome middle => cases outcome <;> simp [and_assoc]

/-- A stop of two runs in a row is one of the first, or of the second from where the first
answered.
-/
theorem run_bind_eq_error {work : Run σ α} {next : α → Run σ β} {state after : Hosted σ}
    {ending : Stop}
    : (work >>= next).run state = (.error ending, after)
      ↔ work.run state = (.error ending, after)
        ∨ ∃ first middle,
            work.run state = (.ok first, middle)
            ∧ (next first).run middle = (.error ending, after) := by
  rw [run_bind]
  cases work.run state with
  | mk outcome middle => cases outcome <;> simp [and_assoc]

theorem run_map (change : α → β) (work : Run σ α) (state : Hosted σ)
    : (change <$> work).run state = ((work.run state).1.map change, (work.run state).2) := by
  show (work >>= fun answer => pure (change answer)).run state = _
  rw [run_bind]
  cases work.run state with
  | mk outcome after => cases outcome <;> rfl

/-- What is done with an answer does not matter where there is none. -/
theorem run_map_eq_error {change : α → β} {work : Run σ α} {state after : Hosted σ}
    {ending : Stop}
    : (change <$> work).run state = (.error ending, after)
      ↔ work.run state = (.error ending, after) := by
  rw [run_map]
  cases work.run state with
  | mk outcome middle => cases outcome <;> simp [Except.map]

@[simp]
theorem run_own (state : Hosted σ) : (own : Run σ σ).run state = (.ok state.own, state) :=
  rfl

@[simp]
theorem run_setOwn (next : σ) (state : Hosted σ)
    : (setOwn next).run state = (.ok (), ⟨next, state.host⟩) :=
  rfl

@[simp]
theorem run_change (step : σ → σ) (state : Hosted σ)
    : (change step).run state = (.ok (), ⟨step state.own, state.host⟩) :=
  rfl

@[simp]
theorem run_stop (ending : Stop) (state : Hosted σ)
    : (stop ending : Run σ α).run state = (.error ending, state) :=
  rfl

@[simp]
theorem run_fail (cause : Failure) (state : Hosted σ)
    : (fail cause : Run σ α).run state = (.error (.failure cause), state) :=
  rfl

@[simp]
theorem run_unwind (state : Hosted σ) : (unwind : Run σ α).run state = (.error .panic, state) :=
  rfl

@[simp]
theorem run_note (entry : Note) (state : Hosted σ)
    : (note entry).run state = (.ok (), ⟨state.own, state.host.note entry⟩) :=
  rfl

/-- A line is noted whether or not the logger panics after it. -/
theorem run_log (logger : Logger) (line : LogLine) (state : Hosted σ)
    : (log logger line).run state
      = (if logger.panicsAfter line then .error .panic else .ok (),
        ⟨state.own, state.host.note (.line line)⟩) := by
  by_cases panics : logger.panicsAfter line <;> simp [log, run_bind, panics]

theorem run_within (part : σ → τ) (put : σ → τ → σ) (work : Run τ α) (state : Hosted σ)
    : (within part put work).run state
      = ((work.run ⟨part state.own, state.host⟩).1,
        ⟨put state.own (work.run ⟨part state.own, state.host⟩).2.own,
          (work.run ⟨part state.own, state.host⟩).2.host⟩) :=
  rfl

theorem run_onFirst (work : Run σ α) (state : Hosted (σ × ω))
    : (onFirst work).run state
      = ((work.run ⟨state.own.1, state.host⟩).1,
        ⟨((work.run ⟨state.own.1, state.host⟩).2.own, state.own.2),
          (work.run ⟨state.own.1, state.host⟩).2.host⟩) :=
  rfl

theorem run_onSecond (work : Run ω α) (state : Hosted (σ × ω))
    : (onSecond work).run state
      = ((work.run ⟨state.own.2, state.host.rested⟩).1,
        ⟨(state.own.1, (work.run ⟨state.own.2, state.host.rested⟩).2.own),
          state.host.resume (work.run ⟨state.own.2, state.host.rested⟩).2.host⟩) :=
  rfl

theorem run_attempt (work : Run σ α) (state : Hosted σ)
    : (attempt work).run state
      = match work.run state with
        | (.ok answer, after) => (.ok (.ok answer), after)
        | (.error (.failure cause), after) => (.ok (.error cause), after)
        | (.error .panic, after) => (.error .panic, after) :=
  rfl

theorem run_withView (exporter : Exporter) (refused : Refusal → Failure) (use : View → Run σ α)
    (state : Hosted σ)
    : (withView exporter refused use).run state
      = match exporter.acquire state.host with
        | (.error refusal, host) => (.error (.failure (refused refusal)), ⟨state.own, host⟩)
        | (.ok view, host) =>
            (((use view).run ⟨state.own, host⟩).1,
              ⟨((use view).run ⟨state.own, host⟩).2.own,
                exporter.release view ((use view).run ⟨state.own, host⟩).2.host⟩) :=
  rfl

instance : LawfulMonad (Run σ) :=
  LawfulMonad.mk' (Run σ)
    (fun work => run_inj fun state => by
      show (Run.bind work _).run state = _
      unfold Run.bind
      dsimp only
      split <;> rename_i ends <;> exact ends.symm)
    (fun _ _ => rfl)
    (fun work _ _ => run_inj fun state => by
      simp only [run_bind]
      cases work.run state with
      | mk outcome after => cases outcome <;> rfl)

end Run

end Typecodes
