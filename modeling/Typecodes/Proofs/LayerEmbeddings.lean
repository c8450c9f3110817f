import Typecodes.Resolver

/-! Runs on a component that stands for another one. Where the look-ups and stores of one layer go
as on another, so do whole classifications and whatever resolvers make of them.
-/

namespace Typecodes

variable {σ τ κ ω α β : Type}

/-- The state with another component in the place of its own. -/
def Hosted.embed (put : σ → τ) (state : Hosted σ) : Hosted τ :=
  ⟨put state.own, state.host⟩

/-- On the other component the first run does what the second one does on the component itself. -/
def Run.Lifts (put : σ → τ) (work : Run τ α) (on : Run σ α) : Prop :=
  ∀ state, work.run (state.embed put) = ((on.run state).1, (on.run state).2.embed put)

namespace Run.Lifts

variable {put : σ → τ} {work : Run τ α} {on : Run σ α}

theorem ofPure (answer : α) : Lifts put (pure answer) (pure answer) :=
  fun _ => rfl

theorem ofStop (ending : Stop) : Lifts put (Run.stop ending : Run τ α) (Run.stop ending) :=
  fun _ => rfl

theorem ofLog (logger : Logger) (line : LogLine)
    : Lifts put (Run.log logger line : Run τ Unit) (Run.log logger line) := by
  intro state
  rw [run_log, run_log]
  rfl

/-- What follows goes on from the component that the state stands for. -/
theorem withOwn {more : τ → Run τ α} {moreOn : σ → Run σ α}
    (lifts : ∀ own, Lifts put (more (put own)) (moreOn own))
    : Lifts put (Run.own >>= more) (Run.own >>= moreOn) :=
  fun state => lifts state.own state

theorem next {more : α → Run τ β} {moreOn : α → Run σ β} (first : Lifts put work on)
    (second : ∀ answer, Lifts put (more answer) (moreOn answer))
    : Lifts put (work >>= more) (on >>= moreOn) := by
  intro state
  rw [Run.run_bind, Run.run_bind, first state]
  cases on.run state with
  | mk outcome after =>
      cases outcome with
      | ok answer => exact second answer after
      | error ending => rfl

theorem map (change : α → β) (lifts : Lifts put work on)
    : Lifts put (change <$> work) (change <$> on) := by
  intro state
  rw [Run.run_map, Run.run_map, lifts state]

theorem attempt (lifts : Lifts put work on) : Lifts put (Run.attempt work) (Run.attempt on) := by
  intro state
  rw [Run.run_attempt, Run.run_attempt, lifts state]
  cases on.run state with
  | mk outcome after => rcases outcome with (cause | _) | answer <;> rfl

theorem withView {exporter : Exporter} {refused : Refusal → Failure} {use : View → Run τ α}
    {useOn : View → Run σ α} (used : ∀ view, Lifts put (use view) (useOn view))
    : Lifts put (Run.withView exporter refused use) (Run.withView exporter refused useOn) := by
  intro state
  rw [Run.run_withView, Run.run_withView, Hosted.embed]
  cases exporter.acquire state.host with
  | mk reply host =>
      cases reply with
      | error refusal => rfl
      | ok view =>
          let released (finish : Except Stop α × Hosted τ) :=
            (finish.1, Hosted.mk finish.2.own (exporter.release view finish.2.host))
          exact congrArg released (used view ⟨state.own, host⟩)

/-- Runs beside a resolver's state, with the other component beside it. -/
theorem onFirst (lifts : Lifts put work on)
    : Lifts (Prod.map put id) (Run.onFirst work : Run (τ × ω) α) (Run.onFirst on) := by
  intro state
  rw [Run.run_onFirst, Run.run_onFirst]
  let beside (finish : Except Stop α × Hosted τ) : Except Stop α × Hosted (τ × ω) :=
    (finish.1, ⟨(finish.2.own, state.own.2), finish.2.host⟩)
  exact congrArg beside (lifts ⟨state.own.1, state.host⟩)

theorem onSecond (run : Run ω α)
    : Lifts (Prod.map put id) (Run.onSecond run : Run (τ × ω) α) (Run.onSecond run) :=
  fun _ => rfl

end Run.Lifts

-----------------------------------------------------------------------------------------
-- Layers
-----------------------------------------------------------------------------------------

namespace Layer

variable [Layer σ κ] [Layer τ κ] {put : σ → τ} {logger : Logger}

/-- Look-ups and stores on the other layer go as on the layer itself. -/
structure Embeds (logger : Logger) (put : σ → τ) [Layer σ κ] [Layer τ κ] : Prop where
  key : ∀ key : κ, Layer.key τ key = Layer.key σ key
  probe
    : ∀ value,
        Run.Lifts put (Layer.probe logger value : Run τ (Verdict κ)) (Layer.probe logger value)
  store
    : ∀ (key : κ) code,
        Run.Lifts put (Layer.store logger key code : Run τ Typecode) (Layer.store logger key code)

theorem lifts_call (key : Option Key) (value : Shape) {resolve : Run (τ × ω) Typecode}
    {resolveOn : Run (σ × ω) Typecode} (lifts : Run.Lifts (Prod.map put id) resolve resolveOn)
    : Run.Lifts (Prod.map put id) (call key value resolve) (call key value resolveOn) := by
  intro state
  rw [run_call, run_call]
  let noted (finish : Except Stop Typecode × Hosted (τ × ω)) :=
    (finish.1, Hosted.mk finish.2.own (finish.2.host.note (.answered key finish.1)))
  exact congrArg noted (lifts ⟨state.own, state.host.note (.called key value)⟩)

/-- A classification goes as on the layer itself if the resolver's work does. -/
theorem Embeds.classify (embeds : Embeds logger put) (value : Shape)
    {resolve : Run (τ × ω) Typecode} {resolveOn : Run (σ × ω) Typecode}
    (lifts : Run.Lifts (Prod.map put id) resolve resolveOn)
    : Run.Lifts (Prod.map put id) (Layer.classify logger value resolve)
        (Layer.classify logger value resolveOn) := by
  refine (embeds.probe value).onFirst.next fun verdict => ?_
  cases verdict with
  | unserved => exact .ofPure none
  | known code => exact .ofPure (some code)
  | uncached => exact (lifts_call none value lifts).next fun code => .ofPure (some code)
  | missing key =>
      dsimp only
      rw [embeds.key key]
      exact (lifts_call _ value lifts).next fun answer =>
        (embeds.store key answer).onFirst.next fun code => .ofPure (some code)

/-- A procedure goes as on the layer itself, by induction over it. -/
theorem Embeds.procedure (embeds : Embeds logger put) (procedure : Procedure ω)
    : Run.Lifts (Prod.map put id) (procedure.run logger : Run (τ × ω) Typecode)
        (procedure.run logger) := by
  induction procedure with
  | done answer =>
      cases answer with
      | ok code => exact .ofPure code
      | error ending => exact .ofStop ending
  | perform work next ih => exact (Run.Lifts.onSecond work).next ih
  | classify value inner next ihInner ihNext =>
      exact (embeds.classify value (ihInner ())).attempt.next ihNext

end Layer

end Typecodes
