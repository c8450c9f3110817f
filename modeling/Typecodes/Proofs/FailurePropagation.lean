import Mathlib
import Typecodes.Proofs.CallMarks
import Typecodes.Proofs.RegistryGrowth
import Typecodes.Proofs.Traversals

/-! Where failures come from and what they leave behind. A classification by the dispatcher fails
only if the one call of its resolver fails, and then with the same cause. However it stops, the
dispatcher is left as that call left it. Full analysis never fails for want of a fingerprint, so no
run that relies on it does.
-/

namespace Typecodes

namespace Procedure

variable {σ κ ω : Type} [Layer σ κ]

/-- A procedure that has nothing classified leaves the layer alone. -/
theorem layer_of_no_moments {logger : Logger} {procedure : Procedure ω}
    {state : Hosted (σ × ω)}
    (silent : procedure.moments logger state = ([] : List (Moment σ κ ω)))
    : ((procedure.run logger).run state).2.own.1 = state.own.1 := by
  have account : Account logger fun before (moments : List (Moment σ κ ω)) after =>
      moments = [] → after = before := {
    idle := fun _ _ => rfl
    append := by
      intro before first middle second after left right nothing
      obtain ⟨rfl, rfl⟩ := List.append_eq_nil_iff.mp nothing
      exact (right rfl).trans (left rfl)
    classify := fun _ _ _ _ _ nothing => absurd nothing (List.cons_ne_nil _ _) }
  exact account.procedure procedure state silent

end Procedure

-----------------------------------------------------------------------------------------
-- One classification
-----------------------------------------------------------------------------------------

namespace Dispatcher

variable {ω : Type} {logger : Logger} {resolver : Resolver ω} {value : Shape}
  {state : Hosted (Dispatcher × ω)}

/-- What a classification has its resolver do: the start and the end of every call that it makes of
its own, without what happens inside the calls.
-/
def ownCalls (logger : Logger) (resolver : Resolver ω) (value : Shape)
    (state : Hosted (Dispatcher × ω))
    : List (Moment Dispatcher Place ω) :=
  Layer.momentsWithin logger value ((resolver value).run logger) (fun _ => []) state

/-- The state after the look-up that every classification begins with. -/
def lookedUp (logger : Logger) (value : Shape) (state : Hosted (Dispatcher × ω))
    : Hosted (Dispatcher × ω) :=
  ((Run.onFirst (probe logger value)).run state).2

/-- The state in which calls leave what was in the given state before them. -/
def leftBy (calls : List (Moment Dispatcher Place ω)) (state : Hosted (Dispatcher × ω))
    : Hosted (Dispatcher × ω) :=
  (calls.getLast?.map Moment.state).getD state

/-- What a classification does from its start to its end, whichever end that is, and the calls that
it makes of its own: it makes none, or one on the value itself. The host has marks of no other calls
than this one and those that the resolver's work brings about.
-/
inductive AtMostOne (logger : Logger) (resolver : Resolver ω) (value : Shape)
    (state : Hosted (Dispatcher × ω))
    (finish : Except Stop (Option Typecode) × Hosted (Dispatcher × ω))
    : List (Moment Dispatcher Place ω) → Prop
  /-- The value is looked up, and that is all. -/
  | uncalled (ends : finish.2 = lookedUp logger value state) (kept : finish.2.own = state.own)
    (unmarked : finish.2.host.marks = state.host.marks)
    : AtMostOne logger resolver value state finish []
  /-- After the look-up the resolver does its work, with everything as it was before, and what it
  answers is kept where it is wanted.
  -/
  | called (key : Option Place) (start worked : Hosted (Dispatcher × ω))
    (answer : Except Stop Typecode)
    (starts : start = Layer.calling key value (lookedUp logger value state))
    (kept : start.own = state.own)
    (opened
      : start.host.marks
        = state.host.marks ++ [.called (key.map (Layer.key Dispatcher)) value])
    (works : ((resolver value).run logger).run start = (answer, worked))
    (closed
      : finish.2.host.marks
        = worked.host.marks ++ [.answered (key.map (Layer.key Dispatcher)) answer])
    (ends
      : finish
        = (Run.ofExcept answer >>= Layer.keep logger key).run (Layer.answering key answer worked))
    : AtMostOne logger resolver value state finish
        [⟨.called key value, start⟩,
          ⟨.answered key answer, Layer.answering key answer worked⟩]

/-- How a classification passes the stops of its resolver on, given its calls and its end. -/
structure PassesOn (logger : Logger) (resolver : Resolver ω) (value : Shape)
    (state : Hosted (Dispatcher × ω)) (calls : List (Moment Dispatcher Place ω))
    (finish : Except Stop (Option Typecode) × Hosted (Dispatcher × ω))
    : Prop where
  once : AtMostOne logger resolver value state finish calls
  /-- The classification fails exactly if a call failed, with the same cause. -/
  failure
    : ∀ cause,
        finish.1 = .error (.failure cause)
        ↔ ∃ key after, ⟨.answered key (.error (.failure cause)), after⟩ ∈ calls
  /-- A stop of a call, a failure or a panic, is the end and leaves everything as it is then. -/
  stops
    : ∀ ending key after,
        ⟨.answered key (.error ending), after⟩ ∈ calls
        → finish.1 = .error ending ∧ finish.2.own = after.own
  /-- Any stop leaves the contents of both layers as the call left them. -/
  contents
    : ∀ ending, finish.1 = .error ending → finish.2.own.1.SameContents (leftBy calls state).own.1
  /-- If the resolver had nothing classified, the contents are those from before. -/
  restored
    : ∀ ending,
        finish.1 = .error ending
        → (∀ key start,
            ⟨.called key value, start⟩ ∈ calls
            → (resolver value).moments logger start = ([] : List (Moment Dispatcher Place ω)))
        → finish.2.own.1.SameContents state.own.1

theorem SameContents.refl (dispatcher : Dispatcher) : dispatcher.SameContents dispatcher :=
  ⟨rfl, rfl, rfl⟩

theorem lookedUp_eq {probed : Hosted (Dispatcher × ω)} {outcome : Except Stop (Verdict Place)}
    (looked : (Run.onFirst (Layer.probe logger value)).run state = (outcome, probed))
    : lookedUp logger value state = probed :=
  congrArg Prod.snd looked

/-- Looking a value up makes no calls, also beside a resolver's state. -/
theorem marks_lookedUp (logger : Logger) (value : Shape) (state : Hosted (Dispatcher × ω))
    : (lookedUp logger value state).host.marks = state.host.marks :=
  @probe_unmarked logger value ⟨state.own.1, state.host⟩

/-- Where no resolver is called there is no failure to pass on. -/
theorem passesOn_uncalled {finish : Except Stop (Option Typecode) × Hosted (Dispatcher × ω)}
    (succeeds : ∀ cause, finish.1 ≠ .error (.failure cause)) (kept : finish.2.own = state.own)
    (ends : finish.2 = lookedUp logger value state)
    : PassesOn logger resolver value state [] finish where
  once := .uncalled ends kept (by rw [ends, marks_lookedUp])
  failure cause := ⟨fun fails => absurd fails (succeeds cause), by simp⟩
  stops _ _ _ member := absurd member List.not_mem_nil
  contents _ _ := by
    rw [kept]
    exact .refl _
  restored _ _ _ := by
    rw [kept]
    exact .refl _

/-- What follows a call never fails, and it leaves the contents alone if it panics. -/
theorem concluded_cases (logger : Logger) (key : Option Place) (answer : Except Stop Typecode)
    (answered : Hosted (Dispatcher × ω))
    : let finish := (Run.ofExcept answer >>= Layer.keep logger key).run answered
      (∃ ending, answer = .error ending ∧ finish = (.error ending, answered))
      ∨ (∃ code, answer = .ok code)
        ∧ ((∃ stored, finish.1 = .ok stored)
          ∨ finish.1 = .error .panic ∧ finish.2.own.1.SameContents answered.own.1) := by
  intro finish
  cases answer with
  | error ending => exact .inl ⟨ending, rfl, rfl⟩
  | ok code =>
      refine .inr ⟨⟨code, rfl⟩, ?_⟩
      change (∃ stored, ((Layer.keep logger key code).run answered).1 = .ok stored)
        ∨ ((Layer.keep logger key code).run answered).1 = .error .panic
          ∧ ((Layer.keep logger key code).run answered).2.own.1.SameContents answered.own.1
      rcases keep_cases logger key code answered with
        ⟨-, ran⟩ | ⟨_, stored, after, -, ran, -⟩ | ⟨after, ran, same⟩
      · rw [ran]
        exact .inl ⟨_, rfl⟩
      · rw [ran]
        exact .inl ⟨_, rfl⟩
      · rw [ran]
        exact .inr ⟨rfl, same⟩

/-- A call passes its stop on. -/
theorem passesOn_called {key : Option Place} {probed worked : Hosted (Dispatcher × ω)}
    {answer : Except Stop Typecode} (ends : lookedUp logger value state = probed)
    (kept : probed.own = state.own)
    (works
      : ((resolver value).run logger).run (Layer.calling key value probed) = (answer, worked))
    : PassesOn logger resolver value state
        [⟨.called key value, Layer.calling key value probed⟩,
          ⟨.answered key answer, Layer.answering key answer worked⟩]
        ((Run.ofExcept answer >>= Layer.keep logger key).run
          (Layer.answering key answer worked)) := by
  have opened := Layer.marks_calling key value probed
  have closed := @conclusion_unmarked logger _ key answer (Layer.answering key answer worked)
  rw [← ends, marks_lookedUp, ends] at opened
  rw [Layer.marks_answering] at closed
  have starts : Layer.calling key value probed
      = Layer.calling key value (lookedUp logger value state) := by
    rw [ends]
  have once := AtMostOne.called key _ worked answer starts kept opened works closed rfl
  have idle (silent : (resolver value).moments logger (Layer.calling key value probed)
        = ([] : List (Moment Dispatcher Place ω)))
      : worked.own.1 = state.own.1 := by
    have alone := Procedure.layer_of_no_moments silent
    rw [works] at alone
    exact alone.trans (congrArg Prod.fst kept)
  have concluded := concluded_cases logger key answer (Layer.answering key answer worked)
  generalize (Run.ofExcept answer >>= Layer.keep logger key).run
    (Layer.answering key answer worked) = finish at once concluded ⊢
  have contents ending (stops : finish.1 = .error ending)
      : finish.2.own.1.SameContents worked.own.1 := by
    rcases concluded with ⟨_, -, rfl⟩ | ⟨-, ⟨_, ends⟩ | ⟨-, same⟩⟩
    · exact .refl _
    · rw [ends] at stops
      cases stops
    · exact same
  refine ⟨once, ?_, ?_, contents, ?_⟩
  · intro cause
    rcases concluded with ⟨ending, rfl, rfl⟩ | ⟨⟨code, rfl⟩, ⟨_, ends⟩ | ⟨ends, -⟩⟩
    · simp [eq_comm]
    · simp [ends]
    · simp [ends]
  · intro ending key' after member
    simp only [List.mem_cons, Moment.mk.injEq, reduceCtorEq, false_and, Stage.answered.injEq,
      List.not_mem_nil, or_false, false_or] at member
    obtain ⟨⟨rfl, rfl⟩, rfl⟩ := member
    rcases concluded with ⟨_, same, rfl⟩ | ⟨⟨_, answers⟩, -⟩
    · cases same
      exact ⟨rfl, rfl⟩
    · cases answers
  · intro ending stops silent
    rw [← idle (silent key _ List.mem_cons_self)]
    exact contents ending stops

/-- Every classification passes the stops of its resolver on, by cases on its course. -/
theorem passesOn (logger : Logger) (resolver : Resolver ω) (value : Shape)
    (state : Hosted (Dispatcher × ω))
    : PassesOn logger resolver value state (ownCalls logger resolver value state)
        ((Resolver.classify logger resolver value).run state) := by
  unfold ownCalls Resolver.classify
  cases Layer.classify_course logger value ((resolver value).run logger) state with
  | stopped ending probed looked silent ends =>
      rw [silent, ends]
      obtain ⟨kept, stops | ⟨_, answers, -⟩⟩ := looked_cases looked
      · cases stops
        exact passesOn_uncalled nofun kept (lookedUp_eq looked).symm
      · cases answers
  | told answer probed looked silent ends =>
      rw [silent, ends]
      exact passesOn_uncalled nofun (looked_cases looked).1 (lookedUp_eq looked).symm
  | called key probed answer worked looked works calls ends =>
      rw [calls, ends]
      exact passesOn_called (lookedUp_eq looked) (looked_cases looked).1 works

end Dispatcher

-----------------------------------------------------------------------------------------
-- Full analysis
-----------------------------------------------------------------------------------------

/-- A run that fails with causes of the given kind only. -/
def Run.FailsOnlyBy {σ α : Type} (allowed : Failure → Prop) (work : Run σ α) : Prop :=
  ∀ state cause, (work.run state).1 = .error (.failure cause) → allowed cause

namespace Run.FailsOnlyBy

variable {σ α β : Type} {allowed : Failure → Prop}

/-- A run that always answers. -/
theorem ofAnswers {work : Run σ α} (answers : ∀ state, (work.run state).1.isOk = true)
    : FailsOnlyBy allowed work := by
  intro state cause fails
  have answered := answers state
  rw [fails] at answered
  cases answered

theorem ofPure (answer : α) : FailsOnlyBy allowed (pure answer : Run σ α) :=
  ofAnswers fun _ => rfl

theorem next {work : Run σ α} {more : α → Run σ β} (first : FailsOnlyBy allowed work)
    (second : ∀ answer, FailsOnlyBy allowed (more answer))
    : FailsOnlyBy allowed (work >>= more) := by
  intro state cause fails
  rcases Run.run_bind_eq_error.mp (Run.run_of_outcome fails) with early | ⟨answer, _, -, late⟩
  · exact first state cause (congrArg Prod.fst early)
  · exact second answer _ cause (congrArg Prod.fst late)

theorem withView {exporter : Exporter} {refused : Refusal → Failure} {use : View → Run σ α}
    (refuses : ∀ refusal, allowed (refused refusal))
    (used : ∀ view, FailsOnlyBy allowed (use view))
    : FailsOnlyBy allowed (Run.withView exporter refused use) := by
  intro state cause fails
  rw [Run.run_withView] at fails
  cases acquired : exporter.acquire state.host with
  | mk reply host =>
      rw [acquired] at fails
      cases reply with
      | error refusal =>
          cases fails
          exact refuses refusal
      | ok view => exact used view _ cause fails

end Run.FailsOnlyBy

/-- The failures of full analysis: a buffer grants no view, or the registry is full. -/
inductive Failure.OfAnalysis : Failure → Prop
  | refused (message : String) : OfAnalysis (.resolution message)
  | full (raw : Int) : OfAnalysis (.invalidTypecode raw)

namespace Registry

theorem intern_failures (logger : Logger) (node : TypeNode)
    : (intern logger node).FailsOnlyBy Failure.OfAnalysis := by
  intro state cause fails
  rcases intern_eq_error (Run.run_of_outcome fails) with panics | ⟨raw, refused⟩
  · cases panics
  · cases refused
    exact .full raw

mutual

/-- Full analysis fails in these ways only, by induction over the shape. -/
theorem typeOf_failures (logger : Logger) (value : Shape)
    : (typeOf logger value).FailsOnlyBy Failure.OfAnalysis := by
  cases value with
  | tuple items =>
      rw [typeOf]
      exact (typesOf_failures logger items).next fun _ => intern_failures logger _
  | buffer exporter =>
      rw [typeOf]
      exact (Run.FailsOnlyBy.withView (fun _ => .refused _) fun _ => .ofPure _).next fun _ =>
        intern_failures logger _
  | _ =>
      rw [typeOf]
      exact intern_failures logger _

theorem typesOf_failures (logger : Logger) (items : List Shape)
    : (typesOf logger items).FailsOnlyBy Failure.OfAnalysis := by
  cases items with
  | nil =>
      rw [typesOf]
      exact .ofPure _
  | cons item rest =>
      rw [typesOf]
      exact (typeOf_failures logger item).next fun _ =>
        (typesOf_failures logger rest).next fun _ => .ofPure _

end

end Registry

theorem Analyzer.resolve_failures (logger : Logger) (value : Shape)
    : (resolve logger value).FailsOnlyBy Failure.OfAnalysis :=
  (Run.FailsOnlyBy.ofAnswers fun _ => rfl).next fun _ =>
    (Run.FailsOnlyBy.ofAnswers fun _ => rfl).next fun _ _ cause fails =>
      Registry.typeOf_failures logger value _ cause fails

namespace Dispatcher

variable {logger : Logger}

/-- A classification that relies on full analysis fails as full analysis does. -/
theorem analysis_failures (value : Shape)
    : (Resolver.classify logger (.analysis logger) value
        : Run (Dispatcher × Analyzer) (Option Typecode)).FailsOnlyBy Failure.OfAnalysis := by
  intro state cause fails
  have passes := passesOn logger (.analysis logger) value state
  obtain ⟨key, after, failed⟩ := (passes.failure cause).mp fails
  have work : ((Resolver.analysis logger value).run logger : Run (Dispatcher × Analyzer) Typecode)
      = Run.onSecond (Analyzer.resolve logger value) :=
    bind_pure _
  have once := passes.once
  generalize ownCalls logger (.analysis logger) value state = calls at once failed
  cases once with
  | uncalled => cases failed
  | called _ start worked answer _ _ _ works =>
      rw [work] at works
      simp only [List.mem_cons, Moment.mk.injEq, reduceCtorEq, false_and, Stage.answered.injEq,
        List.not_mem_nil, or_false, false_or] at failed
      obtain ⟨⟨-, rfl⟩, -⟩ := failed
      have answered := congrArg Prod.fst works
      exact Analyzer.resolve_failures logger value _ cause answered

/-- Failures come only from the resolver and leave no trace. One classification calls its resolver
at most once and fails exactly if that call fails, with the same cause; however it stops, the
contents of both layers are as the call left them. So no run that relies on full analysis fails for
want of a fingerprint.
-/
theorem failures_only_from_calls (logger : Logger)
    : (∀ {ω : Type} (resolver : Resolver ω) (value : Shape) (state : Hosted (Dispatcher × ω)),
        PassesOn logger resolver value state (ownCalls logger resolver value state)
          ((Resolver.classify logger resolver value).run state))
      ∧ ∀ (values : List Shape) (state : Hosted (Dispatcher × Analyzer)),
          ∀ finish ∈ Run.each (Resolver.classify logger (.analysis logger)) values state,
            ∀ kind, finish.1 ≠ .error (.failure (.unrecognized kind)) := by
  refine ⟨fun resolver value state => passesOn logger resolver value state, ?_⟩
  refine fun values state => Run.each_forall (fun value state kind fails => ?_) values state
  cases analysis_failures value state _ fails

/-- A resolver that has another value classified before it fails: the failure passes, even one that
looks like the encoder's, and only the other value is stored.
-/
example
    (elementary : ElementaryCodes)
    : let resolver : Resolver Unit := fun _ =>
        .classify .int (fun _ => .done (.ok ⟨1⟩)) fun _ =>
          .done (.error (.failure (.unrecognized "int")))
      let start : Hosted (Dispatcher × Unit) := ⟨(.ofCodes elementary, ()), .fresh⟩
      let finish := (Resolver.classify .steady resolver .bool).run start
      finish.1 = .error (.failure (.unrecognized "int"))
        ∧ finish.2.own.1.table.get? [105] = some ⟨1⟩
        ∧ finish.2.own.1.table.get? [63] = none := by
  cbv

end Dispatcher

end Typecodes
