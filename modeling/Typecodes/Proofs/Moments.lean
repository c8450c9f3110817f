import Typecodes.Resolver

/-! The moments of a run. Classifications nest: a resolver may have further values classified by
the layer that called it. The moments list in the order of time what every call does, at whatever
depth, together with the state at that point; so a property of whole runs is one of lists.
-/

namespace Typecodes

/-- What happens at a moment. -/
inductive Stage (σ κ ω : Type) where
  /-- A value is passed to the layer. -/
  | entered (value : Shape)
  /-- Its resolver is about to work. -/
  | called (key : Option κ) (value : Shape)
  /-- The resolver is done, and nothing of its answer is stored yet. -/
  | answered (key : Option κ) (answer : Except Stop Typecode)
  /-- The layer is done with a value that was passed to it in the given state. -/
  | returned (value : Shape) (entry : Hosted (σ × ω)) (outcome : Except Stop (Option Typecode))

/-- A point of a run, with the state of the layer, its resolver and the host. -/
structure Moment (σ κ ω : Type) where
  stage : Stage σ κ ω
  state : Hosted (σ × ω)

/-- The layer's state at a moment. -/
abbrev Moment.layer {σ κ ω : Type} (moment : Moment σ κ ω) : σ :=
  moment.state.own.1

namespace Layer

variable {σ κ ω : Type} [Layer σ κ]

/-- The state in which a resolver starts to work. -/
def calling (key : Option κ) (value : Shape) (state : Hosted (σ × ω)) : Hosted (σ × ω) :=
  ⟨state.own, state.host.note (.called (key.map (Layer.key σ)) value)⟩

/-- The moments of a resolver call, with those inside it. -/
def momentsOfCall (key : Option κ) (value : Shape) (resolve : Run (σ × ω) Typecode)
    (inside : Hosted (σ × ω) → List (Moment σ κ ω)) (state : Hosted (σ × ω))
    : List (Moment σ κ ω) :=
  let start := calling key value state
  let finish := (call (key.map (Layer.key σ)) value resolve).run state
  ⟨.called key value, start⟩ :: (inside start ++ [⟨.answered key finish.1, finish.2⟩])

/-- The moments between a value's entry and its return. -/
def momentsWithin (logger : Logger) (value : Shape) (resolve : Run (σ × ω) Typecode)
    (inside : Hosted (σ × ω) → List (Moment σ κ ω)) (state : Hosted (σ × ω))
    : List (Moment σ κ ω) :=
  match (Run.onFirst (Layer.probe logger value)).run state with
  | (.ok .uncached, probed) => momentsOfCall none value resolve inside probed
  | (.ok (.missing key), probed) => momentsOfCall (some key) value resolve inside probed
  | (.ok .unserved, _) | (.ok (.known _), _) | (.error _, _) => []

/-- The moments of a classification, from the entry of the value to its return. -/
def moments (logger : Logger) (value : Shape) (resolve : Run (σ × ω) Typecode)
    (inside : Hosted (σ × ω) → List (Moment σ κ ω)) (state : Hosted (σ × ω))
    : List (Moment σ κ ω) :=
  let finish := (classify logger value resolve).run state
  ⟨.entered value, state⟩
    :: (momentsWithin logger value resolve inside state
      ++ [⟨.returned value state finish.1, finish.2⟩])

end Layer

namespace Procedure

variable {σ κ ω : Type} [Layer σ κ]

/-- The moments of the classifications that a procedure asks for. -/
def moments (logger : Logger) : Procedure ω → Hosted (σ × ω) → List (Moment σ κ ω)
  | done _, _ => []
  | perform work next, state =>
      match (Run.onSecond work).run state with
      | (.ok outcome, after) => moments logger (next outcome) after
      | (.error _, _) => []
  | classify value inner next, state =>
      let resolve := (inner ()).run logger
      Layer.moments logger value resolve (moments logger (inner ())) state
        ++ match (Run.attempt (Layer.classify logger value resolve)).run state with
          | (.ok outcome, after) => moments logger (next outcome) after
          | (.error _, _) => []

/-- The state after procedures that are carried out one after the other. Each starts where the one
before ended, in whatever way that ended.
-/
def runAll (logger : Logger) : List (Procedure ω) → Hosted (σ × ω) → Hosted (σ × ω)
  | [], state => state
  | procedure :: rest, state => runAll logger rest ((procedure.run logger).run state).2

/-- The moments of procedures that are carried out one after the other. -/
def momentsAll (logger : Logger) : List (Procedure ω) → Hosted (σ × ω) → List (Moment σ κ ω)
  | [], _ => []
  | procedure :: rest, state =>
      procedure.moments logger state
        ++ momentsAll logger rest ((procedure.run logger).run state).2

/-- What can be said about the moments of any stretch of a run and the layer's states around it:
it holds where nothing happens to the layer, it holds of two stretches in a row, and it holds of a
classification if it holds of the resolver's work.
-/
structure Account (logger : Logger) (holds : σ → List (Moment σ κ ω) → σ → Prop) : Prop where
  idle : ∀ layer, holds layer [] layer
  append
    : ∀ ⦃before first middle second after⦄,
        holds before first middle → holds middle second after → holds before (first ++ second) after
  classify
    : ∀ value ⦃resolve inside⦄,
        (∀ state, holds state.own.1 (inside state) (resolve.run state).2.own.1)
        → ∀ state,
            holds state.own.1 (Layer.moments logger value resolve inside state)
              ((Layer.classify logger value resolve).run state).2.own.1

variable {logger : Logger} {holds : σ → List (Moment σ κ ω) → σ → Prop}

/-- An account holds of every procedure, by induction over it: work of the resolver's own leaves
the layer alone, and a classification is a stretch of its own.
-/
theorem Account.procedure (account : Account logger holds) (procedure : Procedure ω)
    (state : Hosted (σ × ω))
    : holds state.own.1 (procedure.moments logger state)
        ((procedure.run logger).run state).2.own.1 := by
  induction procedure generalizing state with
  | done answer => cases answer <;> exact account.idle _
  | perform work next ih =>
      rw [moments, run, Run.run_bind]
      have kept : ((Run.onSecond work).run state).2.own.1 = state.own.1 := rfl
      cases worked : (Run.onSecond work).run state with
      | mk outcome after =>
          rw [worked] at kept
          rw [← kept]
          cases outcome with
          | ok outcome => exact ih outcome after
          | error ending => exact account.idle _
  | classify value inner next ihInner ihNext =>
      have stretch := account.classify value (ihInner ()) state
      rw [moments, run, Run.run_bind]
      refine account.append stretch ?_
      rw [Run.run_attempt]
      cases (Layer.classify logger value ((inner ()).run logger)).run state with
      | mk outcome after =>
          rcases outcome with (cause | _) | answer
          · exact ihNext _ after
          · exact account.idle _
          · exact ihNext _ after

/-- An account holds of procedures in a row, by induction over them. -/
theorem Account.procedures (account : Account logger holds) (procedures : List (Procedure ω))
    (state : Hosted (σ × ω))
    : holds state.own.1 (momentsAll logger procedures state)
        (runAll logger procedures state).own.1 := by
  induction procedures generalizing state with
  | nil => exact account.idle _
  | cons procedure rest ih => exact account.append (account.procedure procedure state) (ih _)

end Procedure

end Typecodes
