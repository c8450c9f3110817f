import Typecodes.Analyzer
import Typecodes.Layer

/-! Resolvers and what they do when called. A call is a procedure: it works on the resolver's own
state and on the host, may have further values classified by the layer that called it, each with a
resolver of its choice, and ends with an answer or a stop.
-/

namespace Typecodes

/-- What a resolver with state `ω` does in one call. -/
inductive Procedure (ω : Type) : Type 1 where
  /-- Ends the call. -/
  | done (answer : Except Stop Typecode)
  /-- Does work of its own; if that stops, so does the call. -/
  | perform {β : Type} (work : Run ω β) (next : β → Procedure ω)
  /-- Has a value classified by the calling layer, with a resolver that behaves as given on that
  value, and goes on from the outcome. The behaviour is worked out only if it is needed.
  -/
  | classify (value : Shape) (inner : Unit → Procedure ω)
      (next : Except Failure (Option Typecode) → Procedure ω)

/-- A resolver: what it does when called on a value. -/
abbrev Resolver (ω : Type) := Shape → Procedure ω

namespace Procedure

variable {σ κ ω : Type}

/-- Carries a procedure out on a layer. -/
def run [Layer σ κ] (logger : Logger) : Procedure ω → Run (σ × ω) Typecode
  | done (.ok code) => pure code
  | done (.error ending) => Run.stop ending
  | perform work next => do
      let outcome ← Run.onSecond work
      run logger (next outcome)
  | classify value inner next => do
      let outcome ← Run.attempt (Layer.classify logger value (run logger (inner ())))
      run logger (next outcome)

end Procedure

namespace Resolver

variable {σ κ ω : Type}

/-- The code of a value through a layer that calls the resolver where it knows no code. -/
def classify [Layer σ κ] (logger : Logger) (resolver : Resolver ω) (value : Shape)
    : Run (σ × ω) (Option Typecode) :=
  Layer.classify logger value ((resolver value).run logger)

/-- The resolver that works on its own state and leaves the layer alone. -/
def ofRun (answer : Shape → Run ω Typecode) : Resolver ω :=
  fun value => .perform (answer value) fun code => .done (.ok code)

/-- The resolver that analyses values in full. -/
def analysis (logger : Logger) : Resolver Analyzer :=
  ofRun (Analyzer.resolve logger)

end Resolver

end Typecodes
