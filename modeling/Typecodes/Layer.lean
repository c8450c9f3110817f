import Typecodes.Run

/-! Classification layers. A layer looks a value up, and only where it knows no code is a resolver
called; the resolver's answer is then stored and the stored code is the answer. The resolver runs
between the two steps and may itself use the layer.
-/

namespace Typecodes

/-- What a layer says about a value before any resolver is called. -/
inductive Verdict (κ : Type) where
  /-- The layer is not meant for such values. -/
  | unserved
  /-- The code is stored. -/
  | known (code : Typecode)
  /-- A resolver has to answer, and its answer is not stored. -/
  | uncached
  /-- A resolver has to answer, and its answer is stored under the key. -/
  | missing (key : κ)

/-- A layer with state `σ` that stores codes under keys of type `κ`. -/
class Layer (σ : Type) (κ : outParam Type) where
  /-- A key in the form that every layer understands. -/
  key : κ → Key
  /-- Looks a value up. -/
  probe : Logger → Shape → Run σ (Verdict κ)
  /-- Stores an answer and returns the code that is stored afterwards. -/
  store : Logger → κ → Typecode → Run σ Typecode

namespace Layer

variable {σ κ ω : Type}

/-- Calls a resolver, with a note before the call and one at its end. -/
def call (key : Option Key) (value : Shape) (resolve : Run σ Typecode) : Run σ Typecode :=
  ⟨fun state =>
    match resolve.run ⟨state.own, state.host.note (.called key value)⟩ with
    | (answer, after) => (answer, ⟨after.own, after.host.note (.answered key answer)⟩)⟩

theorem run_call (key : Option Key) (value : Shape) (resolve : Run σ Typecode) (state : Hosted σ)
    : (call key value resolve).run state
      = ((resolve.run ⟨state.own, state.host.note (.called key value)⟩).1,
        ⟨(resolve.run ⟨state.own, state.host.note (.called key value)⟩).2.own,
          (resolve.run ⟨state.own, state.host.note (.called key value)⟩).2.host.note
            (.answered key
              (resolve.run ⟨state.own, state.host.note (.called key value)⟩).1)⟩) :=
  rfl

/-- The code of a value through a layer, or no code if the layer is not meant for it. The resolver,
whose state lies beside the layer's, is called at most once. If it stops, its answer is missing and
the layer stores nothing of its own.
-/
def classify [Layer σ κ] (logger : Logger) (value : Shape) (resolve : Run (σ × ω) Typecode)
    : Run (σ × ω) (Option Typecode) := do
  match ← Run.onFirst (Layer.probe logger value) with
  | .unserved => return none
  | .known code => return some code
  | .uncached => return some (← call none value resolve)
  | .missing key => do
      let answer ← call (some (Layer.key σ key)) value resolve
      return some (← Run.onFirst (Layer.store logger key answer))

end Layer

end Typecodes
