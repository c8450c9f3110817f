import Std.Data.HashMap
import Typecodes.Run

/-! The registry of resolved types. Types are appended and never removed, and an index from types
back to codes keeps each of them from being stored twice; so a code, once given out, names the same
type for as long as the registry lives.
-/

namespace Typecodes

/-- Resolved types in the order of their codes, with an index back. -/
structure Registry where
  types : Array TypeNode
  codes : Std.HashMap TypeNode Typecode

namespace Registry

/-- The registry without types. -/
def empty : Registry :=
  ⟨#[], {}⟩

/-- The number of types. -/
def size (registry : Registry) : Nat :=
  registry.types.size

/-- The type that a code names. -/
def get? (registry : Registry) (code : Typecode) : Option TypeNode :=
  registry.types[code.toNat]?

/-- The code of a type, if it is stored. -/
def codeOf? (registry : Registry) (node : TypeNode) : Option Typecode :=
  registry.codes[node]?

/-- The registry with a type stored under a code. -/
def store (registry : Registry) (node : TypeNode) (code : Typecode) : Registry :=
  ⟨registry.types.push node, registry.codes.insert node code⟩

/-- The code of a type, which is stored under the next code if it is new. A new type is logged
before it is stored; a registry that has given out every code refuses new types.
-/
def intern (logger : Logger) (node : TypeNode) : Run Registry Typecode := do
  let registry ← Run.own
  match registry.codeOf? node with
  | some code => pure code
  | none => do
      let code ← Run.ofFailing (Typecode.ofInt registry.size)
      Run.log logger (.registered code node)
      Run.setOwn (registry.store node code)
      return code

/-- A stored type is answered at once, a new one is logged and stored, and one that is new to a full
registry is refused; no other ending is possible.
-/
theorem run_intern (logger : Logger) (node : TypeNode) (state : Hosted Registry)
    : (intern logger node).run state
      = match state.own.codeOf? node with
        | some code => (.ok code, state)
        | none =>
            match Typecode.ofInt state.own.size with
            | .error cause => (.error (.failure cause), state)
            | .ok code =>
                if logger.panicsAfter (.registered code node) then
                  (.error .panic, ⟨state.own, state.host.note (.line (.registered code node))⟩)
                else
                  (.ok code,
                    ⟨state.own.store node code,
                      state.host.note (.line (.registered code node))⟩) := by
  simp only [intern, Run.run_bind, Run.run_own]
  cases state.own.codeOf? node with
  | some code => rfl
  | none =>
      cases Typecode.ofInt state.own.size with
      | error cause => rfl
      | ok code =>
          by_cases panics : logger.panicsAfter (.registered code node)
            <;> simp [Run.ofFailing, Run.run_bind, Run.run_map, Run.run_log, panics, Except.map]

/-- Stores the types of elementary numbers, each under the code that it has or the next one. -/
def internKinds (logger : Logger) : List ElementaryKind → Run Registry (List (String × Typecode))
  | [] => pure []
  | kind :: rest => do
      let code ← intern logger (.number kind.scalar)
      let named ← internKinds logger rest
      return (kind.name, code) :: named

/-- The names of the elementary kinds with their codes, in table order. -/
def elementaryNames (logger : Logger) : Run Registry (List (String × Typecode)) :=
  internKinds logger ElementaryKind.all

/-- A registry whose first types are the elementary numbers, in table order. -/
def withElementary : Registry :=
  ((elementaryNames .steady).run ⟨empty, .fresh⟩).2.own

/-- Every code with its type, in the order of the codes. There is no answer if a position has no
code.
-/
def entries? (registry : Registry) : Option (List (Typecode × TypeNode)) :=
  registry.types.toList.zipIdx.mapM fun (node, position) =>
    (Typecode.ofUInt32? (UInt32.ofNat position)).map (·, node)

/-- The long form of a registry. -/
def inspect (registry : Registry) : String :=
  "TypeRegistry \x7b types: " ++ toString registry.size ++ " \x7d"

end Registry

end Typecodes
