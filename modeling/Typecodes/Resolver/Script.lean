import Typecodes.Resolver.Tuplewise

/-! Scripts: descriptions of resolvers as data. A script says what a resolver answers, how its
answers change from one use to the next, and what it has classified before it answers.
-/

namespace Typecodes

/-- What a resolver does when called on a value. -/
inductive Script where
  /-- Analyses the value in full. -/
  | analysis
  /-- Has the items of a tuple classified and stores the tuple's type; other values are analysed. -/
  | tuplewise
  /-- Answers the next number of a counter. -/
  | counter
  /-- Panics. -/
  | unwind
  /-- Answers the same code every time. -/
  | constant (code : Typecode)
  /-- Fails in the same way every time. -/
  | failure (cause : Failure)
  /-- Answers a number, which need not be a typecode. -/
  | number (raw : Int)
  /-- Acts as one script after the other, and as the last one from then on. Uses are counted under
  the label.
  -/
  | sequence (label : Nat) (scripts : List Script)
  /-- Has a value classified first, by default the one it was called on, with a resolver of its own.
  If that fails, the failure is the answer unless it is to be ignored; else it acts as the last
  script.
  -/
  | reentrant (value : Option Shape) (inner : Script) (ignoreFailure : Bool) (afterwards : Script)

/-- What scripts keep between calls. -/
structure ScriptState where
  analyzer : Analyzer
  counter : Nat
  /-- The label of every use of a sequence so far. -/
  uses : List Nat

namespace ScriptState

/-- Runs on the analyzer. -/
def onAnalyzer {α : Type} (run : Run Analyzer α) : Run ScriptState α :=
  Run.within analyzer (fun state next => { state with analyzer := next }) run

/-- The counter's number as a code; the counter then moves on. -/
def count : Run ScriptState Typecode := do
  let state ← Run.own
  Run.setOwn { state with counter := state.counter + 1 }
  Run.ofFailing (Typecode.ofInt state.counter)

/-- How often a label was used before this use. -/
def use (label : Nat) : Run ScriptState Nat := do
  let state ← Run.own
  Run.setOwn { state with uses := label :: state.uses }
  return state.uses.count label

end ScriptState

namespace Script

/-- Ends a call with the answer of some work. -/
def answer (work : Run ScriptState Typecode) : Procedure ScriptState :=
  .perform work fun code => .done (.ok code)

mutual

/-- What a script does on a value whose items, if it is a tuple, are given with what the whole
resolver does on them.
-/
def act (logger : Logger)
    : Script → Shape → List (Resolver.Item ScriptState) → Procedure ScriptState
  | .analysis, value, _ => answer (ScriptState.onAnalyzer (Analyzer.resolve logger value))
  | .tuplewise, value, items => Resolver.typeByItems logger ScriptState.onAnalyzer value items
  | .counter, _, _ => answer ScriptState.count
  | .unwind, _, _ => .done (.error .panic)
  | .constant code, _, _ => .done (.ok code)
  | .failure cause, _, _ => .done (.error (.failure cause))
  | .number raw, _, _ => answer (Run.ofFailing (Typecode.ofInt raw))
  | .sequence label scripts, value, items =>
      .perform (ScriptState.use label) fun position => actAt logger scripts position value items
  | .reentrant first inner ignoreFailure afterwards, value, items =>
      let target := first.getD value
      .classify target (fun _ => Resolver.overItems (act logger inner) target) fun
        | .ok _ => act logger afterwards value items
        | .error cause =>
            if ignoreFailure then act logger afterwards value items
            else .done (.error (.failure cause))

/-- What the script at a position does; past the end the last script acts. Where there is no script
the call panics.
-/
def actAt (logger : Logger)
    : List Script → Nat → Shape → List (Resolver.Item ScriptState) → Procedure ScriptState
  | [], _, _, _ => .done (.error .panic)
  | [script], _, value, items => act logger script value items
  | script :: _, 0, value, items => act logger script value items
  | _ :: rest, position + 1, value, items => actAt logger rest position value items

end

/-- The resolver that a script describes. -/
def resolver (logger : Logger) (script : Script) : Resolver ScriptState :=
  Resolver.overItems (act logger script)

end Script

end Typecodes
