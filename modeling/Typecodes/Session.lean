import Typecodes.Session.Step

/-! Sessions: one analyzer with its registry, the place of the dispatcher, a separate fingerprint
table and a separate grid, worked on in steps. A step that stops leaves what it had done before.
-/

namespace Typecodes

/-- The state of a session. -/
structure Session where
  scripts : ScriptState
  installation : Installation
  table : FingerprintTable
  grid : ArrayGrid

namespace Session

/-- What a session holds, in numbers. -/
structure Summary where
  resolutions : Nat
  types : Nat
  /-- Entries of the dispatcher's table and filled positions of its grid. -/
  dispatcher : Option (Nat × Nat)
  table : Nat
  grid : Nat
deriving DecidableEq

/-- What a step did and answered. -/
structure Report where
  outcome : Except Stop Answer
  /-- The values on which the step's resolver was called, in order. -/
  calls : List Shape
  events : List BufferEvent
  logged : List LogLine
  summary : Summary

/-- The number at which the counter of a session starts. -/
abbrev counterStart : Nat := 1000

/-- A session on a registry, with or without a dispatcher. -/
def start (registry : Registry) (dispatcher : Option Dispatcher) : Session where
  scripts := ⟨⟨registry, 0⟩, counterStart, []⟩
  installation := ⟨dispatcher⟩
  table := .empty
  grid := .empty

/-- A session whose dispatcher takes the elementary codes of the registry. -/
def startOnRegistry (registry : Registry) : Except Stop Session :=
  match (Dispatcher.ofRegistry .steady).run ⟨registry, .fresh⟩ with
  | (.ok dispatcher, after) => .ok (start after.own (some dispatcher))
  | (.error ending, _) => .error ending

/-- A session whose dispatcher takes announced elementary codes. -/
def startOnNames (registry : Registry) (names : List (String × Typecode)) : Except Stop Session :=
  match ElementaryCodes.ofNames names with
  | .ok elementary => .ok (start registry (some (.ofCodes elementary)))
  | .error cause => .error (.failure cause)

/-- A session in numbers. -/
def summary (session : Session) : Summary where
  resolutions := session.scripts.analyzer.resolutions
  types := session.scripts.analyzer.registry.size
  dispatcher := session.installation.current.map fun dispatcher =>
    (dispatcher.table.size, dispatcher.grid.populated)
  table := session.table.size
  grid := session.grid.populated

/-- Runs on the analyzer. -/
def onAnalyzer {α : Type} (run : Run Analyzer α) : Run Session α :=
  Run.within scripts (fun session next => { session with scripts := next })
    (ScriptState.onAnalyzer run)

/-- Runs on the registry. -/
def onRegistry {α : Type} (run : Run Registry α) : Run Session α :=
  onAnalyzer (Analyzer.onRegistry run)

/-- Runs on the place of the dispatcher. -/
def onInstallation {α : Type} (run : Run Installation α) : Run Session α :=
  Run.within installation (fun session next => { session with installation := next }) run

/-- Runs on the dispatcher's fingerprint table or on the session's own. -/
def onTable {α : Type} (inDispatcher : Bool) (run : Run FingerprintTable α) : Run Session α :=
  if inDispatcher then
    onInstallation (Installation.onDispatcher (Dispatcher.onTable run))
  else
    Run.within table (fun session next => { session with table := next }) run

/-- Runs on the dispatcher's grid or on the session's own. -/
def onGrid {α : Type} (inDispatcher : Bool) (run : Run ArrayGrid α) : Run Session α :=
  if inDispatcher then
    onInstallation (Installation.onDispatcher (Dispatcher.onGrid run))
  else
    Run.within grid (fun session next => { session with grid := next }) run

/-- Classifies a value through a layer of the session, with a scripted resolver. -/
def classify (logger : Logger) (layer : LayerName) (value : Shape) (script : Script)
    : Run Session (Option Typecode) :=
  let resolver := script.resolver logger
  match layer with
  | .dispatcher =>
      Run.within (fun session => (session.installation, session.scripts))
        (fun session next => { session with installation := next.1, scripts := next.2 })
        (resolver.classify logger value)
  | .table =>
      Run.within (fun session => (session.table, session.scripts))
        (fun session next => { session with table := next.1, scripts := next.2 })
        (resolver.classify logger value)
  | .grid =>
      Run.within (fun session => (session.grid, session.scripts))
        (fun session next => { session with grid := next.1, scripts := next.2 })
        (resolver.classify logger value)

/-- The long form of a part. Counting the entries of a table takes the table in use. -/
def inspect (logger : Logger) : Part → Run Session String
  | .dispatcher => onInstallation (Installation.onDispatcher (Dispatcher.inspect logger))
  | .table => onTable false (FingerprintTable.inspect logger)
  | .grid => onGrid false (return (← Run.own).inspect)
  | .analyzer => onAnalyzer (return (← Run.own).inspect)
  | .registry => onRegistry (return (← Run.own).inspect)

/-- Whether the registry, the session's table and the dispatcher's table, if there is a dispatcher,
are empty.
-/
def emptiness (logger : Logger) : Run Session Answer := do
  let types ← onRegistry (return (← Run.own).size)
  let entries ← onTable false (FingerprintTable.count logger)
  match (← Run.own).installation.current with
  | some _ => do
      let inDispatcher ← onTable true (FingerprintTable.count logger)
      return .emptiness (types = 0) (entries = 0) (some (inDispatcher = 0))
  | none => return .emptiness (types = 0) (entries = 0) none

/-- Carries a step out. -/
def perform (logger : Logger) : Step → Run Session Answer
  | .classify layer value script => return .ofCode? (← classify logger layer value script)
  | .resolve value => return .code (← onAnalyzer (Analyzer.resolve logger value))
  | .typeOf value => return .code (← onAnalyzer (Analyzer.typeOf logger value))
  | .intern node => return .code (← onRegistry (Registry.intern logger node))
  | .codeOf node => onRegistry (return .ofCode? ((← Run.own).codeOf? node))
  | .typeAt code => onRegistry do
      match (← Run.own).get? code with
      | some node => return .type node
      | none => return .nothing
  | .entries => onRegistry do
      match (← Run.own).entries? with
      | some entries => return .entries entries
      | none => Run.unwind
  | .elementaryNames => return .names (← onRegistry (Registry.elementaryNames logger))
  | .lookupBytes inDispatcher bytes =>
      return .ofCode? (← onTable inDispatcher (FingerprintTable.lookup logger bytes))
  | .lookupValue inDispatcher value => do
      let bytes ← value.fingerprint
      return .ofCode? (← onTable inDispatcher (FingerprintTable.lookup logger bytes))
  | .lookupSlot inDispatcher slot =>
      return .ofCode? (← onGrid inDispatcher (ArrayGrid.lookup slot))
  | .lookupArray inDispatcher array =>
      match GridSlot.ofArray? array with
      | some slot => return .ofCode? (← onGrid inDispatcher (ArrayGrid.lookup slot))
      | none => return .noSlot
  | .elementary => return .elementary (← onInstallation Installation.dispatcher).elementary
  | .inspect part => return .text (← inspect logger part)
  | .emptiness => emptiness logger
  | .install names => do
      let announced ← match names with
        | some names => pure names
        | none => onRegistry (Registry.elementaryNames logger)
      return .elementary (← onInstallation (Installation.install announced)).elementary

/-- A step with what it reported and the session after it. Uses of sequences are counted anew in
every step, while exporters remember all that happened to them.
-/
def next (logger : Logger) (step : Step) (state : Hosted Session) : Report × Hosted Session :=
  let scripts := { state.own.scripts with uses := [] }
  let (outcome, after) :=
    (perform logger step).run ⟨{ state.own with scripts }, state.host.rested⟩
  let notes := after.host.notes.reverse
  (⟨outcome, notes.filterMap Note.value?, notes.filterMap Note.event?,
    notes.filterMap Note.line?, after.own.summary⟩, after)

end Session

end Typecodes
