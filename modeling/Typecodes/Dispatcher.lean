import Typecodes.ArrayGrid
import Typecodes.ElementaryCodes
import Typecodes.FingerprintTable
import Typecodes.Registry

/-! The dispatcher: the elementary typecodes and two layers in one. A value that the grid serves is
looked up and stored there and only there; every other value goes to the fingerprint table.
-/

namespace Typecodes

/-- The two layers and the elementary typecodes. -/
structure Dispatcher where
  elementary : ElementaryCodes
  table : FingerprintTable
  grid : ArrayGrid

namespace Dispatcher

/-- A dispatcher with nothing stored. -/
def ofCodes (elementary : ElementaryCodes) : Dispatcher :=
  ⟨elementary, .empty, .empty⟩

/-- A dispatcher for the elementary typecodes of a registry, which stores their types if it lacks
them.
-/
def ofRegistry (logger : Logger) : Run Registry Dispatcher := do
  let names ← Registry.elementaryNames logger
  return ofCodes (← Run.ofFailing (ElementaryCodes.ofNames names))

/-- Runs on the fingerprint table of a dispatcher. -/
def onTable {α : Type} (run : Run FingerprintTable α) : Run Dispatcher α :=
  Run.within table (fun dispatcher next => { dispatcher with table := next }) run

/-- Runs on the grid of a dispatcher. -/
def onGrid {α : Type} (run : Run ArrayGrid α) : Run Dispatcher α :=
  Run.within grid (fun dispatcher next => { dispatcher with grid := next }) run

/-- Where a dispatcher stores a code: under a fingerprint or at a grid position. -/
abbrev Place := Bytes ⊕ GridSlot

/-- Looks a value up in the layer that serves it. -/
def probe (logger : Logger) (value : Shape) : Run Dispatcher (Verdict Place) := do
  match ← onGrid (ArrayGrid.probe value) with
  | .known code => return .known code
  | .uncached => return .uncached
  | .missing slot => return .missing (.inr slot)
  | .unserved =>
      match ← onTable (FingerprintTable.probe logger value) with
      | .known code => return .known code
      | .uncached => return .uncached
      | .missing bytes => return .missing (.inl bytes)
      | .unserved => return .unserved

/-- Stores a code in the layer that its key belongs to. -/
def store (logger : Logger) (place : Place) (code : Typecode) : Run Dispatcher Typecode :=
  match place with
  | .inl bytes => onTable (FingerprintTable.insert logger bytes code)
  | .inr slot => onGrid (ArrayGrid.fill logger slot code)

instance : Layer Dispatcher Place where
  key := Sum.elim Key.fingerprint Key.slot
  probe := probe
  store := store

/-- The long form of a dispatcher. -/
def inspect (logger : Logger) : Run Dispatcher String := do
  let dispatcher ← Run.own
  let table ← onTable (FingerprintTable.inspect logger)
  return "TypeofDispatcher \x7b basic: " ++ dispatcher.elementary.inspect ++ ", cache: " ++ table
    ++ ", arrays: " ++ dispatcher.grid.inspect ++ " \x7d"

end Dispatcher

end Typecodes
