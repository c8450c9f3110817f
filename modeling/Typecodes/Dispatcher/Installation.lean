import Typecodes.Dispatcher

/-! The process-wide dispatcher. It is put in place once, and until then every use of it fails. -/

namespace Typecodes

/-- The place of the process-wide dispatcher. -/
structure Installation where
  current : Option Dispatcher

namespace Installation

/-- The place before any dispatcher is put there. -/
def vacant : Installation :=
  ⟨none⟩

/-- The dispatcher in place. -/
def dispatcher : Run Installation Dispatcher := do
  match (← Run.own).current with
  | some dispatcher => return dispatcher
  | none => Run.fail .notInitialized

/-- Runs on the dispatcher in place. -/
def onDispatcher {α : Type} (run : Run Dispatcher α) : Run Installation α := do
  let current ← dispatcher
  Run.within (fun _ => current) (fun _ next => ⟨some next⟩) run

/-- Puts a dispatcher for announced names in place. The names are examined first, so an incomplete
list is reported even when a dispatcher is in place already.
-/
def install (names : List (String × Typecode)) : Run Installation Dispatcher := do
  let elementary ← Run.ofFailing (ElementaryCodes.ofNames names)
  match (← Run.own).current with
  | some _ => Run.fail .alreadyInitialized
  | none => do
      Run.setOwn ⟨some (Dispatcher.ofCodes elementary)⟩
      dispatcher

instance : Layer Installation Dispatcher.Place where
  key := Layer.key Dispatcher
  probe logger value := onDispatcher (Layer.probe logger value)
  store logger place code := onDispatcher (Layer.store logger place code)

end Installation

end Typecodes
