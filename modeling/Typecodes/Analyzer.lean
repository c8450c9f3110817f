import Typecodes.Registry.Typing

/-! The analyzer: full analysis of values over a registry of its own, with a count of the requests.
Its registry is never replaced, so the codes that it answers keep their meaning.
-/

namespace Typecodes

/-- A registry that resolves values, and how often it was asked to. -/
structure Analyzer where
  registry : Registry
  resolutions : Nat

namespace Analyzer

/-- Runs on the registry of an analyzer. -/
def onRegistry {α : Type} (run : Run Registry α) : Run Analyzer α :=
  Run.within Analyzer.registry (fun analyzer next => { analyzer with registry := next }) run

/-- The typecode of a value by full analysis, which is not counted. -/
def typeOf (logger : Logger) (value : Shape) : Run Analyzer Typecode :=
  onRegistry (Registry.typeOf logger value)

/-- The typecode of a value by full analysis, counted whether or not it succeeds. -/
def resolve (logger : Logger) (value : Shape) : Run Analyzer Typecode := do
  let analyzer ← Run.own
  Run.setOwn { analyzer with resolutions := analyzer.resolutions + 1 }
  typeOf logger value

/-- The long form of an analyzer. -/
def inspect (analyzer : Analyzer) : String :=
  "RegistryResolver \x7b registry: " ++ analyzer.registry.inspect ++ ", resolutions: "
    ++ toString analyzer.resolutions ++ " \x7d"

end Analyzer

end Typecodes
