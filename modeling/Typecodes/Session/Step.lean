import Typecodes.Dispatcher.Installation
import Typecodes.Resolver.Script

/-! The steps of a session and their answers. -/

namespace Typecodes.Session

/-- The layers of a session. -/
inductive LayerName where
  /-- The dispatcher in place. -/
  | dispatcher
  /-- A fingerprint table of its own. -/
  | table
  /-- A grid of its own. -/
  | grid
deriving DecidableEq

/-- The parts of a session that have a long form. -/
inductive Part where
  | dispatcher
  | table
  | grid
  | analyzer
  | registry
deriving DecidableEq

/-- One step of a session. -/
inductive Step where
  /-- Classifies a value through a layer, with a scripted resolver. -/
  | classify (layer : LayerName) (value : Shape) (script : Script)
  /-- Resolves a value in full. -/
  | resolve (value : Shape)
  /-- Analyses a value in full without counting it. -/
  | typeOf (value : Shape)
  /-- Stores a type in the registry. -/
  | intern (node : TypeNode)
  /-- Looks the code of a type up. -/
  | codeOf (node : TypeNode)
  /-- Looks the type of a code up. -/
  | typeAt (code : Typecode)
  /-- Lists the registry. -/
  | entries
  /-- Names the elementary kinds with their codes. -/
  | elementaryNames
  /-- Looks bytes up in the fingerprint table of the dispatcher or of the session. -/
  | lookupBytes (inDispatcher : Bool) (bytes : Bytes)
  /-- Looks the fingerprint of a value up in such a table. -/
  | lookupValue (inDispatcher : Bool) (value : Shape)
  /-- Looks a position up in the grid of the dispatcher or of the session. -/
  | lookupSlot (inDispatcher : Bool) (slot : GridSlot)
  /-- Looks the position of an array up in such a grid. -/
  | lookupArray (inDispatcher : Bool) (array : ArrayShape)
  /-- Shows the elementary codes of the dispatcher. -/
  | elementary
  /-- Shows the long form of a part. -/
  | inspect (part : Part)
  /-- Tells which parts are empty. -/
  | emptiness
  /-- Puts a dispatcher in place, for the given names or for those of the registry. -/
  | install (names : Option (List (String × Typecode)))

/-- The answer of a step. -/
inductive Answer where
  | code (code : Typecode)
  /-- Nothing is stored there, or the layer is not meant for the value. -/
  | nothing
  /-- The array has no position in the grid. -/
  | noSlot
  | type (node : TypeNode)
  | entries (entries : List (Typecode × TypeNode))
  | names (names : List (String × Typecode))
  | elementary (codes : ElementaryCodes)
  | text (text : String)
  /-- Whether the registry, the session's table and the dispatcher's table are empty. -/
  | emptiness (registry table : Bool) (dispatcherTable : Option Bool)

/-- The answer for a code that may be missing. -/
def Answer.ofCode? : Option Typecode → Answer
  | some found => .code found
  | none => .nothing

end Typecodes.Session
