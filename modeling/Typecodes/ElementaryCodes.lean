import Typecodes.ElementType.Kind
import Typecodes.Typecode

/-! The typecodes of the elementary kinds. The host announces them by name, all twelve at once; the
first name without a typecode, in table order, decides the failure.
-/

namespace Typecodes

/-- The typecodes of the elementary kinds and that of pointer-sized integers. -/
structure ElementaryCodes where
  codes : Vector Typecode ElementaryKind.count
  pointerSized : Typecode
deriving DecidableEq

namespace ElementaryCodes

/-- The typecode of a kind. -/
def get (elementary : ElementaryCodes) (kind : ElementaryKind) : Typecode :=
  elementary.codes[kind.index]

/-- Asks for the names of kinds, one after the other and up to the first that is missing, and
enters each answer into the table.
-/
def fill {m : Type → Type} [Monad m] (lookup : String → m (Option Typecode))
    : List ElementaryKind → Vector Typecode ElementaryKind.count
        → m (Except Failure (Vector Typecode ElementaryKind.count))
  | [], table => pure (.ok table)
  | kind :: rest, table => do
      match ← lookup kind.name with
      | some code => fill lookup rest (table.set kind.index code)
      | none => pure (.error (.missingElementary kind.name))

/-- The table that results from asking for every elementary name. On a 64-bit machine the
pointer-sized integers are those of 64 bits.
-/
def ofLookup {m : Type → Type} [Monad m] (lookup : String → m (Option Typecode))
    : m (Except Failure ElementaryCodes) := do
  let filled ← fill lookup ElementaryKind.all (Vector.replicate _ Typecode.zero)
  return filled.map fun codes => ⟨codes, codes[ElementaryKind.int64.index]⟩

/-- The typecode under a name; of several entries for a name the last one counts. -/
def named? (names : List (String × Typecode)) (name : String) : Option Typecode :=
  names.reverse.lookup name

/-- The table of announced names. -/
def ofNames (names : List (String × Typecode)) : Except Failure ElementaryCodes :=
  Id.run (ofLookup fun name => pure (named? names name))

/-- The long form of the table. -/
def inspect (elementary : ElementaryCodes) : String :=
  "BasicTypecodes \x7b codes: [" ++ String.intercalate ", "
      (elementary.codes.toList.map Typecode.inspect)
    ++ "], intp: " ++ elementary.pointerSized.inspect ++ " \x7d"

end ElementaryCodes

end Typecodes
