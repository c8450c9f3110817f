import Typecodes.Text.Hexadecimal

/-! Identities of host objects. An identity is one 64-bit machine word; two are equal exactly when
their words are, and they are ordered as their words.
-/

namespace Typecodes

/-- The identity of a host object, such as a runtime type or a record layout. -/
structure Identity where
  word : UInt64
deriving DecidableEq, Hashable, Ord

namespace Identity

/-- The short form: the word in hexadecimal. -/
def display (identity : Identity) : String :=
  Text.hexNumber identity.word.toNat

/-- The long form: the word in decimal. -/
def inspect (identity : Identity) : String :=
  s!"Identity({identity.word.toNat})"

end Identity

end Typecodes
