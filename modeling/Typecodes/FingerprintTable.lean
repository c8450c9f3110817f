import Std.Data.HashMap
import Typecodes.Fingerprint
import Typecodes.Layer

/-! The table from fingerprints to typecodes. It serves every value: one without a fingerprint is
resolved on its own each time. The first code stored for a fingerprint stays for good.
-/

namespace Typecodes

/-- Codes under fingerprints. -/
structure FingerprintTable where
  entries : Std.HashMap Bytes Typecode
  /-- Whether a panic ever interrupted a change of the table. -/
  poisoned : Bool

namespace FingerprintTable

/-- The table without entries. -/
def empty : FingerprintTable :=
  ⟨{}, false⟩

/-- The number of entries. -/
def size (table : FingerprintTable) : Nat :=
  table.entries.size

/-- The code stored under a byte string. -/
def get? (table : FingerprintTable) (bytes : Bytes) : Option Typecode :=
  table.entries[bytes]?

/-- Takes the table in use. A poisoned table holds nothing half-written, so it is used all the same,
and the log says so.
-/
def lock (logger : Logger) : Run FingerprintTable Unit := do
  if (← Run.own).poisoned then Run.log logger .recovered

/-- Looks a byte string up. -/
def lookup (logger : Logger) (bytes : Bytes) : Run FingerprintTable (Option Typecode) := do
  lock logger
  return (← Run.own).get? bytes

/-- Counts the entries. -/
def count (logger : Logger) : Run FingerprintTable Nat := do
  lock logger
  return (← Run.own).size

/-- Writes a log line in the middle of a change. If the logger panics, the table is poisoned. -/
def logInside (logger : Logger) (line : LogLine) : Run FingerprintTable Unit :=
  Run.onStop (fun table => { table with poisoned := true }) (Run.log logger line)

/-- Stores a code under a byte string, unless one is stored there already, and returns the code
stored in the end.
-/
def insert (logger : Logger) (bytes : Bytes) (code : Typecode)
    : Run FingerprintTable Typecode := do
  lock logger
  match (← Run.own).get? bytes with
  | some stored => do
      if stored ≠ code then logInside logger (.conflict bytes stored code)
      return stored
  | none => do
      logInside logger (.caching bytes code)
      let table ← Run.own
      Run.setOwn { table with entries := table.entries.insert bytes code }
      return code

/-- Looks a value up by its fingerprint. -/
def probe (logger : Logger) (value : Shape) : Run FingerprintTable (Verdict Bytes) := do
  match ← Run.attempt value.fingerprint with
  | .ok bytes =>
      match ← lookup logger bytes with
      | some code => return .known code
      | none => return .missing bytes
  | .error cause => do
      if cause.isUnrecognized then
        Run.log logger (.uncached cause)
        return .uncached
      else
        Run.fail cause

instance : Layer FingerprintTable Bytes where
  key := Key.fingerprint
  probe
  store := insert

/-- The long form of a table. -/
def inspect (logger : Logger) : Run FingerprintTable String := do
  return "FingerprintCache \x7b entries: " ++ toString (← count logger) ++ " \x7d"

end FingerprintTable

end Typecodes
