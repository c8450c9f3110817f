import Typecodes.Failure

/-! Typecodes: small integers that stand for resolved types. The greatest 32-bit number is reserved
and is no typecode, so every conversion from a number can refuse.
-/

namespace Typecodes

/-- The number of typecodes, which is also the one 32-bit number that is no typecode. -/
abbrev typecodeCount : Nat := 4294967295

/-- An integer that stands for a resolved type. -/
structure Typecode where
  index : Fin typecodeCount
deriving DecidableEq, Hashable, Ord

namespace Typecode

/-- The greatest typecode. -/
def greatest : Typecode :=
  ⟨⟨4294967294, by decide⟩⟩

/-- The least typecode. -/
def zero : Typecode :=
  ⟨⟨0, by decide⟩⟩

/-- The typecode of a natural number, unless the number is too large. -/
def ofNat? (number : Nat) : Option Typecode :=
  if inRange : number < typecodeCount then some ⟨⟨number, inRange⟩⟩ else none

/-- The typecode of a 32-bit number; the reserved number has none. -/
def ofUInt32? (number : UInt32) : Option Typecode :=
  ofNat? number.toNat

/-- The typecode of a signed number. A negative number or one past the greatest is refused and
named in the failure.
-/
def ofInt (raw : Int) : Except Failure Typecode :=
  if raw < 0 then
    .error (.invalidTypecode raw)
  else
    match ofNat? raw.toNat with
    | some code => .ok code
    | none => .error (.invalidTypecode raw)

/-- What is reported when the reserved number is used as a typecode. -/
def reservedMessage : String :=
  "u32::MAX is a reserved typecode"

/-- The number of a typecode as a natural number. -/
def toNat (code : Typecode) : Nat :=
  code.index.val

/-- The short form, such as `tc7`. -/
def display (code : Typecode) : String :=
  s!"tc{code.toNat}"

/-- The long form, such as `Typecode(7)`. -/
def inspect (code : Typecode) : String :=
  s!"Typecode({code.toNat})"

-----------------------------------------------------------------------------------------
-- Which numbers are typecodes
-----------------------------------------------------------------------------------------

/-- No two typecodes share a number. -/
theorem toNat_inj {first second : Typecode} (same : first.toNat = second.toNat)
    : first = second := by
  cases first
  cases second
  exact congrArg mk (Fin.ext same)

theorem toNat_lt (code : Typecode) : code.toNat < typecodeCount :=
  code.index.isLt

theorem ofNat?_toNat (code : Typecode) : ofNat? code.index.val = some code := by
  simp [ofNat?, code.index.isLt]

theorem ofNat?_eq_some {number : Nat} {code : Typecode}
    : ofNat? number = some code ↔ code.index.val = number := by
  constructor
  · intro found
    unfold ofNat? at found
    split at found
    · simp only [Option.some.injEq] at found
      rw [← found]
    · exact absurd found (by simp)
  · rintro rfl
    exact ofNat?_toNat code

/-- Exactly the numbers from 0 up to the greatest typecode are accepted. -/
theorem ofInt_eq_ok {raw : Int} {code : Typecode}
    : ofInt raw = .ok code ↔ (code.index.val : Int) = raw := by
  unfold ofInt
  split
  · constructor
    · intro accepted
      exact absurd accepted (by simp)
    · intro same
      omega
  · cases found : ofNat? raw.toNat with
    | some other =>
        rw [ofNat?_eq_some] at found
        simp only [Except.ok.injEq]
        constructor
        · rintro rfl
          omega
        · intro same
          have : other.index = code.index := Fin.ext (by omega)
          cases other
          cases code
          simp_all
    | none =>
        constructor
        · intro accepted
          exact absurd accepted (by simp)
        · intro same
          have : ofNat? raw.toNat = some code := ofNat?_eq_some.mpr (by omega)
          rw [found] at this
          exact absurd this (by simp)

/-- A refused number is named in the failure. -/
theorem ofInt_eq_error {raw : Int} {cause : Failure} (refused : ofInt raw = .error cause)
    : cause = .invalidTypecode raw := by
  unfold ofInt at refused
  split at refused
  · cases refused
    rfl
  · split at refused <;> cases refused
    rfl

end Typecode

end Typecodes
