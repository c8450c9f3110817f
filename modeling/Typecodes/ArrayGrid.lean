import Typecodes.ArrayGrid.Slot
import Typecodes.Layer

/-! The grid of common array shapes. Arrays that may be written, of rank 1 to 5 and of elementary
elements, are looked up by position, without a fingerprint. The latest code stored at a position
counts.
-/

namespace Typecodes

/-- One machine word for each position: a typecode, or the mark of an empty position. -/
structure ArrayGrid where
  words : Vector UInt64 GridSlot.count

namespace ArrayGrid

/-- The word of a position at which nothing is stored. -/
def unset : UInt64 :=
  18446744073709551615

/-- The grid with every position empty. -/
def empty : ArrayGrid :=
  ⟨Vector.replicate _ unset⟩

/-- The typecode that a word holds. A word that is neither the mark nor a typecode is a panic. -/
def decode (word : UInt64) : Except Stop (Option Typecode) :=
  if word = unset then
    .ok none
  else
    match Typecode.ofUInt32? word.toUInt32 with
    | some code => .ok (some code)
    | none => .error .panic

/-- The code stored at a position. A rank that the grid does not serve is a panic. -/
def get (grid : ArrayGrid) (slot : GridSlot) : Except Stop (Option Typecode) :=
  match slot.index? with
  | some index => decode grid.words[index]
  | none => .error .panic

/-- The grid with a code at a position, or no grid if the position lies nowhere. -/
def set? (grid : ArrayGrid) (slot : GridSlot) (code : Typecode) : Option ArrayGrid :=
  slot.index?.map fun (index : Fin GridSlot.count) =>
    ⟨grid.words.set index (UInt64.ofNat code.toNat)⟩

/-- The number of positions at which a code is stored. -/
def populated (grid : ArrayGrid) : Nat :=
  grid.words.toList.countP (· ≠ unset)

/-- Looks a position up. -/
def lookup (slot : GridSlot) : Run ArrayGrid (Option Typecode) := do
  Run.ofExcept ((← Run.own).get slot)

/-- Stores a code at a position, whatever was there, and returns it. -/
def fill (logger : Logger) (slot : GridSlot) (code : Typecode) : Run ArrayGrid Typecode := do
  Run.log logger (.slotFilled slot code)
  match (← Run.own).set? slot code with
  | some grid => do
      Run.setOwn grid
      return code
  | none => Run.unwind

/-- Looks an array up by its position. Other values and arrays without a position are not served. -/
def probe (value : Shape) : Run ArrayGrid (Verdict GridSlot) := do
  match value with
  | .array shape =>
      match GridSlot.ofArray? shape with
      | some slot =>
          match ← lookup slot with
          | some code => return .known code
          | none => return .missing slot
      | none => return .unserved
  | _ => return .unserved

instance : Layer ArrayGrid GridSlot where
  key := Key.slot
  probe _ := probe
  store := fill

/-- The long form of a grid. -/
def inspect (grid : ArrayGrid) : String :=
  "ArrayTypecodeTable \x7b populated: " ++ toString grid.populated ++ " \x7d"

-----------------------------------------------------------------------------------------
-- Words of typecodes
-----------------------------------------------------------------------------------------

/-- The word of a typecode is never the mark, and the typecode is read back from it. -/
theorem decode_ofNat (code : Typecode)
    : decode (UInt64.ofNat code.toNat) = .ok (some code) := by
  have inRange : code.index.val < 4294967295 := code.index.isLt
  have small : (UInt64.ofNat code.toNat).toNat = code.index.val := by
    simp only [Typecode.toNat, UInt64.toNat_ofNat']
    omega
  have marked : UInt64.ofNat code.toNat ≠ unset := by
    intro same
    have : (UInt64.ofNat code.toNat).toNat = unset.toNat := by rw [same]
    rw [small] at this
    simp [unset] at this
    omega
  have narrowed : (UInt64.ofNat code.toNat).toUInt32.toNat = code.index.val := by
    rw [UInt64.toNat_toUInt32, small]
    omega
  unfold decode Typecode.ofUInt32?
  rw [if_neg marked, narrowed, Typecode.ofNat?_toNat]

end ArrayGrid

end Typecodes
