import Typecodes.Text.Hexadecimal

/-! Memory order of arrays and views. Contiguity flags are raw bits as reported; the layout class
keeps of them only whether elements are in row-major, column-major or some other order.
-/

namespace Typecodes

/-- Contiguity flags of an array or a view. Bit 0 stands for row-major, bit 1 for column-major
order; the other bits are kept and mean nothing.
-/
structure Contiguity where
  bits : UInt8
deriving DecidableEq, Hashable

namespace Contiguity

/-- Whether elements are contiguous in row-major order. -/
def isRowMajor (contiguity : Contiguity) : Bool :=
  contiguity.bits &&& 1 != 0

/-- Whether elements are contiguous in column-major order. -/
def isColumnMajor (contiguity : Contiguity) : Bool :=
  contiguity.bits &&& 2 != 0

/-- The bits that mean nothing. -/
def residue (contiguity : Contiguity) : UInt8 :=
  contiguity.bits &&& 252

/-- The long form: the set flags, then the bits that mean nothing as one number. -/
def inspect (contiguity : Contiguity) : String :=
  let flags :=
    (if contiguity.isRowMajor then ["C"] else [])
      ++ (if contiguity.isColumnMajor then ["F"] else [])
      ++ (if contiguity.residue != 0 then [Text.hexNumber contiguity.residue.toNat] else [])
  let listed := if flags.isEmpty then "0x0" else String.intercalate " | " flags
  s!"Contiguity({listed})"

end Contiguity

/-- The layout classes that types distinguish. -/
inductive Layout where
  | rowMajor
  | columnMajor
  | any
deriving DecidableEq, Hashable

namespace Layout

/-- The number of layout classes. -/
abbrev count : Nat := 3

/-- The class of contiguity flags. Row-major order is looked for first, so elements that are in
both orders count as row-major.
-/
def classify (contiguity : Contiguity) : Layout :=
  if contiguity.isRowMajor then rowMajor
  else if contiguity.isColumnMajor then columnMajor
  else any

/-- The letter of a class. -/
def letter : Layout → Char
  | rowMajor => 'C'
  | columnMajor => 'F'
  | any => 'A'

/-- The byte that stands for a class in fingerprints. -/
def byte : Layout → UInt8
  | rowMajor => 67
  | columnMajor => 70
  | any => 65

/-- The position of a class on the layout axis of the grid. -/
def slot : Layout → Fin count
  | any => 0
  | rowMajor => 1
  | columnMajor => 2

/-- The short form: the letter. -/
def display (layout : Layout) : String :=
  layout.letter.toString

/-- The long form of a class. -/
def inspect : Layout → String
  | rowMajor => "C"
  | columnMajor => "F"
  | any => "Any"

-----------------------------------------------------------------------------------------
-- Bytes and positions determine the class
-----------------------------------------------------------------------------------------

/-- No two classes share a byte. -/
theorem byte_inj {first second : Layout} (same : first.byte = second.byte) : first = second := by
  revert same
  cases first <;> cases second <;> decide

/-- No two classes share a position. -/
theorem slot_inj {first second : Layout} (same : first.slot = second.slot) : first = second := by
  revert same
  cases first <;> cases second <;> decide

/-- Every class is that of some contiguity flags. -/
theorem exists_contiguity (layout : Layout)
    : ∃ contiguity, Layout.classify contiguity = layout := by
  cases layout with
  | rowMajor => exact ⟨⟨1⟩, by decide⟩
  | columnMajor => exact ⟨⟨2⟩, by decide⟩
  | any => exact ⟨⟨0⟩, by decide⟩

end Layout

end Typecodes
