import Typecodes.ArrayShape

/-! Positions in the grid of common array shapes. A position is a rank, a layout class and an
elementary kind; the grid serves ranks 1 to 5.
-/

namespace Typecodes

/-- A position in the array grid. -/
structure GridSlot where
  rank : UInt32
  layout : Layout
  kind : ElementaryKind
deriving DecidableEq

namespace GridSlot

/-- The highest rank that the grid serves. -/
abbrev maxRank : Nat := 5

/-- The number of positions for served ranks. -/
abbrev count : Nat := maxRank * Layout.count * ElementaryKind.count

/-- The position of an array. Arrays of rank 0 or above 5, read-only arrays and arrays of
elements that are not elementary have none.
-/
def ofArray? (array : ArrayShape) : Option GridSlot :=
  if array.rank.toNat = 0 ∨ maxRank < array.rank.toNat ∨ array.writable = false then
    none
  else
    array.element.elementary?.map (fun kind => ⟨array.rank, array.layout, kind⟩)

/-- Where a position lies in the grid's storage; a rank outside 1 to 5 lies nowhere. -/
def index? (slot : GridSlot) : Option (Fin count) :=
  if slot.rank.toNat = 0 then
    none
  else
    let index :=
      ((slot.rank.toNat - 1) * Layout.count + slot.layout.slot) * ElementaryKind.count
        + slot.kind.index
    if inGrid : index < count then some ⟨index, inGrid⟩ else none

end GridSlot

end Typecodes
