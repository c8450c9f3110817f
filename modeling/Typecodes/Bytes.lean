/-! Byte strings, and how numbers and texts are written as bytes. Numbers have a fixed width with
the low byte first, so the bytes of a number determine it.
-/

namespace Typecodes

/-- A byte string. -/
abbrev Bytes := List UInt8

namespace Bytes

/-- The four bytes of a number of 32 bits, the low one first. -/
def ofUInt32 (value : UInt32) : Bytes :=
  [value.toUInt8, (value >>> 8).toUInt8, (value >>> 16).toUInt8, (value >>> 24).toUInt8]

/-- The eight bytes of a machine word, the low one first. -/
def ofUInt64 (value : UInt64) : Bytes :=
  [value.toUInt8, (value >>> 8).toUInt8, (value >>> 16).toUInt8, (value >>> 24).toUInt8,
    (value >>> 32).toUInt8, (value >>> 40).toUInt8, (value >>> 48).toUInt8,
    (value >>> 56).toUInt8]

/-- The bytes of a text up to its first NUL. -/
def uptoNul (text : String) : Bytes :=
  text.toUTF8.data.toList.takeWhile (fun byte => byte != 0)

/-- The bytes of a text that is ended by a zero byte; an absent text is empty. -/
def terminated (text : Option String) : Bytes :=
  (text.map uptoNul).getD [] ++ [0]

-----------------------------------------------------------------------------------------
-- Widths, and what the bytes determine
-----------------------------------------------------------------------------------------

@[simp]
theorem length_ofUInt32 (value : UInt32) : (ofUInt32 value).length = 4 :=
  rfl

@[simp]
theorem length_ofUInt64 (value : UInt64) : (ofUInt64 value).length = 8 :=
  rfl

/-- The bytes determine the number: each is one digit of it in base 256. -/
theorem ofUInt32_inj {left right : UInt32} (same : ofUInt32 left = ofUInt32 right)
    : left = right := by
  simp only [ofUInt32, List.cons.injEq, ← UInt8.toNat_inj, UInt32.toNat_toUInt8,
    UInt32.toNat_shiftRight, Nat.shiftRight_eq_div_pow, UInt32.reduceToNat, Nat.reduceMod,
    Nat.reducePow] at same
  have leftBound := left.toNat_lt
  have rightBound := right.toNat_lt
  apply UInt32.toNat_inj.mp
  omega

/-- The bytes determine the word: each is one digit of it in base 256. -/
theorem ofUInt64_inj {left right : UInt64} (same : ofUInt64 left = ofUInt64 right)
    : left = right := by
  simp only [ofUInt64, List.cons.injEq, ← UInt8.toNat_inj, UInt64.toNat_toUInt8,
    UInt64.toNat_shiftRight, Nat.shiftRight_eq_div_pow, UInt64.reduceToNat, Nat.reduceMod,
    Nat.reducePow] at same
  have leftBound := left.toNat_lt
  have rightBound := right.toNat_lt
  apply UInt64.toNat_inj.mp
  omega

/-- No zero byte stands before a NUL. -/
theorem zero_not_mem_uptoNul (text : String) : 0 ∉ uptoNul text := by
  intro member
  have kept := List.all_eq_true.mp (List.all_takeWhile (l := text.toUTF8.data.toList)) 0 member
  simp at kept

end Bytes

end Typecodes
