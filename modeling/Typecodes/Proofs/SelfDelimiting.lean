import Mathlib.Data.List.TakeWhile
import Typecodes.ElementType

/-! Byte codes that mark their own end. What such a code stands for can be read off even where
other bytes follow, which is all that the framing of fingerprints relies on. Numbers have a fixed
width, texts end at a zero byte, and the payload of an element type follows from its code.
-/

namespace Typecodes

/-- The codes of two items, followed by any bytes, agree only if the items are the same and the
same bytes follow.
-/
def Bytes.SelfDelimiting {α : Type} (code : α → Bytes) : Prop :=
  ∀ ⦃first second : α⦄ ⦃left right : Bytes⦄,
    code first ++ left = code second ++ right → first = second ∧ left = right

namespace Bytes.SelfDelimiting

variable {α : Type}

/-- An injective code of fixed width marks its own end, by cancellation of the common width. -/
theorem ofFixedWidth {code : α → Bytes} (width : Nat)
    (widths : ∀ item, (code item).length = width) (injective : Function.Injective code)
    : SelfDelimiting code := by
  intro first second left right same
  obtain ⟨codes, rest⟩ := List.append_inj same ((widths first).trans (widths second).symm)
  exact ⟨injective codes, rest⟩

end Bytes.SelfDelimiting

namespace Bytes

theorem ofUInt32_selfDelimiting : SelfDelimiting ofUInt32 :=
  .ofFixedWidth 4 length_ofUInt32 fun _ _ => ofUInt32_inj

theorem ofUInt64_selfDelimiting : SelfDelimiting ofUInt64 :=
  .ofFixedWidth 8 length_ofUInt64 fun _ _ => ofUInt64_inj

end Bytes

-----------------------------------------------------------------------------------------
-- Texts that end at a zero byte
-----------------------------------------------------------------------------------------

/-- The characters of a text before its first NUL. -/
def Text.beforeNul (text : String) : String :=
  String.ofList (text.toList.takeWhile (fun char => char != '\x00'))

/-- Only NUL is written with a zero byte, by cases on the width of a character. -/
theorem Text.zero_mem_utf8EncodeChar {char : Char}
    : 0 ∈ String.utf8EncodeChar char ↔ char = '\x00' := by
  have zero {number : Nat} : (0 : UInt8) = UInt8.ofNat number ↔ number % 256 = 0 := by
    rw [← UInt8.toNat_inj, UInt8.toNat_ofNat']
    exact eq_comm
  have nul : char = '\x00' ↔ char.val.toNat = 0 := by
    rw [← Char.val_inj, ← UInt32.toNat_inj]
    rfl
  rw [nul]
  unfold String.utf8EncodeChar
  dsimp only
  split_ifs <;> simp only [List.mem_cons, List.not_mem_nil, or_false, zero] <;> omega

/-- The bytes of a text are those of its characters in turn. -/
theorem Text.toUTF8_toList (text : String)
    : text.toUTF8.data.toList = text.toList.flatMap String.utf8EncodeChar := by
  have encoded := String.toByteArray_ofList (l := text.toList)
  rw [String.ofList_toList] at encoded
  rw [String.toUTF8_eq_toByteArray, encoded]
  simp [List.utf8Encode]

/-- Cutting the bytes at the first zero cuts the text at its first NUL, by induction on its
characters: no character before the NUL contributes a zero byte.
-/
theorem Bytes.uptoNul_eq (text : String)
    : Bytes.uptoNul text = (Text.beforeNul text).toUTF8.data.toList := by
  simp only [Bytes.uptoNul, Text.beforeNul, Text.toUTF8_toList, String.toList_ofList]
  induction text.toList with
  | nil => rfl
  | cons char rest ih =>
      by_cases nul : char = '\x00'
      · subst nul
        rfl
      · have kept : ∀ byte ∈ String.utf8EncodeChar char, (byte != 0) = true := by
          intro byte member
          have nonzero : byte ≠ 0 := by
            rintro rfl
            exact nul (Text.zero_mem_utf8EncodeChar.mp member)
          simpa using nonzero
        rw [List.flatMap_cons, List.takeWhile_append_of_pos kept, ih,
          List.takeWhile_cons_of_pos (by simpa using nul), List.flatMap_cons]

theorem Bytes.terminated_eq_uptoNul (text : Option String)
    : Bytes.terminated text = Bytes.uptoNul (text.getD "") ++ [0] := by
  cases text <;> rfl

/-- What follows the first NUL of a text is not written. -/
theorem Bytes.terminated_beforeNul (text : Option String)
    : Bytes.terminated (some (Text.beforeNul (text.getD ""))) = Bytes.terminated text := by
  rw [terminated_eq_uptoNul, terminated_eq_uptoNul, Option.getD_some, uptoNul_eq, uptoNul_eq,
    Text.beforeNul, Text.beforeNul, String.toList_ofList, List.takeWhile_idem]

/-- Where neither of two byte strings has a zero byte, their ends can be read off a zero byte that
follows, since both are what comes before the first zero byte.
-/
theorem Bytes.append_zero_inj {first second left right : Bytes}
    (clear : 0 ∉ first) (clear' : 0 ∉ second) (same : first ++ 0 :: left = second ++ 0 :: right)
    : first = second ∧ left = right := by
  have before {bytes : Bytes} (clear : 0 ∉ bytes) (rest : Bytes)
      : (bytes ++ 0 :: rest).takeWhile (fun byte => byte != 0) = bytes := by
    have kept : ∀ byte ∈ bytes, (byte != 0) = true := by
      intro byte member
      simpa using fun zero : byte = 0 => clear (zero ▸ member)
    rw [List.takeWhile_append_of_pos kept]
    simp
  have bytes : first = second := by
    rw [← before clear left, same, before clear' right]
  subst bytes
  exact ⟨rfl, (List.cons.inj (List.append_cancel_left same)).2⟩

/-- A terminated text determines the text up to its first NUL and what follows it. An absent text
counts as empty.
-/
theorem Bytes.terminated_append_inj {first second : Option String} {left right : Bytes}
    (same : Bytes.terminated first ++ left = Bytes.terminated second ++ right)
    : Text.beforeNul (first.getD "") = Text.beforeNul (second.getD "") ∧ left = right := by
  simp only [Bytes.terminated_eq_uptoNul, List.append_assoc, List.singleton_append] at same
  obtain ⟨bytes, rest⟩ := Bytes.append_zero_inj
    (Bytes.zero_not_mem_uptoNul _) (Bytes.zero_not_mem_uptoNul _) same
  refine ⟨?_, rest⟩
  simp only [Bytes.uptoNul_eq] at bytes
  exact String.toByteArray_inj.mp (ByteArray.ext (Array.toList_inj.mp bytes))

/-- The bytes of a step of time: its unit and all of its multiplier. -/
def TimeStep.bytes (step : TimeStep) : Bytes :=
  step.unit.code :: Bytes.ofUInt32 step.multiplier.toUInt32

/-- What follows the code of an element type. -/
def ElementType.payload : ElementType → Bytes
  | .structured layout => Bytes.ofUInt64 layout.word
  | .datetime step | .timedelta step => step.bytes
  | .scalar _ | .object | .string | .unicode => []

/-- The code of an element type and what follows it. -/
def ElementType.bytes (element : ElementType) : Bytes :=
  element.code :: element.payload

/-- The unit has one byte and the multiplier four, and both are kept whole. -/
theorem TimeStep.bytes_selfDelimiting : Bytes.SelfDelimiting TimeStep.bytes := by
  rintro ⟨firstUnit, firstCount⟩ ⟨secondUnit, secondCount⟩ left right same
  obtain ⟨units, counts⟩ := List.cons.inj same
  obtain ⟨count, rest⟩ := Bytes.ofUInt32_selfDelimiting counts
  obtain rfl := TimeUnit.code_inj units
  obtain rfl : firstCount = secondCount := congrArg UInt32.toInt32 count
  exact ⟨rfl, rest⟩

/-- The codes below sixteen belong to the scalar kinds. -/
theorem ScalarKind.code_lt (kind : ScalarKind) : kind.code < 16 := by
  cases kind <;> decide

/-- An element type is read off its code, which tells the payload's width. Witness: cases on both
constructors; different constructors have different codes.
-/
theorem ElementType.bytes_selfDelimiting : Bytes.SelfDelimiting ElementType.bytes := by
  intro first second left right same
  obtain ⟨codes, payloads⟩ := List.cons.inj same
  have scalar {kind : ScalarKind} {other : UInt8} (large : 16 ≤ other) : kind.code ≠ other := by
    rintro rfl
    exact absurd (ScalarKind.code_lt kind) (UInt8.not_lt.mpr large)
  cases first <;> cases second <;> dsimp only [ElementType.code] at codes
  case scalar.scalar =>
    exact ⟨congrArg ElementType.scalar (ScalarKind.code_inj codes), payloads⟩
  case structured.structured =>
    obtain ⟨words, rest⟩ := Bytes.ofUInt64_selfDelimiting payloads
    exact ⟨congrArg (fun word => ElementType.structured ⟨word⟩) words, rest⟩
  case datetime.datetime =>
    obtain ⟨rfl, rest⟩ := TimeStep.bytes_selfDelimiting payloads
    exact ⟨rfl, rest⟩
  case timedelta.timedelta =>
    obtain ⟨rfl, rest⟩ := TimeStep.bytes_selfDelimiting payloads
    exact ⟨rfl, rest⟩
  all_goals first
  | exact ⟨rfl, payloads⟩
  | exact absurd codes (by decide)
  | exact absurd codes (scalar (by decide))
  | exact absurd codes.symm (scalar (by decide))

end Typecodes
