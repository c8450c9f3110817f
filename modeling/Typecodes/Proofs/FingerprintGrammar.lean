import Typecodes.Proofs.Outline

/-! The grammar of fingerprints. A byte string is the fingerprint of some value exactly if it can be
derived from the grammar: nothing malformed is ever written, and every derivable string stands for a
value. The grammar knows nothing of shapes; it speaks of letters, widths and texts.
-/

namespace Typecodes

namespace Fingerprint.Grammar

/-- The bytes of an element type: the code of a kind of numbers, a code and the identity of a record
layout, or a code, a unit of time and a multiplier.
-/
inductive Element : Bytes → Prop
  | number {code : UInt8} (numeric : code < 16) : Element [code]
  | record {identity : Bytes} (width : identity.length = 8) : Element (19 :: identity)
  | time {code unit : UInt8} {multiplier : Bytes} (temporal : code = 20 ∨ code = 21)
    (known : unit ≤ 14 ∧ unit ≠ 3) (width : multiplier.length = 4)
    : Element (code :: unit :: multiplier)

/-- The bytes of rank, layout class and access. -/
inductive Extent : Bytes → Prop
  | mk {rank : Bytes} {layout access : Char} (width : rank.length = 4)
    (ordered : layout ∈ ['C', 'F', 'A']) (accessible : access ∈ ['W', 'R'])
    : Extent (rank ++ [layout.toUInt8, access.toUInt8])

/-- The byte strings that the grammar derives. -/
inductive Derivable : Bytes → Prop
  | atom (tag : Char) (known : tag ∈ ['n', '?', 'i', 'f', 'c', 'b', 'a']) : Derivable [tag.toUInt8]
  | tuple {items : List Bytes} (derived : ∀ item ∈ items, Derivable item)
    : Derivable ('('.toUInt8 :: (items.flatten ++ [')'.toUInt8]))
  | array {extent element : Bytes} (extended : Extent extent) (typed : Element element)
    : Derivable ('A'.toUInt8 :: (extent ++ element))
  | scalar {element : Bytes} (typed : Element element) : Derivable ('S'.toUInt8 :: element)
  | descriptor {element : Bytes} (typed : Element element) : Derivable ('D'.toUInt8 :: element)
  | buffer {extent format identity : Bytes} (extended : Extent extent)
    (text : ByteArray.IsValidUTF8 ⟨⟨format⟩⟩) (clear : 0 ∉ format) (width : identity.length = 8)
    : Derivable ('B'.toUInt8 :: (extent ++ (format ++ 0 :: identity)))

end Fingerprint.Grammar

-----------------------------------------------------------------------------------------
-- The fields of the grammar
-----------------------------------------------------------------------------------------

namespace Bytes

/-- Four bytes are the digits of a number in base 256. -/
theorem exists_ofUInt32 {bytes : Bytes} (width : bytes.length = 4)
    : ∃ value, ofUInt32 value = bytes := by
  match bytes, width with
  | [a, b, c, d], _ =>
      refine ⟨UInt32.ofNat (a.toNat + 2 ^ 8 * b.toNat + 2 ^ 16 * c.toNat + 2 ^ 24 * d.toNat), ?_⟩
      have := a.toNat_lt
      have := b.toNat_lt
      have := c.toNat_lt
      have := d.toNat_lt
      simp only [ofUInt32, List.cons.injEq, ← UInt8.toNat_inj, UInt32.toNat_toUInt8,
        UInt32.toNat_shiftRight, Nat.shiftRight_eq_div_pow, UInt32.reduceToNat, Nat.reduceMod,
        Nat.reducePow, UInt32.toNat_ofNat', and_true]
      omega

/-- Eight bytes are the digits of a word in base 256. -/
theorem exists_ofUInt64 {bytes : Bytes} (width : bytes.length = 8)
    : ∃ value, ofUInt64 value = bytes := by
  match bytes, width with
  | [a, b, c, d, e, f, g, h], _ =>
      refine ⟨UInt64.ofNat (a.toNat + 2 ^ 8 * b.toNat + 2 ^ 16 * c.toNat + 2 ^ 24 * d.toNat
        + 2 ^ 32 * e.toNat + 2 ^ 40 * f.toNat + 2 ^ 48 * g.toNat + 2 ^ 56 * h.toNat), ?_⟩
      have := a.toNat_lt
      have := b.toNat_lt
      have := c.toNat_lt
      have := d.toNat_lt
      have := e.toNat_lt
      have := f.toNat_lt
      have := g.toNat_lt
      have := h.toNat_lt
      simp only [ofUInt64, List.cons.injEq, ← UInt8.toNat_inj, UInt64.toNat_toUInt8,
        UInt64.toNat_shiftRight, Nat.shiftRight_eq_div_pow, UInt64.reduceToNat, Nat.reduceMod,
        Nat.reducePow, UInt64.toNat_ofNat', and_true]
      omega

/-- What is written for a text is a text without NUL and a zero byte. -/
theorem terminated_eq (text : Option String)
    : ∃ format : Bytes,
        terminated text = format ++ [0] ∧ ByteArray.IsValidUTF8 ⟨⟨format⟩⟩ ∧ 0 ∉ format := by
  refine ⟨uptoNul (text.getD ""), terminated_eq_uptoNul text, ?_, zero_not_mem_uptoNul _⟩
  rw [uptoNul_eq]
  exact (Text.beforeNul (text.getD "")).isValidUTF8

/-- A text without NUL is written whole. -/
theorem exists_terminated {format : Bytes} (text : ByteArray.IsValidUTF8 ⟨⟨format⟩⟩)
    (clear : 0 ∉ format)
    : ∃ written, terminated (some written) = format ++ [0] := by
  refine ⟨.ofByteArray ⟨⟨format⟩⟩ text, congrArg (· ++ [0]) ?_⟩
  refine List.takeWhile_eq_self_iff.mpr ?_
  intro byte member
  simpa using fun zero : byte = 0 => clear (zero ▸ member)

end Bytes

/-- The codes below sixteen are those of the scalar kinds. -/
theorem ScalarKind.exists_code {code : UInt8} (numeric : code < 16)
    : ∃ kind : ScalarKind, kind.code = code := by
  have table : ∀ number : Fin 16, ∃ kind ∈ ScalarKind.all, kind.code.toNat = number.val := by
    decide
  obtain ⟨kind, -, same⟩ := table ⟨code.toNat, UInt8.lt_iff_toNat_lt.mp numeric⟩
  exact ⟨kind, UInt8.toNat_inj.mp same⟩

namespace TimeUnit

/-- The codes up to fourteen, without three, are those of the units. -/
theorem exists_code {code : UInt8} (known : code ≤ 14 ∧ code ≠ 3)
    : ∃ unit : TimeUnit, unit.code = code := by
  have table
      : ∀ number : Fin 15,
          number.val ≠ 3 → ∃ unit ∈ TimeUnit.all, unit.code.toNat = number.val := by
    decide
  have bound : code.toNat < 15 := Nat.lt_succ_of_le (UInt8.le_iff_toNat_le.mp known.1)
  have different : code.toNat ≠ 3 := fun same => known.2 (UInt8.toNat_inj.mp same)
  obtain ⟨unit, -, same⟩ := table ⟨code.toNat, bound⟩ different
  exact ⟨unit, UInt8.toNat_inj.mp same⟩

theorem code_known (unit : TimeUnit) : unit.code ≤ 14 ∧ unit.code ≠ 3 := by
  cases unit <;> decide

end TimeUnit

namespace ElementType

open Fingerprint.Grammar

/-- An element type with a fingerprint is written as one of the grammar. -/
theorem element_bytes {element : ElementType} (encodable : element.encodable = true)
    : Element element.bytes := by
  cases element with
  | scalar kind => exact .number kind.code_lt
  | structured layout => exact .record (Bytes.length_ofUInt64 _)
  | datetime step => exact .time (.inl rfl) step.unit.code_known (Bytes.length_ofUInt32 _)
  | timedelta step => exact .time (.inr rfl) step.unit.code_known (Bytes.length_ofUInt32 _)
  | object | string | unicode => cases encodable

/-- Every element type of the grammar is written for one with a fingerprint. -/
theorem exists_bytes {bytes : Bytes} (derived : Element bytes)
    : ∃ element : ElementType, element.encodable = true ∧ element.bytes = bytes := by
  cases derived with
  | number numeric =>
      obtain ⟨kind, rfl⟩ := ScalarKind.exists_code numeric
      exact ⟨.scalar kind, rfl, rfl⟩
  | record width =>
      obtain ⟨word, rfl⟩ := Bytes.exists_ofUInt64 width
      exact ⟨.structured ⟨word⟩, rfl, rfl⟩
  | time temporal known width =>
      obtain ⟨unit, rfl⟩ := TimeUnit.exists_code known
      obtain ⟨multiplier, rfl⟩ := Bytes.exists_ofUInt32 width
      rcases temporal with rfl | rfl
      · exact ⟨.datetime ⟨unit, multiplier.toInt32⟩, rfl, rfl⟩
      · exact ⟨.timedelta ⟨unit, multiplier.toInt32⟩, rfl, rfl⟩

end ElementType

namespace Outline

open Fingerprint.Grammar

theorem extent_bytes (rank : UInt32) (layout : Layout) (writable : Bool)
    : Extent (extentBytes rank layout writable) := by
  have ordered : ∃ letter ∈ ['C', 'F', 'A'], letter.toUInt8 = layout.byte := by
    cases layout with
    | rowMajor => exact ⟨'C', by simp, rfl⟩
    | columnMajor => exact ⟨'F', by simp, rfl⟩
    | any => exact ⟨'A', by simp, rfl⟩
  have accessible : ∃ letter ∈ ['W', 'R'], letter.toUInt8 = Fingerprint.accessByte writable := by
    cases writable with
    | true => exact ⟨'W', by simp, rfl⟩
    | false => exact ⟨'R', by simp, rfl⟩
  obtain ⟨letter, known, layouts⟩ := ordered
  obtain ⟨letter', known', accesses⟩ := accessible
  rw [extentBytes, ← layouts, ← accesses]
  exact .mk (Bytes.length_ofUInt32 rank) known known'

theorem exists_extentBytes {bytes : Bytes} (derived : Extent bytes)
    : ∃ rank layout writable, extentBytes rank layout writable = bytes := by
  obtain ⟨width, ordered, accessible⟩ := derived
  obtain ⟨rank, rfl⟩ := Bytes.exists_ofUInt32 width
  have layouts : ∀ letter ∈ ['C', 'F', 'A'], ∃ layout : Layout, layout.byte = letter.toUInt8 := by
    simp only [List.forall_mem_cons, List.not_mem_nil, false_imp_iff, implies_true, and_true]
    exact ⟨⟨.rowMajor, rfl⟩, ⟨.columnMajor, rfl⟩, ⟨.any, rfl⟩⟩
  have accesses
      : ∀ letter ∈ ['W', 'R'], ∃ writable, Fingerprint.accessByte writable = letter.toUInt8 := by
    simp only [List.forall_mem_cons, List.not_mem_nil, false_imp_iff, implies_true, and_true]
    exact ⟨⟨true, rfl⟩, ⟨false, rfl⟩⟩
  obtain ⟨layout, same⟩ := layouts _ ordered
  obtain ⟨writable, same'⟩ := accesses _ accessible
  exact ⟨rank, layout, writable, by rw [extentBytes, same, same']⟩

-----------------------------------------------------------------------------------------
-- Outlines are what the grammar derives
-----------------------------------------------------------------------------------------

mutual

/-- The bytes of an encodable outline can be derived, by induction over the outline. -/
theorem derivable_encoding {outline : Outline} (encodable : outline.encodable = true)
    : Derivable outline.encoding := by
  cases outline with
  | none => exact .atom 'n' (by decide)
  | bool => exact .atom '?' (by decide)
  | int => exact .atom 'i' (by decide)
  | float => exact .atom 'f' (by decide)
  | complex => exact .atom 'c' (by decide)
  | bytes => exact .atom 'b' (by decide)
  | byteArray => exact .atom 'a' (by decide)
  | tuple items =>
      obtain ⟨parts, derived, same⟩ := derivable_encodings encodable
      rw [encoding, payload, ← same]
      exact .tuple derived
  | scalar element => exact .scalar (ElementType.element_bytes encodable)
  | descriptor element => exact .descriptor (ElementType.element_bytes encodable)
  | array rank layout writable element =>
      exact .array (extent_bytes rank layout writable) (ElementType.element_bytes encodable)
  | buffer rank layout readOnly format runtimeType =>
      obtain ⟨text, same, valid, clear⟩ := Bytes.terminated_eq format
      rw [encoding, payload, same, List.append_assoc, List.singleton_append]
      exact .buffer (extent_bytes rank layout _) valid clear (Bytes.length_ofUInt64 _)
  | foreign runtimeType => cases encodable

/-- The bytes of encodable outlines in a row are derivable parts. -/
theorem derivable_encodings {items : List Outline} (encodable : allEncodable items = true)
    : ∃ parts : List Bytes, (∀ part ∈ parts, Derivable part) ∧ parts.flatten = encodings items := by
  cases items with
  | nil => exact ⟨[], nofun, rfl⟩
  | cons item rest =>
      obtain ⟨here, there⟩ := Bool.and_eq_true_iff.mp encodable
      obtain ⟨parts, derived, same⟩ := derivable_encodings there
      refine ⟨item.encoding :: parts, ?_, ?_⟩
      · exact List.forall_mem_cons.mpr ⟨derivable_encoding here, derived⟩
      · rw [List.flatten_cons, same, encodings_cons]

end

/-- Parts that are bytes of encodable outlines make up the bytes of outlines in a row. -/
theorem exists_encodings {parts : List Bytes}
    (known
      : ∀ part ∈ parts, ∃ outline : Outline,
          outline.encodable = true ∧ outline.encoding = part)
    : ∃ items, allEncodable items = true ∧ encodings items = parts.flatten := by
  induction parts with
  | nil => exact ⟨[], rfl, rfl⟩
  | cons part rest ih =>
      obtain ⟨⟨outline, here, rfl⟩, others⟩ := List.forall_mem_cons.mp known
      obtain ⟨items, there, same⟩ := ih others
      refine ⟨outline :: items, ?_, ?_⟩
      · exact Bool.and_eq_true_iff.mpr ⟨here, there⟩
      · rw [encodings_cons, same, List.flatten_cons]

/-- Every derivable byte string is that of an encodable outline, by induction over the derivation.
-/
theorem exists_encoding {bytes : Bytes} (derived : Derivable bytes)
    : ∃ outline : Outline, outline.encodable = true ∧ outline.encoding = bytes := by
  induction derived with
  | atom tag known =>
      simp only [List.mem_cons, List.not_mem_nil, or_false] at known
      rcases known with rfl | rfl | rfl | rfl | rfl | rfl | rfl
      · exact ⟨.none, rfl, rfl⟩
      · exact ⟨.bool, rfl, rfl⟩
      · exact ⟨.int, rfl, rfl⟩
      · exact ⟨.float, rfl, rfl⟩
      · exact ⟨.complex, rfl, rfl⟩
      · exact ⟨.bytes, rfl, rfl⟩
      · exact ⟨.byteArray, rfl, rfl⟩
  | tuple derived ih =>
      obtain ⟨items, encodable, same⟩ := exists_encodings ih
      exact ⟨.tuple items, encodable, by rw [encoding, payload, same]; rfl⟩
  | array extended typed =>
      obtain ⟨rank, layout, writable, rfl⟩ := exists_extentBytes extended
      obtain ⟨element, encodable, rfl⟩ := ElementType.exists_bytes typed
      exact ⟨.array rank layout writable element, encodable, rfl⟩
  | scalar typed =>
      obtain ⟨element, encodable, rfl⟩ := ElementType.exists_bytes typed
      exact ⟨.scalar element, encodable, rfl⟩
  | descriptor typed =>
      obtain ⟨element, encodable, rfl⟩ := ElementType.exists_bytes typed
      exact ⟨.descriptor element, encodable, rfl⟩
  | buffer extended text clear width =>
      obtain ⟨rank, layout, writable, rfl⟩ := exists_extentBytes extended
      obtain ⟨format, same⟩ := Bytes.exists_terminated text clear
      obtain ⟨word, rfl⟩ := Bytes.exists_ofUInt64 width
      refine ⟨.buffer rank layout (!writable) (some format) ⟨word⟩, rfl, ?_⟩
      rw [encoding, payload, same, Bool.not_not, List.append_assoc, List.singleton_append]
      rfl

-----------------------------------------------------------------------------------------
-- Outlines are what values show
-----------------------------------------------------------------------------------------

mutual

/-- Every outline is that of a value, whatever happened to exporters before, by induction over the
outline. A buffer is shown by an exporter that grants the same view each time.
-/
theorem exists_shape (outline : Outline)
    : ∃ value : Shape, ∀ host, ∃ after,
        value.outline.run ⟨(), host⟩ = (.ok outline, ⟨(), after⟩) := by
  cases outline with
  | none => exact ⟨.none, fun host => ⟨host, rfl⟩⟩
  | bool => exact ⟨.bool, fun host => ⟨host, rfl⟩⟩
  | int => exact ⟨.int, fun host => ⟨host, rfl⟩⟩
  | float => exact ⟨.float, fun host => ⟨host, rfl⟩⟩
  | complex => exact ⟨.complex, fun host => ⟨host, rfl⟩⟩
  | bytes => exact ⟨.bytes, fun host => ⟨host, rfl⟩⟩
  | byteArray => exact ⟨.byteArray, fun host => ⟨host, rfl⟩⟩
  | tuple items =>
      obtain ⟨values, shown⟩ := exists_shapes items
      refine ⟨.tuple values, fun host => ?_⟩
      obtain ⟨after, views⟩ := shown host
      exact ⟨after, Run.run_bind_ok _ views⟩
  | scalar element => exact ⟨.scalar element, fun host => ⟨host, rfl⟩⟩
  | descriptor element => exact ⟨.descriptor element, fun host => ⟨host, rfl⟩⟩
  | foreign runtimeType => exact ⟨.foreign runtimeType, fun host => ⟨host, rfl⟩⟩
  | array rank layout writable element =>
      obtain ⟨contiguity, rfl⟩ := layout.exists_contiguity
      exact ⟨.array ⟨rank, contiguity, writable, element⟩, fun host => ⟨host, rfl⟩⟩
  | buffer rank layout readOnly format runtimeType =>
      obtain ⟨contiguity, rfl⟩ := layout.exists_contiguity
      let view : View := ⟨rank, contiguity, readOnly, format⟩
      exact ⟨.buffer ⟨0, runtimeType, fun _ _ => .ok view⟩, fun host => ⟨_, rfl⟩⟩

theorem exists_shapes (items : List Outline)
    : ∃ values : List Shape, ∀ host, ∃ after,
        (Shape.outlines values).run ⟨(), host⟩ = (.ok items, ⟨(), after⟩) := by
  cases items with
  | nil => exact ⟨[], fun host => ⟨host, rfl⟩⟩
  | cons item rest =>
      obtain ⟨value, shown⟩ := exists_shape item
      obtain ⟨values, others⟩ := exists_shapes rest
      refine ⟨value :: values, fun host => ?_⟩
      obtain ⟨middle, views⟩ := shown host
      obtain ⟨after, more⟩ := others middle
      exact ⟨after, (Run.run_bind_ok _ views).trans (Run.run_bind_ok _ more)⟩

end

end Outline

/-- The fingerprints of values are exactly what the grammar derives. No value, whatever its buffers
reply, has a fingerprint that is not derivable, and every derivable byte string is the fingerprint
of some value.
-/
theorem Fingerprint.derivable_iff (bytes : Bytes)
    : (∃ (value : Shape) (start : Hosted Unit), (value.fingerprint.run start).1 = .ok bytes)
      ↔ Grammar.Derivable bytes := by
  constructor
  · rintro ⟨value, start, printed⟩
    obtain ⟨outline, -, encodable, rfl, -⟩ := Shape.fingerprint_eq_ok (Run.run_of_outcome printed)
    exact outline.derivable_encoding encodable
  · intro derived
    obtain ⟨outline, encodable, rfl⟩ := Outline.exists_encoding derived
    obtain ⟨value, shown⟩ := outline.exists_shape
    obtain ⟨after, views⟩ := shown .fresh
    refine ⟨value, ⟨(), .fresh⟩, ?_⟩
    rw [Shape.fingerprint_of_outline views encodable]

end Typecodes
