import Typecodes.Proofs.Outline

/-! Fingerprints can be decoded uniquely: what follows a fingerprint never blurs where it ends or
what it stands for. Equal bytes therefore mean equal normal forms, and no fingerprint goes on where
another one ends.
-/

namespace Typecodes

namespace Outline

/-- No encodable outline begins like the end of a tuple. -/
theorem tag_ne_tupleEnd {outline : Outline} (encodable : outline.encodable = true)
    : outline.tag ≠ .tupleEnd := by
  cases outline <;> first | contradiction | exact nofun

/-- Rank, layout class and access have fixed widths. -/
theorem extentBytes_append_inj {rank rank' : UInt32} {layout layout' : Layout}
    {writable writable' : Bool} {left right : Bytes}
    (same : extentBytes rank layout writable ++ left = extentBytes rank' layout' writable' ++ right)
    : rank = rank' ∧ layout = layout' ∧ writable = writable' ∧ left = right := by
  simp only [extentBytes, List.append_assoc, List.cons_append, List.nil_append] at same
  obtain ⟨ranks, same⟩ := Bytes.ofUInt32_selfDelimiting same
  obtain ⟨layouts, same⟩ := List.cons.inj same
  obtain ⟨accesses, rest⟩ := List.cons.inj same
  refine ⟨ranks, Layout.byte_inj layouts, ?_, rest⟩
  revert accesses
  cases writable <;> cases writable' <;> decide

mutual

/-- The bytes of an encodable outline, whatever follows them, determine its normal form and where
they end. Witness: induction over the first outline; equal tags leave one constructor for the
second, whose fields are read off one after the other.
-/
theorem encoding_append_inj {first second : Outline} {left right : Bytes}
    (encodable : first.encodable = true) (encodable' : second.encodable = true)
    (same : first.encoding ++ left = second.encoding ++ right)
    : first.normal = second.normal ∧ left = right := by
  simp only [encoding, List.cons_append] at same
  obtain ⟨heads, payloads⟩ := List.cons.inj same
  have tags := Fingerprint.Tag.byte_inj heads
  cases first with
  | none | bool | int | float | complex | bytes | byteArray =>
      cases second <;> first | exact ⟨rfl, payloads⟩ | cases tags
  | tuple items =>
      cases second with
      | tuple items' =>
          simp only [payload, List.append_assoc, List.singleton_append] at payloads
          obtain ⟨forms, rest⟩ := encodings_append_inj encodable encodable' payloads
          exact ⟨congrArg tuple forms, rest⟩
      | _ => cases tags
  | scalar element =>
      cases second with
      | scalar element' =>
          obtain ⟨elements, rest⟩ := ElementType.bytes_selfDelimiting payloads
          exact ⟨congrArg scalar elements, rest⟩
      | _ => cases tags
  | array rank layout writable element =>
      cases second with
      | array rank' layout' writable' element' =>
          simp only [payload, List.append_assoc] at payloads
          obtain ⟨rfl, rfl, rfl, elements⟩ := extentBytes_append_inj payloads
          obtain ⟨rfl, rest⟩ := ElementType.bytes_selfDelimiting elements
          exact ⟨rfl, rest⟩
      | _ => cases tags
  | buffer rank layout readOnly format runtimeType =>
      cases second with
      | buffer rank' layout' readOnly' format' runtimeType' =>
          simp only [payload, List.append_assoc] at payloads
          obtain ⟨rfl, rfl, accesses, texts⟩ := extentBytes_append_inj payloads
          obtain ⟨formats, identities⟩ := Bytes.terminated_append_inj texts
          obtain ⟨words, rest⟩ := Bytes.ofUInt64_selfDelimiting identities
          obtain rfl := Bool.not_inj accesses
          obtain rfl : runtimeType = runtimeType' := congrArg Identity.mk words
          exact ⟨by rw [normal, normal, formats], rest⟩
      | _ => cases tags
  | descriptor element =>
      cases second with
      | descriptor element' =>
          obtain ⟨elements, rest⟩ := ElementType.bytes_selfDelimiting payloads
          exact ⟨congrArg descriptor elements, rest⟩
      | _ => cases tags
  | foreign runtimeType => cases encodable

/-- The items of a tuple are read off up to its end mark, with which no item begins. -/
theorem encodings_append_inj {first second : List Outline} {left right : Bytes}
    (encodable : allEncodable first = true) (encodable' : allEncodable second = true)
    (same : encodings first ++ Fingerprint.Tag.tupleEnd.byte :: left
      = encodings second ++ Fingerprint.Tag.tupleEnd.byte :: right)
    : normals first = normals second ∧ left = right := by
  cases first with
  | nil =>
      cases second with
      | nil => exact ⟨rfl, (List.cons.inj same).2⟩
      | cons item rest =>
          have tags := Fingerprint.Tag.byte_inj (List.cons.inj same).1
          exact absurd tags.symm (tag_ne_tupleEnd (Bool.and_eq_true_iff.mp encodable').1)
  | cons item rest =>
      cases second with
      | nil =>
          have tags := Fingerprint.Tag.byte_inj (List.cons.inj same).1
          exact absurd tags (tag_ne_tupleEnd (Bool.and_eq_true_iff.mp encodable).1)
      | cons item' rest' =>
          obtain ⟨head, tail⟩ := Bool.and_eq_true_iff.mp encodable
          obtain ⟨head', tail'⟩ := Bool.and_eq_true_iff.mp encodable'
          simp only [encodings_cons, List.append_assoc] at same
          obtain ⟨form, others⟩ := encoding_append_inj head head' same
          obtain ⟨forms, ends⟩ := encodings_append_inj tail tail' others
          exact ⟨by rw [normals, normals, form, forms], ends⟩

end

/-- Equal bytes of encodable outlines mean equal normal forms. -/
theorem encoding_inj {first second : Outline} (encodable : first.encodable = true)
    (encodable' : second.encodable = true) (same : first.encoding = second.encoding)
    : first.normal = second.normal :=
  (encoding_append_inj encodable encodable' (congrArg (· ++ []) same)).1

mutual

/-- An outline and its normal form have the same bytes, by induction over the outline. -/
theorem encoding_normal (outline : Outline) : outline.normal.encoding = outline.encoding := by
  cases outline with
  | tuple items => simp only [normal, encoding, payload, tag, encodings_normals items]
  | buffer rank layout readOnly format runtimeType =>
      simp only [normal, encoding, payload, tag, Bytes.terminated_beforeNul]
  | _ => rfl

theorem encodings_normals (items : List Outline)
    : encodings (normals items) = encodings items := by
  cases items with
  | nil => rfl
  | cons item rest =>
      rw [normals, encodings_cons, encodings_cons, encoding_normal item, encodings_normals rest]

end

/-- Encodable outlines have the same bytes exactly if they have the same normal form, and then the
same bytes follow in equal byte strings.
-/
theorem encoding_append_eq_iff {first second : Outline} {left right : Bytes}
    (encodable : first.encodable = true) (encodable' : second.encodable = true)
    : first.encoding ++ left = second.encoding ++ right
      ↔ first.normal = second.normal ∧ left = right := by
  constructor
  · exact encoding_append_inj encodable encodable'
  · rintro ⟨forms, rfl⟩
    rw [← encoding_normal first, forms, encoding_normal second]

end Outline

-----------------------------------------------------------------------------------------
-- Fingerprints of shapes
-----------------------------------------------------------------------------------------

namespace Shape

/-- The normal form of a shape, on views asked for in the same way as for its fingerprint. -/
def normalForm (value : Shape) : Run Unit Outline := do
  return (← value.outline).normal

/-- A shape with a fingerprint has a normal form, on the very same views, and it is the normal form
of an encodable outline with these bytes.
-/
theorem normalForm_of_fingerprint {σ : Type} {value : Shape} {state after : Hosted σ}
    {bytes : Bytes} (encodes : value.fingerprint.run state = (.ok bytes, after))
    : ∃ outline : Outline,
        value.normalForm.run ⟨(), state.host⟩ = (.ok outline.normal, ⟨(), after.host⟩)
        ∧ outline.encodable = true
        ∧ bytes = outline.encoding := by
  obtain ⟨outline, views, encodable, same, -⟩ := fingerprint_eq_ok encodes
  exact ⟨outline, Run.run_bind_ok _ views, encodable, same⟩

/-- Fingerprints are uniquely decodable, and injective up to the normal form of shapes. Each of two
shapes that have fingerprints has a normal form, on the very views that the fingerprint was computed
from. Followed by any bytes, the fingerprints agree exactly if the normal forms are the same and the
same bytes follow; so equal fingerprints mean equal normal forms, and no fingerprint is a proper
prefix of another.
-/
theorem fingerprint_append_eq_iff {σ τ : Type} {first second : Shape} {start finish : Hosted σ}
    {start' finish' : Hosted τ} {bytes bytes' : Bytes}
    (encodes : first.fingerprint.run start = (.ok bytes, finish))
    (encodes' : second.fingerprint.run start' = (.ok bytes', finish'))
    : ∃ form form',
        first.normalForm.run ⟨(), start.host⟩ = (.ok form, ⟨(), finish.host⟩)
        ∧ second.normalForm.run ⟨(), start'.host⟩ = (.ok form', ⟨(), finish'.host⟩)
        ∧ (∀ left right, bytes ++ left = bytes' ++ right ↔ form = form' ∧ left = right)
        ∧ (bytes = bytes' ↔ form = form')
        ∧ (bytes <+: bytes' → bytes = bytes') := by
  obtain ⟨outline, views, encodable, rfl⟩ := normalForm_of_fingerprint encodes
  obtain ⟨outline', views', encodable', rfl⟩ := normalForm_of_fingerprint encodes'
  have decoded (left right : Bytes)
      : outline.encoding ++ left = outline'.encoding ++ right
        ↔ outline.normal = outline'.normal ∧ left = right :=
    Outline.encoding_append_eq_iff encodable encodable'
  have same : outline.encoding = outline'.encoding ↔ outline.normal = outline'.normal := by
    have whole := decoded [] []
    simpa only [List.append_nil, and_true] using whole
  refine ⟨outline.normal, outline'.normal, views, views', decoded, same, ?_⟩
  rintro ⟨rest, extended⟩
  refine same.mpr ((decoded rest []).mp ?_).1
  rw [extended, List.append_nil]

/-- Two pairs whose buffers differ in a redundant contiguity flag and behind a NUL of the item
format: their fingerprints are the same, and so are their normal forms.
-/
theorem fingerprint_append_eq_iff_pairs
    : let first : Shape :=
        .tuple [.int, .buffer (.scripted 0 ⟨9⟩ [.ok ⟨3, ⟨1⟩, false, some "d\x00x"⟩] [])]
      let second : Shape :=
        .tuple [.int, .buffer (.scripted 1 ⟨9⟩ [.ok ⟨3, ⟨3⟩, false, some "d"⟩] [])]
      let start : Hosted Unit := ⟨(), .fresh⟩
      let bytes : Bytes :=
        [40, 105, 66, 3, 0, 0, 0, 67, 87, 100, 0, 9, 0, 0, 0, 0, 0, 0, 0, 41]
      (first.fingerprint.run start).1 = .ok bytes
      ∧ (second.fingerprint.run start).1 = .ok bytes
      ∧ ∃ form,
          (first.normalForm.run start).1 = .ok form
          ∧ (second.normalForm.run start).1 = .ok form := by
  intro first second start bytes
  have encodes : (first.fingerprint.run start).1 = .ok bytes := by decide +kernel
  have encodes' : (second.fingerprint.run start).1 = .ok bytes := by decide +kernel
  obtain ⟨form, form', views, views', -, forms, -⟩ :=
    fingerprint_append_eq_iff (Run.run_of_outcome encodes) (Run.run_of_outcome encodes')
  obtain rfl := forms.mp rfl
  exact ⟨encodes, encodes', form, congrArg Prod.fst views, congrArg Prod.fst views'⟩

end Shape

end Typecodes
