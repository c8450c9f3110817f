import Typecodes.Fingerprint

/-! Writing shapes by any means of writing bytes. A means may stop at any write, for want of memory
or for any other reason, and then the whole run stops there. Writers are one such means, which never
stops.
-/

namespace Typecodes

section Writing

variable {σ : Type} (write : Bytes → Run σ Unit)

/-- Writes an element type by any means. A write may stop, and then so does the whole run. -/
def ElementType.encodeTo : ElementType → Run σ Unit
  | .scalar kind => write [kind.code]
  | .structured layout => do
      write [(ElementType.structured layout).code]
      write (Bytes.ofUInt64 layout.word)
  | .datetime step => do
      write [(ElementType.datetime step).code]
      write [step.unit.code]
      write (Bytes.ofUInt32 step.multiplier.toUInt32)
  | .timedelta step => do
      write [(ElementType.timedelta step).code]
      write [step.unit.code]
      write (Bytes.ofUInt32 step.multiplier.toUInt32)
  | .object | .string | .unicode => Run.fail (.unrecognized "dtype")

namespace Shape

mutual

/-- Writes a shape by any means. A write may stop, and then so does the whole run. -/
def encodeTo : Shape → Run σ Unit
  | .none => write [Fingerprint.Tag.none.byte]
  | .bool => write [Fingerprint.Tag.bool.byte]
  | .int => write [Fingerprint.Tag.int.byte]
  | .float => write [Fingerprint.Tag.float.byte]
  | .complex => write [Fingerprint.Tag.complex.byte]
  | .bytes => write [Fingerprint.Tag.bytes.byte]
  | .byteArray => write [Fingerprint.Tag.byteArray.byte]
  | .tuple items => do
      write [Fingerprint.Tag.tupleStart.byte]
      encodeAllTo items
      write [Fingerprint.Tag.tupleEnd.byte]
  | .scalar element => do
      write [Fingerprint.Tag.scalar.byte]
      element.encodeTo write
  | .array shape => do
      write [Fingerprint.Tag.array.byte]
      write (Bytes.ofUInt32 shape.rank)
      write [shape.layout.byte]
      write [Fingerprint.accessByte shape.writable]
      shape.element.encodeTo write
  | .buffer exporter =>
      Run.withView exporter (fun _ => .unrecognized "buffer") fun view => do
        write [Fingerprint.Tag.buffer.byte]
        write (Bytes.ofUInt32 view.rank)
        write [view.layout.byte]
        write [Fingerprint.accessByte (!view.readOnly)]
        write (Bytes.terminated view.format)
        write (Bytes.ofUInt64 exporter.runtimeType.word)
  | .descriptor element => do
      write [Fingerprint.Tag.descriptor.byte]
      element.encodeTo write
  | .foreign _ => Run.fail (.unrecognized "opaque")

/-- Writes shapes one after the other. -/
def encodeAllTo : List Shape → Run σ Unit
  | [] => pure ()
  | item :: rest => do
      encodeTo item
      encodeAllTo rest

end

end Shape

end Writing

namespace Writer

/-- What a writer does is to append the bytes. -/
theorem putElementType_eq_encodeTo (element : ElementType)
    : putElementType element
      = element.encodeTo fun bytes => Run.change fun writer : Writer => writer.append bytes := by
  cases element <;> simp only [putElementType, ElementType.encodeTo, putByte, putTimeStep,
    push_eq_append, appendWord, appendUInt32]

mutual

theorem put_eq_encodeTo (value : Shape)
    : put value
      = value.encodeTo fun bytes => Run.change fun writer : Writer => writer.append bytes := by
  cases value <;> simp only [put, Shape.encodeTo, putTag, putByte, putExtent, push_eq_append,
    appendWord, appendUInt32, appendText, putElementType_eq_encodeTo, bind_assoc,
    putAll_eq_encodeAllTo]

theorem putAll_eq_encodeAllTo (items : List Shape)
    : putAll items
      = Shape.encodeAllTo (fun bytes => Run.change fun writer : Writer => writer.append bytes)
          items := by
  cases items with
  | nil => rfl
  | cons item rest =>
      rw [putAll, Shape.encodeAllTo, put_eq_encodeTo item, putAll_eq_encodeAllTo rest]

end

end Writer

end Typecodes
