import Typecodes.Proofs.ShortMemory

/-! What a failed encoding leaves behind. Such bytes break off in the middle of a fingerprint, at
whatever write the encoding stopped and for whatever reason, and as no fingerprint goes on where
another one ends, they are none themselves. Tables have codes under fingerprints only, so the bytes
are never found there.
-/

namespace Typecodes

/-- What holds of bytes that are no fingerprint. -/
structure Bytes.NeverFound (bytes : Bytes) : Prop where
  /-- No value has the bytes for its fingerprint, whatever its buffers reply. -/
  unprinted
    : ∀ {σ : Type} (value : Shape) (state : Hosted σ),
        (value.fingerprint.run state).1 ≠ .ok bytes
  /-- At no moment of any run from a new fingerprint table on are the bytes found there, whatever
  the resolvers answer and however they fail or have the table classify further values.
  -/
  table
    : ∀ {ω : Type} (logger : Logger) (programs : List (Procedure ω)) (resolver : ω) (host : Host),
        ∀ table ∈ Layer.statesOf logger programs ⟨(FingerprintTable.empty, resolver), host⟩,
          table.Lacks bytes
  /-- Nor are they ever found in the table of a new dispatcher. -/
  dispatcher
    : ∀ {ω : Type} (logger : Logger) (elementary : ElementaryCodes) (programs : List (Procedure ω))
        (resolver : ω) (host : Host),
        ∀ dispatcher ∈ Layer.statesOf logger programs
          ⟨(Dispatcher.ofCodes elementary, resolver), host⟩,
          dispatcher.table.Lacks bytes
  /-- All this holds as well where memory may be refused, at any requests: of fingerprints, -/
  unprintedShort
    : ∀ {σ : Type} (value : Shape) (state : Hosted (Rationed σ)),
        ((Rationed.fingerprint value).run state).1 ≠ .ok bytes
  /-- of tables, -/
  tableShort
    : ∀ {ω : Type} (logger : Logger) (grants : Nat → Bool) (programs : List (Procedure ω))
        (resolver : ω) (host : Host),
        ∀ state ∈ Layer.statesOf logger programs
          ⟨(Rationed.mk FingerprintTable.empty grants, resolver), host⟩,
          state.own.Lacks bytes
  /-- and of dispatchers. -/
  dispatcherShort
    : ∀ {ω : Type} (logger : Logger) (elementary : ElementaryCodes) (grants : Nat → Bool)
        (programs : List (Procedure ω)) (resolver : ω) (host : Host),
        ∀ state ∈ Layer.statesOf logger programs
          ⟨(Rationed.mk (Dispatcher.ofCodes elementary) grants, resolver), host⟩,
          state.own.table.Lacks bytes

/-- Bytes that are the text of no outline are found nowhere. -/
theorem Bytes.neverFound {bytes : Bytes} (foreign : bytes ∉ Outline.texts) : bytes.NeverFound where
  unprinted _ _ printed := foreign (Shape.fingerprint_mem_texts printed)
  table logger programs _ _ table member :=
    ((FingerprintTable.maintains_printed logger).statesOf programs FingerprintTable.printed_empty
      table member).lacks foreign
  dispatcher logger _ programs _ _ dispatcher member :=
    ((Dispatcher.maintains_printed logger).statesOf programs FingerprintTable.printed_empty
      dispatcher member).lacks foreign
  unprintedShort value state printed := by
    have kept := @Rationed.fingerprint_keeps _ (fun _ => True) value state trivial
    exact foreign (kept.2 bytes printed)
  tableShort logger _ programs _ _ state member :=
    ((Rationed.table_maintains_printed logger).statesOf programs FingerprintTable.printed_empty
      state member).lacks foreign
  dispatcherShort logger _ _ programs _ _ state member :=
    ((Rationed.dispatcher_maintains_printed logger).statesOf programs
      FingerprintTable.printed_empty state member).lacks foreign

/-- What a shape that fails to be written leaves behind where nothing was written before. -/
structure Shape.NeverMistaken (value : Shape) : Prop where
  /-- Whatever is used to write and may stop at any write, the bytes are found nowhere. -/
  anyMeans
    : ∀ {σ : Type} {content : σ → Bytes} {write : Bytes → Run σ Unit} {start after : Hosted σ}
        {ending : Stop},
        WholeOrNothing content write
        → content start.own = []
        → (value.encodeTo write).run start = (.error ending, after)
        → (content after.own).NeverFound
  /-- This is so for writers in particular, which take all bytes. -/
  writer
    : ∀ {start after : Hosted Writer} {ending : Stop},
        start.own.bytes = #[]
        → (Writer.put value).run start = (.error ending, after)
        → Bytes.NeverFound after.own.bytes.toList

namespace Writer

/-- A partial encoding is never mistaken for a fingerprint. Where a shape fails to be written, at
whatever depth and for whatever reason, be it a leaf without a fingerprint, a buffer that grants no
view or a write that is refused, the bytes that it leaves are no value's fingerprint and are found
in no table.
-/
theorem partial_never_found (value : Shape) : value.NeverMistaken where
  anyMeans means blank stopped :=
    Bytes.neverFound (Shape.not_mem_texts_of_stopped means blank stopped)
  writer := by
    intro start after ending blank stopped
    rw [put_eq_encodeTo] at stopped
    refine Bytes.neverFound (Shape.not_mem_texts_of_stopped append_wholeOrNothing ?_ stopped)
    rw [blank]

/-- An array of objects inside two tuples: the bytes end in the middle of the inner tuple, right
before the element type that has none. In a longer tuple the room for an array's rank is refused,
and the bytes end right after the array's tag.
-/
theorem partial_never_found_nested
    : let array : Shape := .array ⟨2, ⟨1⟩, true, .object⟩
      let value : Shape := .tuple [.int, .tuple [.none, array], .foreign ⟨7⟩]
      let start : Hosted Writer := ⟨.empty, .fresh⟩
      let bytes : Bytes := [40, 105, 40, 110, 65, 2, 0, 0, 0, 67, 87]
      let long : Shape :=
        .tuple (List.replicate 35 .int ++ [.array ⟨1, ⟨1⟩, true, .scalar .float64⟩])
      let short : Hosted (Rationed Writer) := ⟨⟨.empty, fun later => later < 37⟩, .fresh⟩
      let begun : Bytes := 40 :: List.replicate 35 105 ++ [65]
      ((put value).run start).1 = .error (.failure (.unrecognized "dtype"))
      ∧ ((put value).run start).2.own.bytes.toList = bytes
      ∧ bytes.NeverFound
      ∧ ((long.encodeTo Rationed.append).run short).1
        = .error (.failure (.outOfMemory "growing a fingerprint buffer"))
      ∧ ((long.encodeTo Rationed.append).run short).2.own.own.bytes.toList = begun
      ∧ begun.NeverFound := by
  intro array value start bytes long short begun
  have stopped : ((put value).run start).1 = .error (.failure (.unrecognized "dtype")) := rfl
  have left : ((put value).run start).2.own.bytes.toList = bytes := rfl
  have refused : ((long.encodeTo Rationed.append).run short).1
      = .error (.failure (.outOfMemory "growing a fingerprint buffer")) := by decide +kernel
  have filled : ((long.encodeTo Rationed.append).run short).2.own.own.bytes.toList = begun := by
    decide +kernel
  have never := (partial_never_found value).writer rfl (Run.run_of_outcome stopped)
  have neverShort := (partial_never_found long).anyMeans Rationed.append_wholeOrNothing rfl
    (Run.run_of_outcome refused)
  exact ⟨stopped, left, left ▸ never, refused, filled, filled ▸ neverShort⟩

end Writer

end Typecodes
