import Typecodes.ArrayGrid
import Typecodes.Proofs.TableOperations
import Typecodes.Proofs.UniqueDecoding

/-! The grid as storage. Each served position stands for one fingerprint, that of the arrays whose
codes are stored there, and no other value has a fingerprint of a served position. Writing a
position changes what is read there and nowhere else.
-/

namespace Typecodes

namespace GridSlot

/-- A position of a rank from 1 to 5. -/
def Served (slot : GridSlot) : Prop :=
  slot.rank.toNat ≠ 0 ∧ slot.rank.toNat ≤ maxRank

/-- The outline of the arrays that belong at a position. -/
def outline (slot : GridSlot) : Outline :=
  .array slot.rank slot.layout true (.scalar slot.kind.scalar)

/-- The fingerprint of the arrays that belong at a position. -/
def fingerprint (slot : GridSlot) : Bytes :=
  slot.outline.encoding

theorem outline_inj {first second : GridSlot} (same : first.outline = second.outline)
    : first = second := by
  obtain ⟨rank, layout, kind⟩ := first
  obtain ⟨rank', layout', kind'⟩ := second
  simp only [outline, Outline.array.injEq, ElementType.scalar.injEq, true_and] at same
  obtain ⟨rfl, rfl, scalars⟩ := same
  have kinds : some kind = some kind' := by
    rw [← ElementaryKind.elementary?_scalar kind, scalars, ElementaryKind.elementary?_scalar]
  cases kinds
  rfl

theorem fingerprint_inj {first second : GridSlot}
    (same : first.fingerprint = second.fingerprint)
    : first = second :=
  outline_inj (Outline.encoding_inj rfl rfl same)

/-- An array belongs at a position exactly if the position is served and its outline is that of the
position.
-/
theorem ofArray?_eq_some {array : ArrayShape} {slot : GridSlot}
    : ofArray? array = some slot ↔ slot.Served ∧ array.outline = slot.outline := by
  obtain ⟨rank, contiguity, writable, element⟩ := array
  obtain ⟨rank', layout', kind'⟩ := slot
  simp only [ofArray?, Served, ArrayShape.outline, outline, Outline.array.injEq]
  constructor
  · intro belongs
    split at belongs
    · cases belongs
    · rename_i served
      obtain ⟨kind, elementary, same⟩ := Option.map_eq_some_iff.mp belongs
      cases element with
      | scalar scalar =>
          cases same
          have scalars := ElementaryKind.elementary?_eq_some.mp elementary
          simp only [not_or, Bool.not_eq_false, Nat.not_lt] at served
          exact ⟨⟨served.1, served.2.1⟩, rfl, rfl, served.2.2, congrArg ElementType.scalar scalars⟩
      | _ => cases elementary
  · rintro ⟨⟨positive, bounded⟩, rfl, rfl, rfl, rfl⟩
    have served : ¬(rank.toNat = 0 ∨ maxRank < rank.toNat ∨ true = false) := by
      simp only [Bool.true_eq_false, or_false]
      omega
    rw [if_neg served]
    simp [ElementType.elementary?, ElementaryKind.elementary?_scalar]

/-- Where a position lies, in the arithmetic of ranks, layouts and kinds. -/
theorem index?_eq_some {slot : GridSlot} {index : Fin count}
    : slot.index? = some index
      ↔ slot.rank.toNat ≠ 0
        ∧ ((slot.rank.toNat - 1) * Layout.count + slot.layout.slot) * ElementaryKind.count
            + slot.kind.index
          = index.val := by
  unfold index?
  split
  · rename_i zero
    simp [zero]
  · rename_i positive
    simp only [positive, not_false_eq_true, true_and, ne_eq]
    split
    · simp [Fin.ext_iff]
    · rename_i outside
      constructor
      · exact nofun
      · intro same
        exact absurd (same ▸ index.isLt) outside

theorem Served.index? {slot : GridSlot} (served : slot.Served)
    : ∃ index, slot.index? = some index := by
  obtain ⟨positive, bounded⟩ := served
  have layout := slot.layout.slot.isLt
  have kind := slot.kind.index.isLt
  have inGrid
      : ((slot.rank.toNat - 1) * Layout.count + slot.layout.slot) * ElementaryKind.count
          + slot.kind.index
        < count := by
    simp only [count, maxRank, Layout.count, ElementaryKind.count] at bounded layout kind ⊢
    omega
  exact ⟨⟨_, inGrid⟩, index?_eq_some.mpr ⟨positive, rfl⟩⟩

/-- No two positions lie in the same place. -/
theorem index?_inj {first second : GridSlot} {index : Fin count}
    (found : first.index? = some index) (found' : second.index? = some index)
    : first = second := by
  obtain ⟨positive, place⟩ := index?_eq_some.mp found
  obtain ⟨positive', place'⟩ := index?_eq_some.mp found'
  obtain ⟨rank, layout, kind⟩ := first
  obtain ⟨rank', layout', kind'⟩ := second
  dsimp only at place place' positive positive'
  have layouts := layout.slot.isLt
  have layouts' := layout'.slot.isLt
  have kinds := kind.index.isLt
  have kinds' := kind'.index.isLt
  simp only [Layout.count, ElementaryKind.count] at place place' layouts layouts' kinds kinds'
  have sameRank : rank = rank' := UInt32.toNat_inj.mp (by omega)
  have sameLayout : layout = layout' := Layout.slot_inj (Fin.ext (by omega))
  have sameKind : kind = kind' := ElementaryKind.index_inj (Fin.ext (by omega))
  rw [sameRank, sameLayout, sameKind]

end GridSlot

namespace Shape

/-- The position at which a value's code is stored, for the arrays that have one. -/
def slot? : Shape → Option GridSlot
  | .array shape => GridSlot.ofArray? shape
  | _ => .none

theorem served_of_slot {value : Shape} {slot : GridSlot} (belongs : value.slot? = some slot)
    : slot.Served := by
  cases value with
  | array shape => exact (GridSlot.ofArray?_eq_some.mp belongs).1
  | _ => cases belongs

/-- The value of a position has the position's fingerprint. -/
theorem fingerprint_of_slot {σ : Type} {value : Shape} {slot : GridSlot}
    (belongs : value.slot? = some slot) (state : Hosted σ)
    : value.fingerprint.run state = (.ok slot.fingerprint, state) := by
  cases value with
  | array shape =>
      obtain ⟨-, same⟩ := GridSlot.ofArray?_eq_some.mp belongs
      have elements : shape.element = .scalar slot.kind.scalar := (Outline.array.inj same).2.2.2
      rw [fingerprint_array (by rw [elements]; rfl), same]
      rfl
  | _ => cases belongs

/-- No other value has the fingerprint of a served position. -/
theorem fingerprint_ne_slot {σ : Type} {value : Shape} {state : Hosted σ} {bytes : Bytes}
    (elsewhere : value.slot? = .none) (printed : (value.fingerprint.run state).1 = .ok bytes)
    {slot : GridSlot} (served : slot.Served)
    : bytes ≠ slot.fingerprint := by
  rintro rfl
  obtain ⟨outline, views, encodable, same, -⟩ := fingerprint_eq_ok (Run.run_of_outcome printed)
  have forms : outline.normal = slot.outline.normal :=
    Outline.encoding_inj encodable rfl same.symm
  cases outline with
  | array rank layout writable element =>
      obtain ⟨shape, rfl, shown⟩ := outline_eq_array views
      have belongs := GridSlot.ofArray?_eq_some.mpr ⟨served, shown.trans forms⟩
      exact absurd (belongs.symm.trans elsewhere) nofun
  | _ => cases forms

end Shape

namespace ArrayGrid

-----------------------------------------------------------------------------------------
-- Reading and writing positions
-----------------------------------------------------------------------------------------

/-- Every word is the mark or a typecode, so no reading panics. -/
def Sound (grid : ArrayGrid) : Prop :=
  ∀ word, word ∈ grid.words → ∃ content, decode word = .ok content

/-- What is stored at a position. -/
def codeAt (grid : ArrayGrid) (slot : GridSlot) : Option Typecode :=
  (grid.get slot).toOption.join

theorem decode_eq_none {word : UInt64} : decode word = .ok none ↔ word = unset := by
  unfold decode
  split
  · rename_i marked
    simp [marked]
  · rename_i other
    cases Typecode.ofUInt32? word.toUInt32 <;> simp [other]

theorem sound_empty : empty.Sound := by
  intro word stored
  have marked := (Vector.mem_replicate.mp stored).2
  exact ⟨none, decode_eq_none.mpr marked⟩

/-- Reading a served position of a sound grid gives what is stored there. -/
theorem Sound.get {grid : ArrayGrid} (sound : grid.Sound) {slot : GridSlot}
    (served : slot.Served)
    : grid.get slot = .ok (grid.codeAt slot) := by
  obtain ⟨index, found⟩ := served.index?
  obtain ⟨content, read⟩ := sound grid.words[index] (Vector.getElem_mem index.isLt)
  have got : grid.get slot = .ok content := by rw [ArrayGrid.get, found, ← read]
  rw [codeAt, got]
  rfl

theorem codeAt_empty (slot : GridSlot) : empty.codeAt slot = none := by
  have marked (index : Fin GridSlot.count) : decode empty.words[index] = .ok none := by
    simp [empty, decode_eq_none]
  rw [codeAt, ArrayGrid.get]
  cases slot.index? with
  | none => rfl
  | some index =>
      simp only [marked index]
      rfl

/-- What a write to a served position does to the grid. -/
structure Written (grid : ArrayGrid) (slot : GridSlot) (code : Typecode) (next : ArrayGrid)
    : Prop where
  sound : grid.Sound → next.Sound
  here : next.codeAt slot = some code
  elsewhere : ∀ other, other ≠ slot → next.codeAt other = grid.codeAt other
  counted
    : grid.Sound → grid.codeAt slot = none → next.populated = grid.populated + 1

/-- A served position can be written. -/
theorem set?_eq_some (grid : ArrayGrid) {slot : GridSlot} (served : slot.Served)
    (code : Typecode)
    : ∃ next, grid.set? slot code = some next ∧ grid.Written slot code next := by
  obtain ⟨index, found⟩ := served.index?
  refine ⟨⟨grid.words.set index (UInt64.ofNat code.toNat)⟩, by rw [set?, found]; rfl, ?_⟩
  refine ⟨?_, ?_, ?_, ?_⟩
  · intro sound word stored
    have among : word ∈ grid.words.set index.val (UInt64.ofNat code.toNat) index.isLt := stored
    rcases Vector.mem_or_eq_of_mem_set among with kept | written
    · exact sound word kept
    · exact ⟨some code, by rw [written, decode_ofNat]⟩
  · simp [codeAt, ArrayGrid.get, found, decode_ofNat, Except.toOption]
  · intro other different
    rw [codeAt, codeAt, ArrayGrid.get, ArrayGrid.get]
    cases located : other.index? with
    | none => rfl
    | some place =>
        have apart : index.val ≠ place.val := by
          intro equal
          rw [← Fin.ext equal] at located
          exact different (GridSlot.index?_inj located found)
        simp only [Fin.getElem_fin]
        rw [Vector.getElem_set_ne _ _ apart]
  · intro sound vacant
    have read := sound.get served
    rw [vacant, ArrayGrid.get, found] at read
    have marked := decode_eq_none.mp read
    have stored : UInt64.ofNat code.toNat ≠ unset := by
      intro same
      have decoded := decode_ofNat code
      rw [same, decode_eq_none.mpr rfl] at decoded
      cases decoded
    have bound : index.val < grid.words.toList.length := by simp
    have here : grid.words.toList[index.val] = unset := by simpa using marked
    simp only [populated, Vector.toList_set]
    rw [List.countP_set bound, here]
    simp [stored]

/-- Looking an array up at its position reads the position. -/
theorem probe_of_slot {value : Shape} {slot : GridSlot} (belongs : value.slot? = some slot)
    (state : Hosted ArrayGrid) (sound : state.own.Sound)
    : (probe value).run state
      = (.ok
          (match state.own.codeAt slot with
          | some code => .known code
          | none => .missing slot),
        state) := by
  cases value with
  | array shape =>
      have found : GridSlot.ofArray? shape = some slot := belongs
      have served := (GridSlot.ofArray?_eq_some.mp found).1
      simp only [probe, found, lookup, bind_assoc, Run.run_bind, Run.run_own, sound.get served,
        Run.ofExcept, Run.run_pure]
      cases state.own.codeAt slot <;> rfl
  | _ => cases belongs

/-- Other values are passed on. -/
theorem probe_elsewhere {value : Shape} (elsewhere : value.slot? = none)
    (state : Hosted ArrayGrid)
    : (probe value).run state = (.ok .unserved, state) := by
  cases value with
  | array shape =>
      have missing : GridSlot.ofArray? shape = none := elsewhere
      simp only [probe, missing, Run.run_pure]
  | _ => rfl

/-- Storing at a served position writes a line and the position. -/
theorem fill_spared {logger : Logger} (spares : logger.SparesLayers) {slot : GridSlot}
    (served : slot.Served) (code : Typecode) (state : Hosted ArrayGrid)
    : ∃ next,
        (fill logger slot code).run state
          = (.ok code, ⟨next, state.host.note (.line (.slotFilled slot code))⟩)
        ∧ state.own.Written slot code next := by
  obtain ⟨next, set, written⟩ := set?_eq_some state.own served code
  refine ⟨next, ?_, written⟩
  simp only [fill, Run.run_bind, Run.run_log, spares (.slotFilled slot code) nofun,
    Bool.false_eq_true, if_false, Run.run_own, set, Run.run_setOwn, Run.run_pure]

end ArrayGrid

-----------------------------------------------------------------------------------------
-- Places and fingerprints tell the same arrays apart
-----------------------------------------------------------------------------------------

/-- Two positions lie in the same place exactly if their arrays have the same fingerprint. -/
theorem GridSlot.index_eq_iff {first second : GridSlot} {index index' : Fin count}
    (found : first.index? = some index) (found' : second.index? = some index')
    : index = index' ↔ first.fingerprint = second.fingerprint := by
  constructor
  · rintro rfl
    rw [index?_inj found found']
  · intro same
    obtain rfl := fingerprint_inj same
    exact Option.some.inj (found.symm.trans found')

namespace ArrayShape

/-- How the two keys of arrays, the place in the grid and the fingerprint, compare on two arrays. -/
structure KeysAgree (first second : ArrayShape) : Prop where
  /-- An array with a position has a fingerprint, for which nothing is asked of any exporter, and
  its place is one of the 180 of the grid.
  -/
  served
    : ∀ slot,
        GridSlot.ofArray? first = some slot
        → (∃ bytes, ∀ state : Hosted Unit,
            (Shape.array first).fingerprint.run state = (.ok bytes, state))
          ∧ ∃ index, slot.index? = some index ∧ index.val < 180
  /-- Two arrays with positions have the same place exactly if they have the same fingerprint. -/
  together
    : ∀ slot slot',
        GridSlot.ofArray? first = some slot
        → GridSlot.ofArray? second = some slot'
        → ∃ index index' bytes bytes',
            slot.index? = some index
            ∧ slot'.index? = some index'
            ∧ (∀ state : Hosted Unit,
                (Shape.array first).fingerprint.run state = (.ok bytes, state))
            ∧ (∀ state : Hosted Unit,
                (Shape.array second).fingerprint.run state = (.ok bytes', state))
            ∧ (index = index' ↔ bytes = bytes')
  /-- An array with a position shares its fingerprint with no array that has none. -/
  apart
    : ∀ slot,
        GridSlot.ofArray? first = some slot
        → GridSlot.ofArray? second = none
        → ∀ (start start' : Hosted Unit) bytes bytes',
            ((Shape.array first).fingerprint.run start).1 = .ok bytes
            → ((Shape.array second).fingerprint.run start').1 = .ok bytes'
            → bytes' ≠ bytes

/-- The grid and the fingerprints divide arrays into the same classes, whatever their rank, their
contiguity flags with bits that mean nothing, their access and their element types.
-/
theorem keys_agree (first second : ArrayShape) : first.KeysAgree second where
  served slot belongs := by
    have position : (Shape.array first).slot? = some slot := belongs
    obtain ⟨index, found⟩ := (Shape.served_of_slot position).index?
    exact ⟨⟨slot.fingerprint, Shape.fingerprint_of_slot position⟩, index, found, index.isLt⟩
  together slot slot' belongs belongs' := by
    have position : (Shape.array first).slot? = some slot := belongs
    have position' : (Shape.array second).slot? = some slot' := belongs'
    obtain ⟨index, found⟩ := (Shape.served_of_slot position).index?
    obtain ⟨index', found'⟩ := (Shape.served_of_slot position').index?
    exact ⟨index, index', slot.fingerprint, slot'.fingerprint, found, found',
      Shape.fingerprint_of_slot position, Shape.fingerprint_of_slot position',
      GridSlot.index_eq_iff found found'⟩
  apart slot belongs elsewhere start start' bytes bytes' printed printed' := by
    have position : (Shape.array first).slot? = some slot := belongs
    have position' : (Shape.array second).slot? = none := elsewhere
    have same : bytes = slot.fingerprint := by
      rw [Shape.fingerprint_of_slot position] at printed
      exact (Except.ok.inj printed).symm
    rw [same]
    exact Shape.fingerprint_ne_slot position' printed' (Shape.served_of_slot position)

/-- The last place of the grid is that of arrays of rank 5 in column-major order, here with a flag
set that means nothing, and read-only arrays of the same kind have no place.
-/
example
    : let array : ArrayShape := ⟨5, ⟨6⟩, true, .scalar .complex128⟩
      (GridSlot.ofArray? array).bind GridSlot.index? = some 179
        ∧ GridSlot.ofArray? array.readOnly = none :=
  ⟨rfl, rfl⟩

end ArrayShape

end Typecodes
