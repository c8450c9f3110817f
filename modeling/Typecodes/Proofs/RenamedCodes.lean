import Mathlib
import Typecodes.Proofs.NamedTypes

/-! Renaming of codes. If two registries name the same structural types, the codes of one can be
renamed into those of the other: the types then agree, with the items of tuple types renamed as
well. A code is carried to the code that stands for the same outline, so nothing depends on the
order in which the registries were filled.
-/

namespace Typecodes

/-- The type with the codes of a tuple's items renamed. -/
def TypeNode.rename (rename : Typecode → Typecode) : TypeNode → TypeNode
  | .tuple items => .tuple (items.map rename)
  | node => node

namespace Registry

/-- The codes that the registry has given out. -/
def inUse (registry : Registry) : Set Typecode :=
  {code | code.toNat < registry.size}

/-- The renaming is one to one between the codes in use, and the types agree once the codes in them
are renamed.
-/
structure Renames (rename : Typecode → Typecode) (first second : Registry) : Prop where
  oneToOne : Set.BijOn rename first.inUse second.inUse
  types
    : ∀ code node,
        first.get? code = some node → second.get? (rename code) = some (node.rename rename)

/-- Every code goes to one that stands for the same outlines. -/
def Carries (rename : Typecode → Typecode) (first second : Registry) : Prop :=
  ∀ outline code, first.Denotes outline code → second.Denotes outline (rename code)

variable {first second : Registry} {rename : Typecode → Typecode}

/-- Codes can be carried if the outlines that the first registry has are among those of the second.
-/
theorem exists_carrying (has : ∀ outline, first.Has outline → second.Has outline)
    : ∃ rename, Carries rename first second := by
  have counterpart (code : Typecode)
      : ∃ other, ∀ outline, first.Denotes outline code → second.Denotes outline other := by
    by_cases known : ∃ outline, first.Denotes outline code
    · obtain ⟨outline, denotes⟩ := known
      obtain ⟨other, denotes'⟩ := has outline ⟨code, denotes⟩
      exact ⟨other, fun another same => denotes'.congr (denotes.structural_eq same)⟩
    · exact ⟨code, fun outline denotes => absurd ⟨outline, denotes⟩ known⟩
  choose rename carries using counterpart
  exact ⟨rename, fun outline code => carries code outline⟩

namespace Carries

theorem mapsTo (carries : Carries rename first second) (grounded : first.Grounded)
    : Set.MapsTo rename first.inUse second.inUse := by
  intro code inside
  obtain ⟨outline, denotes⟩ := grounded.denotes inside
  exact (carries outline code denotes).lt

/-- Codes that go to one code stand for one structural type, so they are the same. -/
theorem injOn (carries : Carries rename first second) (sound : first.Sound)
    (grounded : first.Grounded)
    : Set.InjOn rename first.inUse := by
  intro code inside code' inside' same
  obtain ⟨outline, denotes⟩ := grounded.denotes inside
  obtain ⟨outline', denotes'⟩ := grounded.denotes inside'
  have there := carries outline code denotes
  rw [same] at there
  exact sound.denotes_inj denotes denotes' (there.structural_eq (carries outline' code' denotes'))

theorem surjOn (carries : Carries rename first second) (sound : second.Sound)
    (grounded : second.Grounded) (has : ∀ outline, second.Has outline → first.Has outline)
    : Set.SurjOn rename first.inUse second.inUse := by
  intro other inside
  obtain ⟨outline, denotes⟩ := grounded.denotes inside
  obtain ⟨code, denotes'⟩ := has outline ⟨other, denotes⟩
  exact ⟨code, denotes'.lt, sound.denotes_inj (carries outline code denotes') denotes rfl⟩

theorem denotesAll (carries : Carries rename first second) {items : List Outline}
    {codes : List Typecode} (denotes : first.DenotesAll items codes)
    : second.DenotesAll items (codes.map rename) := by
  induction items generalizing codes with
  | nil =>
      cases codes with
      | nil => trivial
      | cons code codes => exact denotes
  | cons item rest ih =>
      cases codes with
      | nil => exact denotes
      | cons code codes => exact ⟨carries item code denotes.1, ih denotes.2⟩

/-- The type under a code and the one under the code that it is carried to differ by the renaming
alone. The cases are whether the outline that both stand for is a tuple.
-/
theorem types (carries : Carries rename first second) (sound : second.Sound)
    (grounded : first.Grounded) {code : Typecode} {node : TypeNode}
    (named : first.get? code = some node)
    : second.get? (rename code) = some (node.rename rename) := by
  obtain ⟨outline, denotes⟩ := grounded code node named
  have there := carries outline code denotes
  by_cases tuple : ∃ items, outline = .tuple items
  · obtain ⟨items, rfl⟩ := tuple
    obtain ⟨codes, stored, parts⟩ := denotes
    obtain ⟨codes', stored', parts'⟩ := there
    cases named.symm.trans stored
    rw [stored', TypeNode.rename, sound.denotesAll_inj parts' (carries.denotesAll parts) rfl]
  · have leaf (items : List Outline) : outline ≠ .tuple items := fun same => tuple ⟨items, same⟩
    cases named.symm.trans (denotes.leaf leaf)
    rw [there.leaf leaf]
    cases content : outline.node with
    | tuple codes => exact (Outline.not_node_tuple content leaf).elim
    | _ => rfl

/-- Registries with the same outlines differ by a renaming of codes alone. -/
theorem renames (carries : Carries rename first second) (sound : first.Sound)
    (sound' : second.Sound) (grounded : first.Grounded) (grounded' : second.Grounded)
    (has : ∀ outline, second.Has outline → first.Has outline)
    : Renames rename first second where
  oneToOne :=
    ⟨carries.mapsTo grounded, carries.injOn sound grounded, carries.surjOn sound' grounded' has⟩
  types _ _ named := carries.types sound' grounded named

end Carries

/-- A registry is at least as large as one whose outlines it has. -/
theorem size_le_of_has (sound : first.Sound) (grounded : first.Grounded)
    (has : ∀ outline, first.Has outline → second.Has outline)
    : first.size ≤ second.size := by
  obtain ⟨rename, carries⟩ := exists_carrying has
  let codeAt (position : Fin first.size) : Typecode := ⟨position.castLE sound.bounded⟩
  have inside (position : Fin first.size) : codeAt position ∈ first.inUse := position.isLt
  let place (position : Fin first.size) : Fin second.size :=
    ⟨(rename (codeAt position)).toNat, carries.mapsTo grounded (inside position)⟩
  have apart : Function.Injective place := by
    intro position position' same
    have codes := Typecode.toNat_inj (Fin.mk.inj same)
    have equal := carries.injOn sound grounded (inside position) (inside position') codes
    have numbers : (codeAt position).toNat = (codeAt position').toNat := by rw [equal]
    exact Fin.ext numbers
  simpa using Fintype.card_le_of_injective place apart

end Registry

end Typecodes
