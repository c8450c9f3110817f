import Typecodes.Proofs.RememberingLayers
import Typecodes.Proofs.Traversals

/-! The dispatcher and the plain fingerprint table do the same. The grid serves the arrays of its
positions in place of the table, and nothing tells the difference: not the codes and failures that
are returned, nor the resolver calls, nor the views that are asked for. The entries of the plain
table are those of the dispatcher's table and grid together.
-/

namespace Typecodes

namespace Layer

variable {σ σ' κ κ' ω : Type} [Layer σ κ] [Layer σ' κ'] {logger : Logger}
variable {holds : σ → Stock → Prop} {holds' : σ' → Stock → Prop}

/-- Two layers hold the same stock beside the same resolver, on alike hosts. -/
structure Parallel (holds : σ → Stock → Prop) (holds' : σ' → Stock → Prop)
    (state : Hosted (σ × ω)) (state' : Hosted (σ' × ω)) : Prop where
  stock : ∃ stock, holds state.own.1 stock ∧ holds' state'.own.1 stock
  resolver : state.own.2 = state'.own.2
  alike : state.host.Alike state'.host

/-- A classification has the same outcome on both and keeps them parallel. -/
theorem Parallel.classify (remembers : Remembers logger holds)
    (remembers' : Remembers logger holds') (answer : Shape → Run ω Typecode) (value : Shape)
    {state : Hosted (σ × ω)} {state' : Hosted (σ' × ω)}
    (parallel : Parallel holds holds' state state')
    : ((Resolver.classify logger (.ofRun answer) value).run state).1
        = ((Resolver.classify logger (.ofRun answer) value).run state').1
      ∧ Parallel holds holds' ((Resolver.classify logger (.ofRun answer) value).run state).2
        ((Resolver.classify logger (.ofRun answer) value).run state').2 := by
  obtain ⟨⟨layer, own⟩, host⟩ := state
  obtain ⟨⟨layer', own'⟩, host'⟩ := state'
  obtain ⟨⟨stock, holding, holding'⟩, rfl, alike⟩ := parallel
  obtain ⟨same, likewise⟩ := value.fingerprint_alike alike () ()
  have left := remembers.classify holding answer value own host
  have right := remembers'.classify holding' answer value own host'
  dsimp only at left right same likewise
  rw [← same, ← likewise.rested] at right
  rcases left with
    ⟨bytes, code, printed, found, outcome, kept, after⟩
    | ⟨vacant, outcome, resolver, after, held⟩
  · rcases right with
      ⟨bytes', code', printed', found', outcome', kept', after'⟩ | ⟨vacant', -⟩
    · cases printed.symm.trans printed'
      cases found.symm.trans found'
      refine ⟨outcome.trans outcome'.symm, ⟨stock, ?_, ?_⟩, ?_, ?_⟩
      · rw [kept]
        exact holding
      · rw [kept']
        exact holding'
      · rw [kept, kept']
      · exact after.trans (likewise.trans after'.symm)
    · cases found.symm.trans (vacant' bytes printed)
  · rcases right with
      ⟨bytes', code', printed', found', -⟩ | ⟨-, outcome', resolver', after', held'⟩
    · cases found'.symm.trans (vacant bytes' printed')
    · refine ⟨outcome.trans outcome'.symm, ⟨_, held, held'⟩, ?_, ?_⟩
      · exact resolver.trans resolver'.symm
      · exact after.trans (((likewise.called none none value).resume _).trans after'.symm)

end Layer

-----------------------------------------------------------------------------------------
-- The plain table as the union of both layers
-----------------------------------------------------------------------------------------

namespace Dispatcher

variable {ω : Type} {logger : Logger}

/-- The bytes are the fingerprint of an array that belongs at the position. -/
def Represents (slot : GridSlot) (bytes : Bytes) : Prop :=
  ∃ array,
    GridSlot.ofArray? array = some slot
    ∧ ∀ host, (Shape.array array).fingerprint.run (⟨(), host⟩ : Hosted Unit)
        = (.ok bytes, ⟨(), host⟩)

/-- The plain table is the disjoint union of the dispatcher's table and of the codes of the grid's
positions, each under the fingerprint of an array of the position.
-/
structure Divides (dispatcher : Dispatcher) (plain : FingerprintTable) : Prop where
  entries
    : ∀ bytes code,
        plain.get? bytes = some code
        ↔ dispatcher.table.get? bytes = some code
          ∨ ∃ slot, Represents slot bytes ∧ dispatcher.grid.get slot = .ok (some code)
  disjoint : ∀ slot bytes, Represents slot bytes → dispatcher.table.get? bytes = none
  size : plain.size = dispatcher.table.size + dispatcher.grid.populated

/-- A position of an array has exactly one fingerprint, and a served position has one. -/
theorem represents_iff {slot : GridSlot} {bytes : Bytes}
    : Represents slot bytes ↔ slot.Served ∧ bytes = slot.fingerprint := by
  constructor
  · rintro ⟨array, belongs, prints⟩
    have position : (Shape.array array).slot? = some slot := belongs
    have same := (prints .fresh).symm.trans (Shape.fingerprint_of_slot position _)
    exact ⟨(GridSlot.ofArray?_eq_some.mp belongs).1, Except.ok.inj (Prod.mk.inj same).1⟩
  · rintro ⟨served, rfl⟩
    obtain ⟨contiguity, layout⟩ := slot.layout.exists_contiguity
    let array : ArrayShape := ⟨slot.rank, contiguity, true, .scalar slot.kind.scalar⟩
    have shown : array.outline = slot.outline := by
      rw [ArrayShape.outline, ArrayShape.layout, layout]
      rfl
    have belongs := GridSlot.ofArray?_eq_some.mpr ⟨served, shown⟩
    have position : (Shape.array array).slot? = some slot := belongs
    exact ⟨array, belongs, fun host => Shape.fingerprint_of_slot position ⟨(), host⟩⟩

theorem Holds.divides {dispatcher : Dispatcher} {plain : FingerprintTable} {stock : Stock}
    (holding : dispatcher.Holds stock) (holding' : plain.Holds stock)
    : dispatcher.Divides plain := by
  refine ⟨?_, ?_, ?_⟩
  · intro bytes code
    rw [holding'.codes bytes]
    constructor
    · intro found
      by_cases foreign : ∀ slot : GridSlot, slot.Served → bytes ≠ slot.fingerprint
      · left
        rw [← holding.others bytes foreign]
        exact found
      · right
        simp only [not_forall, not_not] at foreign
        obtain ⟨slot, served, rfl⟩ := foreign
        refine ⟨slot, represents_iff.mpr ⟨served, rfl⟩, ?_⟩
        rw [holding.sound.get served, ← holding.served slot served, found]
    · rintro (found | ⟨slot, stands, found⟩)
      · rw [holding.others bytes ?_]
        · exact found
        · rintro slot served rfl
          cases found.symm.trans (holding.apart slot served)
      · obtain ⟨served, rfl⟩ := represents_iff.mp stands
        rw [holding.sound.get served] at found
        rw [holding.served slot served]
        exact Except.ok.inj found
  · intro slot bytes stands
    obtain ⟨served, rfl⟩ := represents_iff.mp stands
    exact holding.apart slot served
  · rw [holding'.size, holding.size]

/-- What agrees between the dispatcher and the plain table after a classification. -/
structure Agrees (left : Except Stop (Option Typecode) × Hosted (Dispatcher × ω))
    (right : Except Stop (Option Typecode) × Hosted (FingerprintTable × ω)) : Prop where
  outcome : left.1 = right.1
  /-- Resolvers were called on the same values so far, and the same happened to exporters. -/
  alike : left.2.host.Alike right.2.host
  resolver : left.2.own.2 = right.2.own.2
  divides : left.2.own.1.Divides right.2.own.1

/-- A new dispatcher refines a new fingerprint table, for any resolver that leaves the layers alone
and under any logger that spares them. On any values one after the other, both return the same at
each step, call the resolver on the same values and ask for the same views, and the plain table's
entries are those of the dispatcher's two layers.
-/
theorem refines_table (spares : logger.SparesLayers) (elementary : ElementaryCodes)
    (answer : Shape → Run ω Typecode) (resolver : ω) (host : Host) (values : List Shape)
    : List.Forall₂ Agrees
        (Run.each (Resolver.classify logger (.ofRun answer)) values
          ⟨(ofCodes elementary, resolver), host⟩)
        (Run.each (Resolver.classify logger (.ofRun answer)) values
          ⟨(FingerprintTable.empty, resolver), host⟩) := by
  refine Run.each_related (Layer.Parallel Holds FingerprintTable.Holds) ?_ ?_
  · intro value _ state state' parallel
    obtain ⟨outcome, next⟩ :=
      parallel.classify (remembers spares) (FingerprintTable.remembers spares) answer value
    obtain ⟨stock, holding, holding'⟩ := next.stock
    exact ⟨⟨outcome, next.alike, next.resolver, holding.divides holding'⟩, next⟩
  · exact ⟨⟨.empty, holds_ofCodes elementary, FingerprintTable.holds_empty⟩, rfl, .refl host⟩

/-- A resolver that fails once and counts from then on, on arrays with and without a position. -/
theorem refines_table_counting
    : let array (contiguity : Contiguity) (writable : Bool) : Shape :=
        .array ⟨2, contiguity, writable, .scalar .float64⟩
      let answer (_ : Shape) : Run Nat Typecode := do
        let calls ← Run.own
        Run.setOwn (calls + 1)
        if calls = 0 then Run.fail (.resolution "busy")
        Run.ofFailing (Typecode.ofInt calls)
      let work {σ κ : Type} [Layer σ κ] : Shape → Run (σ × Nat) (Option Typecode) :=
        Resolver.classify .steady (.ofRun answer)
      let values := [array ⟨1⟩ true, array ⟨3⟩ true, array ⟨3⟩ false, .tuple [array ⟨1⟩ true], .int]
      Logger.steady.SparesLayers
      ∧ List.Forall₂ Agrees
          (Run.each work values
            ⟨(ofCodes ⟨Vector.replicate _ .zero, .zero⟩, 0), .fresh⟩)
          (Run.each work values ⟨(FingerprintTable.empty, 0), .fresh⟩) :=
  ⟨Logger.steady_sparesLayers, refines_table Logger.steady_sparesLayers _ _ _ _ _⟩

end Dispatcher

end Typecodes
