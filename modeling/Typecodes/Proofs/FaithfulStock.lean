import Typecodes.Proofs.RememberingLayers
import Typecodes.Proofs.SteadyTyping

/-! When a code in stock is what full analysis would answer. Fingerprints tell outlines apart only
within a family of outlines. If all values come from one such family, a code in stock is the one
that the registry has for the outline behind the fingerprint, and a classification on any layer that
remembers does what full analysis does.
-/

namespace Typecodes

/-- Encodable outlines of the family are told apart by their bytes. -/
def Outline.Separated (family : Outline → Prop) : Prop :=
  ∀ ⦃first second : Outline⦄,
    family first
    → family second
    → first.encodable = true
    → second.encodable = true
    → first.encoding = second.encoding
    → first = second

/-- A value whose exporters are steady and whose outlines, through any views, are of the family. -/
structure Shape.Within (family : Outline → Prop) (value : Shape) : Prop where
  steady : ∀ exporter ∈ value.exporters, exporter.Steady
  outlined
    : ∀ ⦃state outline after⦄, value.outline.run state = (.ok outline, after) → family outline

/-- Every code in stock is the one that the registry gives to an outline of the family with the
bytes that the code is stored under.
-/
def Stock.Faithful (logger : Logger) (family : Outline → Prop) (stock : Stock)
    (registry : Registry)
    : Prop :=
  ∀ bytes code,
    stock.code? bytes = some code
    → ∃ outline : Outline,
        outline.encodable = true
        ∧ family outline
        ∧ bytes = outline.encoding
        ∧ outline.Settled logger registry code

variable {logger : Logger} {family : Outline → Prop}

namespace Stock.Faithful

variable {stock : Stock} {registry later : Registry}

theorem ofEmpty (registry : Registry) : Stock.empty.Faithful logger family registry :=
  nofun

theorem grows (faithful : stock.Faithful logger family registry) (grows : registry.Grows later)
    : stock.Faithful logger family later := by
  intro bytes code found
  obtain ⟨outline, encodable, member, same, settled⟩ := faithful bytes code found
  exact ⟨outline, encodable, member, same, settled.grows grows⟩

/-- The stock stays faithful when it learns the code of an outline that was just typed. -/
theorem add {outline : Outline} {code : Typecode} (faithful : stock.Faithful logger family registry)
    (grows : registry.Grows later) (encodable : outline.encodable = true) (member : family outline)
    (settled : outline.Settled logger later code)
    : (stock.add outline.encoding code).Faithful logger family later := by
  intro bytes other found
  by_cases same : bytes = outline.encoding
  · simp only [Stock.add, same, if_true, Option.some.injEq] at found
    subst found
    exact ⟨outline, encodable, member, same, settled⟩
  · simp only [Stock.add, same, if_false] at found
    exact faithful.grows grows bytes other found

end Stock.Faithful

namespace Shape.Within

variable {value : Shape}

/-- The outline behind a fingerprint is of the family, and full analysis of the value is its typing.
-/
theorem outline (within : value.Within family) {state after : Hosted Unit} {bytes : Bytes}
    (printed : value.fingerprint.run state = (.ok bytes, after))
    : ∃ outline : Outline,
        outline.encodable = true
        ∧ family outline
        ∧ bytes = outline.encoding
        ∧ (Registry.typeOf logger value).Matches (outline.typed logger) := by
  obtain ⟨outline, views, encodable, same, -⟩ := fingerprint_eq_ok printed
  exact ⟨outline, encodable, within.outlined views, same,
    Registry.typeOf_matches_typed logger within.steady views⟩

/-- A code in stock for the value's fingerprint is the one of full analysis, which would leave the
registry alone.
-/
theorem typeOf_of_stock (within : value.Within family) (separated : Outline.Separated family)
    {stock : Stock} {registry : Registry} (faithful : stock.Faithful logger family registry)
    {state after : Hosted Unit} {bytes : Bytes}
    (printed : value.fingerprint.run state = (.ok bytes, after)) {code : Typecode}
    (found : stock.code? bytes = some code) (host : Host)
    : ((Registry.typeOf logger value).run ⟨registry, host⟩).1 = .ok code
      ∧ ((Registry.typeOf logger value).run ⟨registry, host⟩).2.own = registry := by
  obtain ⟨outline, encodable, member, rfl, analysed⟩ := within.outline printed
  obtain ⟨other, encodable', member', same, settled⟩ := faithful _ _ found
  obtain rfl := separated member member' encodable encodable' same
  obtain ⟨outcome, kept⟩ := analysed registry host host
  rw [settled registry (.refl registry) host] at outcome kept
  exact ⟨outcome, kept⟩

/-- After full analysis the stock may learn the code and stays faithful. -/
theorem learn_typeOf (within : value.Within family) {stock : Stock} {registry : Registry}
    (faithful : stock.Faithful logger family registry) (state : Hosted Unit) (host : Host)
    : (stock.learn (value.fingerprint.run state).1
          ((Registry.typeOf logger value).run ⟨registry, host⟩).1).Faithful logger family
        ((Registry.typeOf logger value).run ⟨registry, host⟩).2.own := by
  have grows := Registry.typeOf_growing logger value ⟨registry, host⟩
  cases printed : value.fingerprint.run state with
  | mk outcome after =>
      cases analysed : (Registry.typeOf logger value).run ⟨registry, host⟩ with
      | mk answer finish =>
          rw [analysed] at grows
          cases outcome with
          | error ending => exact faithful.grows grows
          | ok bytes =>
              cases answer with
              | error ending => exact faithful.grows grows
              | ok code =>
                  obtain ⟨outline, encodable, member, rfl, likewise⟩ := within.outline printed
                  obtain ⟨same, kept⟩ := likewise registry host host
                  rw [analysed] at same kept
                  have settled := Outline.settled_of_typed (Run.run_of_outcome same.symm)
                  rw [← kept] at settled
                  exact faithful.add grows encodable member settled

end Shape.Within

/-- One classification on a layer that remembers, with full analysis as the resolver, does what full
analysis does, and the stock stays faithful.
-/
theorem Layer.Remembers.analyses {σ κ : Type} [Layer σ κ] {holds : σ → Stock → Prop}
    (remembers : Layer.Remembers logger holds) (separated : Outline.Separated family)
    {value : Shape} (within : value.Within family) {layer : σ} {stock : Stock}
    (holding : holds layer stock) {own : Analyzer}
    (faithful : stock.Faithful logger family own.registry) (host host' : Host)
    : let finish :=
        (Resolver.classify logger (.analysis logger) value).run ⟨(layer, own), host⟩
      let analysed := (Registry.typeOf logger value).run ⟨own.registry, host'⟩
      finish.1 = analysed.1.map some
      ∧ finish.2.own.2.registry = analysed.2.own
      ∧ ∃ later, holds finish.2.own.1 later ∧ later.Faithful logger family analysed.2.own := by
  intro finish analysed
  have classified := remembers.classify holding (Analyzer.resolve logger) value own host
  change _ ∨ _ at classified
  rcases classified with
    ⟨bytes, code, printed, found, outcome, kept, -⟩ | ⟨-, outcome, resolver, -, held⟩
  · obtain ⟨answered, same⟩ :=
      within.typeOf_of_stock separated faithful (Run.run_of_outcome printed) found host'
    refine ⟨?_, ?_, stock, ?_, ?_⟩
    · rw [show analysed.1 = .ok code from answered]
      exact outcome
    · rw [show analysed.2.own = own.registry from same]
      exact congrArg (fun state => state.2.registry) kept
    · rw [show finish.2.own = (layer, own) from kept]
      exact holding
    · rw [show analysed.2.own = own.registry from same]
      exact faithful
  · obtain ⟨answers, registries⟩ :=
      Registry.typeOf_matches logger within.steady own.registry
        (value.fingerprint.run (⟨(), host⟩ : Hosted Unit)).2.host.rested host'
    have learnt := within.learn_typeOf faithful ⟨(), host⟩ host'
    rw [← answers] at learnt
    exact ⟨outcome.trans (congrArg (Except.map some) answers),
      (congrArg Analyzer.registry resolver).trans registries, _, held, learnt⟩

end Typecodes
