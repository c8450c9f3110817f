import Mathlib
import Typecodes.Proofs.ElementaryTable
import Typecodes.Proofs.TuplesByItems

/-! The elementary typecodes and classification. The table of a dispatcher is made once, and the
registry and the layers go on changing after that. Still a number of an elementary kind is
classified with the code in the table, for ever: the registry keeps its types under their codes, and
nothing but such a number has a fingerprint under which its code could be in stock.
-/

namespace Typecodes

-----------------------------------------------------------------------------------------
-- Numbers of elementary kinds
-----------------------------------------------------------------------------------------

/-- The elementary kind that a number counts as: a single element as its own kind, and a number of
the host as the kind of the single elements whose type it has.
-/
def Shape.elementary? : Shape → Option ElementaryKind
  | .scalar element => element.elementary?
  | .int => some .int64
  | .float => some .float64
  | .complex => some .complex128
  | _ => .none

/-- The elementary kind that an outline of a number counts as. -/
def Outline.elementary? : Outline → Option ElementaryKind
  | .scalar element => element.elementary?
  | .int => some .int64
  | .float => some .float64
  | .complex => some .complex128
  | _ => .none

theorem Outline.elementary?_normal (outline : Outline)
    : outline.normal.elementary? = outline.elementary? := by
  cases outline <;> rfl

namespace Shape

/-- An outline counts as what its value counts as. -/
theorem elementary?_outline {value : Shape} {state after : Hosted Unit} {outline : Outline}
    (views : value.outline.run state = (.ok outline, after))
    : outline.elementary? = value.elementary? := by
  cases value with
  | tuple items =>
      obtain ⟨outlines, middle, -, done⟩ := Run.run_bind_eq_ok.mp views
      cases done
      rfl
  | buffer exporter =>
      rw [Shape.outline, Run.run_withView] at views
      cases acquired : exporter.acquire state.host with
      | mk reply left =>
          rw [acquired] at views
          cases reply <;> cases views
          rfl
  | _ =>
      cases views
      rfl

/-- Full analysis of a number stores the number type of its kind. -/
theorem typeOf_of_elementary (logger : Logger) {value : Shape} {kind : ElementaryKind}
    (counts : value.elementary? = some kind)
    : Registry.typeOf logger value = Registry.intern logger (.number kind.scalar) := by
  cases value with
  | scalar element =>
      cases element with
      | scalar scalar =>
          obtain rfl := ElementaryKind.elementary?_eq_some.mp counts
          cases kind <;> rw [Registry.typeOf] <;> rfl
      | _ => cases counts
  | int | float | complex =>
      cases counts
      rw [Registry.typeOf]
      rfl
  | _ => cases counts

end Shape

-----------------------------------------------------------------------------------------
-- What is in stock for numbers
-----------------------------------------------------------------------------------------

/-- What is in stock under the bytes of a number of an elementary kind is the code in the table. -/
def Stock.Agrees (stock : Stock) (elementary : ElementaryCodes) : Prop :=
  ∀ (outline : Outline) kind code,
    outline.encodable = true
    → outline.elementary? = some kind
    → stock.code? outline.encoding = some code
    → code = elementary.get kind

variable {elementary : ElementaryCodes}

/-- Learning an answer keeps the agreement if it is right for numbers. Witness: no other value has
the bytes of a number as its fingerprint.
-/
theorem Stock.Agrees.learn {stock : Stock} (agrees : stock.Agrees elementary) {value : Shape}
    {answer : Except Stop Typecode}
    (right : ∀ kind, value.elementary? = some kind → answer = .ok (elementary.get kind))
    (state : Hosted Unit)
    : (stock.learn (value.fingerprint.run state).1 answer).Agrees elementary := by
  cases printed : value.fingerprint.run state with
  | mk outcome after =>
      cases outcome with
      | error ending => exact agrees
      | ok bytes =>
          cases answer with
          | error ending => exact agrees
          | ok answered =>
              intro outline kind code encodable counts found
              obtain ⟨shown, views, encodable', same, -⟩ := Shape.fingerprint_eq_ok printed
              by_cases here : outline.encoding = bytes
              · simp only [Stock.learn, Stock.add, here, if_true, Option.some.injEq] at found
                have alike := Outline.encoding_inj encodable' encodable (same.symm.trans here.symm)
                have likewise : value.elementary? = some kind := by
                  rw [← Shape.elementary?_outline views, ← shown.elementary?_normal, alike,
                    outline.elementary?_normal, counts]
                cases right kind likewise
                exact found.symm
              · simp only [Stock.learn, Stock.add, here, if_false] at found
                exact agrees outline kind code encodable counts found

namespace Dispatcher

variable {logger : Logger}

-----------------------------------------------------------------------------------------
-- What stays true of a dispatcher and its registry
-----------------------------------------------------------------------------------------

/-- The codes of the table name the number types of their kinds, and what is in stock for numbers
are these codes.
-/
structure KeepsTable (elementary : ElementaryCodes) (own : Dispatcher × Analyzer) : Prop where
  sound : own.2.registry.Sound
  named : ∀ kind, own.2.registry.get? (elementary.get kind) = some (.number kind.scalar)
  stocked : ∃ stock, own.1.Holds stock ∧ stock.Agrees elementary

variable {dispatcher : Dispatcher} {analyzer : Analyzer}

/-- New types in the registry make no difference. -/
theorem KeepsTable.evolves {later : Analyzer} (keeps : KeepsTable elementary (dispatcher, analyzer))
    (evolves : analyzer.registry.Evolves later.registry)
    : KeepsTable elementary (dispatcher, later) where
  sound := evolves.sound keeps.sound
  named kind := evolves.get? (keeps.named kind)
  stocked := keeps.stocked

/-- Full analysis answers a number with the code in the table. -/
theorem KeepsTable.resolve (keeps : KeepsTable elementary (dispatcher, analyzer)) (logger : Logger)
    {value : Shape} {kind : ElementaryKind} (counts : value.elementary? = some kind) (host : Host)
    : ((Analyzer.resolve logger value).run ⟨analyzer, host⟩).1 = .ok (elementary.get kind) := by
  have known := (keeps.sound.inverse _ _).mpr (keeps.named kind)
  rw [Analyzer.run_resolve, Shape.typeOf_of_elementary logger counts,
    Registry.intern_of_codeOf? known]

/-- One classification, of any value and however it ends, keeps the agreement. If the value is a
number of an elementary kind, the answer is the code in the table.
-/
theorem KeepsTable.classify (spares : logger.SparesLayers) {own : Dispatcher × Analyzer}
    (keeps : KeepsTable elementary own) (value : Shape) (host : Host)
    : let finish := (Resolver.classify logger (.analysis logger) value).run ⟨own, host⟩
      KeepsTable elementary finish.2.own
      ∧ ∀ kind, value.elementary? = some kind → finish.1 = .ok (some (elementary.get kind)) := by
  intro finish
  obtain ⟨dispatcher, analyzer⟩ := own
  obtain ⟨stock, holding, told⟩ := keeps.stocked
  have classified :=
    (remembers spares).classify holding (Analyzer.resolve logger) value analyzer host
  change _ ∨ _ at classified
  rcases classified with
    ⟨bytes, code, printed, found, outcome, kept, -⟩ | ⟨-, outcome, resolver, -, held⟩
  · refine ⟨?_, fun kind counts => ?_⟩
    · rw [show finish.2.own = (dispatcher, analyzer) from kept]
      exact keeps
    · obtain ⟨outline, views, encodable, rfl, -⟩ :=
        Shape.fingerprint_eq_ok (Run.run_of_outcome printed)
      rw [← Shape.elementary?_outline views] at counts
      rw [← told outline kind code encodable counts found]
      exact outcome
  · have right (kind : ElementaryKind) (counts : value.elementary? = some kind) :=
      keeps.resolve logger counts
        (value.fingerprint.run (⟨(), host⟩ : Hosted Unit)).2.host.rested
    have evolves : analyzer.registry.Evolves finish.2.own.2.registry := by
      rw [show finish.2.own.2 = _ from resolver, Analyzer.run_resolve]
      exact Registry.typeOf_evolving logger value ⟨analyzer.registry, _⟩
    refine ⟨?_, fun kind counts => ?_⟩
    · have later := keeps.evolves evolves
      exact ⟨later.sound, later.named, _, held, told.learn right ⟨(), host⟩⟩
    · rw [show finish.1 = _ from outcome, right kind counts]
      rfl

-----------------------------------------------------------------------------------------
-- Any use of a dispatcher
-----------------------------------------------------------------------------------------

/-- What may happen to a dispatcher and the analyzer that it calls. -/
inductive Use where
  | classify (value : Shape)
  /-- A request to the analyzer past the dispatcher. -/
  | request (asked : Analyzer.Request)

/-- Does what is asked, up to where that stops. -/
def Use.perform (logger : Logger) : Use → Run (Dispatcher × Analyzer) Unit
  | classify value => (fun _ => ()) <$> Resolver.classify logger (.analysis logger) value
  | request asked => Run.onSecond (asked.perform logger)

/-- Dispatcher and analyzer after uses, each on some host and whatever its outcome. -/
def use (logger : Logger) (own : Dispatcher × Analyzer) (uses : List (Use × Host))
    : Dispatcher × Analyzer :=
  uses.foldl (fun reached use => ((use.1.perform logger).run ⟨reached, use.2⟩).2.own) own

theorem KeepsTable.perform (spares : logger.SparesLayers) {own : Dispatcher × Analyzer}
    (keeps : KeepsTable elementary own) (use : Use) (host : Host)
    : KeepsTable elementary ((use.perform logger).run ⟨own, host⟩).2.own := by
  cases use with
  | classify value =>
      rw [Use.perform, Run.run_map]
      exact (keeps.classify spares value host).1
  | request asked =>
      rw [Use.perform, Run.run_onSecond]
      exact keeps.evolves (asked.perform_evolves logger own.2 host.rested)

/-- Uses keep the agreement, by induction over them. -/
theorem KeepsTable.use (spares : logger.SparesLayers) {own : Dispatcher × Analyzer}
    (keeps : KeepsTable elementary own) (uses : List (Use × Host))
    : KeepsTable elementary (use logger own uses) := by
  induction uses generalizing own with
  | nil => exact keeps
  | cons use rest ih => exact ih (keeps.perform spares use.1 use.2)

/-- A dispatcher that was made over a registry of any origin has twelve different codes in its
table, and they name the number types of their kinds. After any uses of dispatcher and registry,
single elements of an elementary kind are classified with the code of the kind in the table,
integers of the host with that for pointer-sized integers, and its other numbers with those of
64-bit floats and 128-bit complex numbers.
-/
theorem elementary_agrees (spares : logger.SparesLayers) {start : Registry}
    (initial : start.Initial) (resolutions : Nat) (requests : List (Analyzer.Request × Host))
    {before : Host} {after : Hosted Registry}
    (installed
      : (ofRegistry logger).run
          ⟨(Analyzer.serve logger ⟨start, resolutions⟩ requests).registry, before⟩
        = (.ok dispatcher, after))
    : let elementary := dispatcher.elementary
      elementary.get.Injective
      ∧ elementary.pointerSized = elementary.get .int64
      ∧ (∀ kind, after.own.get? (elementary.get kind) = some (.number kind.scalar))
      ∧ ∀ counted uses host,
          let reached := use logger (dispatcher, ⟨after.own, counted⟩) uses
          let answer (value : Shape) :=
            ((Resolver.classify logger (.analysis logger) value).run ⟨reached, host⟩).1
          (∀ kind : ElementaryKind,
            answer (.scalar (.scalar kind.scalar)) = .ok (some (elementary.get kind)))
          ∧ answer .int = .ok (some elementary.pointerSized)
          ∧ answer .float = .ok (some (elementary.get .float64))
          ∧ answer .complex = .ok (some (elementary.get .complex128)) := by
  intro elementary
  have evolves := Analyzer.serve_evolves logger ⟨start, resolutions⟩ requests
  have early := evolves.sound initial.sound
  have sound := ((ofRegistry_evolving logger).ends installed).sound early
  obtain ⟨named, pointerSized⟩ := elementary_of_installed early installed
  refine ⟨?_, pointerSized, named, ?_⟩
  · intro first second same
    have types := (named first).symm.trans ((congrArg after.own.get? same).trans (named second))
    simp only [Option.some.injEq, TypeNode.number.injEq] at types
    exact ElementaryKind.scalar_inj types
  · intro counted uses host reached answer
    obtain ⟨made, rfl⟩ := ofRegistry_eq_ok installed
    have keeps : KeepsTable elementary (ofCodes made, ⟨after.own, counted⟩) :=
      ⟨sound, named, .empty, holds_ofCodes made, nofun⟩
    have answers (value : Shape) := ((keeps.use spares uses).classify spares value host).2
    refine ⟨fun kind => ?_, ?_, ?_, ?_⟩
    · exact answers _ kind (ElementaryKind.elementary?_scalar kind)
    · rw [show elementary.pointerSized = _ from pointerSized]
      exact answers .int .int64 rfl
    · exact answers .float .float64 rfl
    · exact answers .complex .complex128 rfl

/-- A tuple that is refused after its first item, a type stored past the dispatcher, and a number.
-/
theorem elementary_agrees_midway
    : let refusing : Shape := .buffer ⟨1, ⟨7⟩, fun _ _ => .error .unsupported⟩
      let uses :=
        [(Use.classify (.tuple [.float, refusing]), Host.fresh),
          (.request (.intern (.number .float16)), .fresh), (.classify .float, .fresh)]
      let requests := [(Analyzer.Request.typeOf (.tuple [.bytes, .int]), Host.fresh)]
      Registry.Initial .empty
      ∧ ∃ dispatcher after,
          (ofRegistry .steady).run
              ⟨(Analyzer.serve .steady ⟨.empty, 0⟩ requests).registry, .fresh⟩
            = (.ok dispatcher, after)
          ∧ dispatcher.elementary.get.Injective
          ∧ let reached := use .steady (dispatcher, ⟨after.own, 0⟩) uses
            let answer (value : Shape) :=
              ((Resolver.classify .steady (.analysis .steady) value).run ⟨reached, .fresh⟩).1
            (∀ kind : ElementaryKind,
              answer (.scalar (.scalar kind.scalar))
              = .ok (some (dispatcher.elementary.get kind)))
            ∧ answer .int = .ok (some dispatcher.elementary.pointerSized) := by
  intro refusing uses requests
  refine ⟨.empty, ?_⟩
  have succeeds
      : ((ofRegistry .steady).run
          ⟨(Analyzer.serve .steady ⟨.empty, 0⟩ requests).registry, .fresh⟩).1.isOk = true := by
    unfold requests
    cbv
  cases installed : (ofRegistry .steady).run
      ⟨(Analyzer.serve .steady ⟨.empty, 0⟩ requests).registry, .fresh⟩ with
  | mk outcome after =>
      rw [installed] at succeeds
      cases outcome with
      | error ending => cases succeeds
      | ok dispatcher =>
          obtain ⟨distinct, -, -, answers⟩ :=
            elementary_agrees Logger.steady_sparesLayers .empty 0 requests installed
          obtain ⟨scalars, ints, -⟩ := answers 0 uses .fresh
          exact ⟨dispatcher, after, rfl, distinct, scalars, ints⟩

end Dispatcher

end Typecodes
