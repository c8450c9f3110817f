import Mathlib
import Typecodes.Proofs.RenamedCodes
import Typecodes.Proofs.TuplesByItems

/-! The order of arrival. The same values are classified in two orders, each time through a new
dispatcher over the same registry. The registries end with the same structural types, so they differ
by a renaming of codes, which also takes every value's code in one run to its code in the other.
-/

namespace Typecodes

-----------------------------------------------------------------------------------------
-- What a value without buffers shows
-----------------------------------------------------------------------------------------

namespace Shape

/-- The outline of a value as a new host shows it. -/
def shown (value : Shape) : Outline :=
  match (value.outline.run ⟨(), .fresh⟩).1 with
  | .ok outline => outline
  | .error _ => .none

/-- A value without buffers shows the same outline everywhere. -/
theorem fixed_shown {value : Shape} (bufferless : value.exporters = [])
    : value.Fixed value.shown := by
  obtain ⟨outline, fixed⟩ := fixed_of_bufferless bufferless
  have same : value.shown = outline := by rw [shown, fixed .fresh]
  rwa [same]

end Shape

/-- Full analysis of a value without buffers gains the parts of the value at most, and its answer
stands for the value.
-/
theorem Registry.typeOf_gaining {value : Shape} (bufferless : value.exporters = [])
    {registry : Registry}
    : Gaining value.shown.parts (fun later code => later.Denotes value.shown code) registry
        (typeOf .steady value) :=
  have steady := (Shape.within_of_bufferless bufferless).steady
  have shown := Shape.fixed_shown bufferless .fresh
  (value.shown.typed_gaining registry).ofMatches (typeOf_matches_typed .steady steady shown)

/-- The state after works on values, one after the other and whatever the outcomes. -/
def Run.afterEach {σ α β : Type} (work : α → Run σ β) : List α → Hosted σ → Hosted σ
  | [], state => state
  | value :: rest, state => afterEach work rest ((work value).run state).2

namespace Dispatcher

open Registry (Gains typeOf_gaining)

-----------------------------------------------------------------------------------------
-- One classification
-----------------------------------------------------------------------------------------

/-- All codes of the registry have a meaning, and those that the dispatcher has in stock are the
registry's.
-/
structure Meaningful (state : Hosted (Dispatcher × Analyzer)) : Prop where
  sound : state.own.2.registry.Sound
  grounded : state.own.2.registry.Grounded
  honest : ∃ stock, state.own.1.Holds stock ∧ stock.Honest .steady state.own.2.registry

/-- Classifying a value gains parts of the value at most. Unless the registry is full in the end,
the answer stands for the value.
-/
theorem Meaningful.classify {value : Shape} (bufferless : value.exporters = [])
    {state after : Hosted (Dispatcher × Analyzer)} {outcome : Except Stop (Option Typecode)}
    (meaningful : Meaningful state)
    (ran : (Resolver.classify .steady (.analysis .steady) value).run state = (outcome, after))
    : Meaningful after
      ∧ Gains value.shown.parts state.own.2.registry after.own.2.registry
      ∧ (after.own.2.registry.size < typecodeCount
        → ∃ code,
            outcome = .ok (some code) ∧ after.own.2.registry.Denotes value.shown code) := by
  obtain ⟨sound, grounded, honest⟩ := meaningful
  have regular : value.Regular := by
    intro exporter member
    rw [bufferless] at member
    cases member
  have tracks : Tracks .steady state ⟨state.own.2, state.host⟩ := ⟨rfl, honest⟩
  obtain ⟨transparent, -, later⟩ := tracks.classify Logger.steady_sparesLayers regular
  cases analysed
      : (Registry.typeOf .steady value).run ⟨state.own.2.registry, state.host⟩ with
  | mk answer final =>
      obtain ⟨gains, ended⟩ := typeOf_gaining bufferless sound grounded _ _ _ analysed
      rw [Analyzer.typeOf, Analyzer.run_onRegistry, analysed, ran] at transparent later
      have left : after.own.2.registry = final.own := transparent.registry
      rw [left]
      refine ⟨⟨?_, ?_, ?_⟩, gains, ?_⟩
      · rw [left]
        exact gains.evolves.sound sound
      · rw [left]
        exact gains.grounded
      · rw [left]
        exact later
      · intro room
        cases answer with
        | ok code => exact ⟨code, transparent.outcome, ended⟩
        | error ending => exact absurd room (Nat.not_lt_of_le ended)

-----------------------------------------------------------------------------------------
-- Classifications in a row
-----------------------------------------------------------------------------------------

/-- Every value has a code in the registry, and the outcomes are those codes. -/
structure Answers (registry : Registry) (values : List Shape)
    (finishes : List (Except Stop (Option Typecode) × Hosted (Dispatcher × Analyzer)))
    : Prop where
  has : ∀ value ∈ values, registry.Has value.shown
  codes
    : ∀ codeOf : Shape → Typecode,
        (∀ value ∈ values, registry.Denotes value.shown (codeOf value))
        → List.Forall₂ (fun value finish => finish.1 = .ok (some (codeOf value))) values finishes

/-- Classifying values one after the other gains parts of them at most, and unless the registry is
full in the end, all are answered. Witness: induction over the values; a code that was answered
keeps its meaning, and the registry was smaller then.
-/
theorem Meaningful.classifyEach {values : List Shape}
    (bufferless : ∀ value ∈ values, value.exporters = [])
    {state : Hosted (Dispatcher × Analyzer)} (meaningful : Meaningful state)
    : let classify := Resolver.classify .steady (.analysis .steady)
      let final := (Run.afterEach classify values state).own.2.registry
      final.Sound
      ∧ Gains (values.flatMap fun value => value.shown.parts) state.own.2.registry final
      ∧ (final.size < typecodeCount → Answers final values (Run.each classify values state)) := by
  induction values generalizing state with
  | nil =>
      refine ⟨meaningful.sound, .refl meaningful.grounded, fun room => ⟨?_, ?_⟩⟩
      · exact fun value member => absurd member List.not_mem_nil
      · exact fun codeOf denotes => .nil
  | cons value rest ih =>
      intro classify final
      cases ran : (classify value).run state with
      | mk outcome after =>
          have first := bufferless value List.mem_cons_self
          have others (value : Shape) (member : value ∈ rest) : value.exporters = [] :=
            bufferless value (List.mem_cons_of_mem _ member)
          obtain ⟨next, gains, answered⟩ := meaningful.classify first ran
          obtain ⟨sound, more, answers⟩ := ih others next
          have same : final = (Run.afterEach classify rest after).own.2.registry := by
            simp only [final, Run.afterEach, ran]
          rw [← same] at sound more answers
          refine ⟨sound, gains.trans more, fun room => ?_⟩
          obtain ⟨code, answer, denotes⟩ := answered (more.evolves.size_le.trans_lt room)
          obtain ⟨has, codes⟩ := answers room
          have meaning := denotes.evolves more.evolves
          rw [Run.each, ran]
          refine ⟨List.forall_mem_cons.mpr ⟨⟨code, meaning⟩, has⟩, ?_⟩
          intro codeOf named
          obtain ⟨here, there⟩ := List.forall_mem_cons.mp named
          rw [sound.denotes_inj meaning here rfl] at answer
          exact .cons answer (codes codeOf there)

/-- Everything in a registry that gained parts of values is in any registry that comes from the same
one and has the values.
-/
theorem has_of_gains {values others : List Shape} {start registry other : Registry}
    (gains : Gains (values.flatMap fun value => value.shown.parts) start registry)
    (evolves : start.Evolves other) (among : values ⊆ others)
    (has : ∀ value ∈ others, other.Has value.shown)
    : ∀ outline, registry.Has outline → other.Has outline := by
  intro outline known
  rcases gains.only outline known with early | late
  · exact early.evolves evolves
  · obtain ⟨value, member, part⟩ := List.mem_flatMap.mp late
    obtain ⟨code, denotes⟩ := has value (among member)
    exact denotes.parts part

-----------------------------------------------------------------------------------------
-- New dispatchers
-----------------------------------------------------------------------------------------

/-- Naming the elementary kinds depends on the registry alone, by induction over the kinds. -/
theorem internKinds_matches (kinds : List ElementaryKind)
    : Run.Matches (Registry.internKinds .steady kinds) (Registry.internKinds .steady kinds) := by
  induction kinds with
  | nil => exact .ofPure _
  | cons kind rest ih =>
      exact (Registry.intern_matches .steady _).next fun _ => ih.next fun _ => .ofPure _

/-- New dispatchers over one registry leave one registry, on whatever hosts. -/
theorem registry_of_installed {start : Registry} {dispatcher dispatcher' : Dispatcher}
    {before before' : Host} {made made' : Hosted Registry}
    (installed : (ofRegistry .steady).run ⟨start, before⟩ = (.ok dispatcher, made))
    (installed' : (ofRegistry .steady).run ⟨start, before'⟩ = (.ok dispatcher', made'))
    : made.own = made'.own := by
  obtain ⟨names, -, named, -⟩ := names_of_ofRegistry installed
  obtain ⟨names', -, named', -⟩ := names_of_ofRegistry installed'
  have left := (internKinds_matches ElementaryKind.all start before before').2
  rw [Registry.elementaryNames] at named named'
  rwa [named, named'] at left

/-- Over an initial registry the codes of the elementary numbers have their meaning. -/
theorem meaningful_of_installed {start : Registry} (initial : start.Initial)
    {dispatcher : Dispatcher} {before : Host} {made : Hosted Registry}
    (installed : (ofRegistry .steady).run ⟨start, before⟩ = (.ok dispatcher, made))
    (counted : Nat) (host : Host)
    : Meaningful ⟨(dispatcher, ⟨made.own, counted⟩), host⟩ := by
  obtain ⟨elementary, rfl⟩ := ofRegistry_eq_ok installed
  obtain ⟨names, -, named, -⟩ := names_of_ofRegistry installed
  have gaining := Registry.internKinds_gaining start ElementaryKind.all
  obtain ⟨gains, -⟩ := gaining initial.sound initial.grounded before _ _ named
  exact ⟨gains.evolves.sound initial.sound, gains.grounded, .empty, holds_ofCodes elementary, nofun⟩

-----------------------------------------------------------------------------------------
-- The same values in two orders
-----------------------------------------------------------------------------------------

/-- Values without buffers are classified in two orders, each time through a new dispatcher over the
same initial registry, with full analysis as the resolver. If the registry does not fill up in one
of the runs, both end with registries of one size that differ by a renaming of codes alone. The
renaming keeps the codes that the registry had before any value was classified, and it takes the
code of every value in the one run to its code in the other.
-/
theorem arrival_order {start : Registry} (initial : start.Initial)
    {dispatcher dispatcher' : Dispatcher} {before before' : Host} {made made' : Hosted Registry}
    (installed : (ofRegistry .steady).run ⟨start, before⟩ = (.ok dispatcher, made))
    (installed' : (ofRegistry .steady).run ⟨start, before'⟩ = (.ok dispatcher', made'))
    {values values' : List Shape} (bufferless : ∀ value ∈ values, value.exporters = [])
    (permuted : values.Perm values') (counted counted' : Nat) (host host' : Host)
    (room
      : (Run.afterEach (Resolver.classify .steady (.analysis .steady)) values
          ⟨(dispatcher, ⟨made.own, counted⟩), host⟩).own.2.registry.size
        < typecodeCount)
    : let classify := Resolver.classify .steady (.analysis .steady)
      let state : Hosted (Dispatcher × Analyzer) := ⟨(dispatcher, ⟨made.own, counted⟩), host⟩
      let state' : Hosted (Dispatcher × Analyzer) := ⟨(dispatcher', ⟨made'.own, counted'⟩), host'⟩
      let final := (Run.afterEach classify values state).own.2.registry
      let final' := (Run.afterEach classify values' state').own.2.registry
      final.size = final'.size
      ∧ ∃ (rename : Typecode → Typecode) (codeOf : Shape → Typecode),
          Registry.Renames rename final final'
          ∧ (∀ code ∈ made.own.inUse, rename code = code)
          ∧ List.Forall₂ (fun value finish => finish.1 = .ok (some (codeOf value))) values
              (Run.each classify values state)
          ∧ List.Forall₂ (fun value finish => finish.1 = .ok (some (rename (codeOf value))))
              values' (Run.each classify values' state') := by
  intro classify state state' final final'
  have same : made.own = made'.own := registry_of_installed installed installed'
  have first := meaningful_of_installed initial installed counted host
  have second := meaningful_of_installed initial installed' counted' host'
  have bufferless' (value : Shape) (member : value ∈ values') : value.exporters = [] :=
    bufferless value (permuted.mem_iff.mpr member)
  obtain ⟨sound, gains, answers⟩ := first.classifyEach bufferless
  obtain ⟨sound', gains', answers'⟩ := second.classifyEach bufferless'
  obtain ⟨has, codes⟩ := answers room
  have evolves : made'.own.Evolves final := same ▸ gains.evolves
  have evolves' : made.own.Evolves final' := same.symm ▸ gains'.evolves
  -- The second registry has nothing that the first lacks, so it does not fill up either.
  have among := has_of_gains gains' evolves permuted.symm.subset has
  have smaller := Registry.size_le_of_has sound' gains'.grounded among
  obtain ⟨has', codes'⟩ := answers' (smaller.trans_lt room)
  have among' := has_of_gains gains evolves' permuted.subset has'
  have larger := Registry.size_le_of_has sound gains.grounded among'
  obtain ⟨rename, carries⟩ := Registry.exists_carrying among'
  have : Nonempty Typecode := ⟨.zero⟩
  choose! codeOf denotes using has
  refine ⟨Nat.le_antisymm larger smaller, rename, codeOf, ?_, ?_, codes codeOf denotes, ?_⟩
  · exact carries.renames sound sound' gains.grounded gains'.grounded among
  · intro code inside
    obtain ⟨outline, early⟩ := first.grounded.denotes inside
    have there := carries outline code (early.evolves gains.evolves)
    exact sound'.denotes_inj there (early.evolves evolves') rfl
  · refine codes' (fun value => rename (codeOf value)) ?_
    intro value member
    exact carries _ _ (denotes value (permuted.mem_iff.mpr member))

/-- A tuple that comes before its items in the one run and after them in the other, and bytes. -/
theorem arrival_order_nested
    : let pair : Shape := .tuple [.array ⟨2, ⟨1⟩, true, .scalar .float64⟩, .foreign ⟨7⟩]
      let triple : Shape := .tuple [pair, .int, pair]
      let values := [triple, .bytes, pair]
      let values' := [pair, triple, .bytes]
      Registry.Initial .empty
      ∧ (∀ value ∈ values, value.exporters = [])
      ∧ values.Perm values'
      ∧ ∃ dispatcher made,
          (ofRegistry .steady).run ⟨.empty, .fresh⟩ = (.ok dispatcher, made)
          ∧ let state : Hosted (Dispatcher × Analyzer) := ⟨(dispatcher, ⟨made.own, 0⟩), .fresh⟩
            let classify := Resolver.classify .steady (.analysis .steady)
            let final := (Run.afterEach classify values state).own.2.registry
            let final' := (Run.afterEach classify values' state).own.2.registry
            final.size < typecodeCount
            ∧ final.size = final'.size
            ∧ ∃ (rename : Typecode → Typecode) (codeOf : Shape → Typecode),
                Registry.Renames rename final final'
                ∧ (∀ code ∈ made.own.inUse, rename code = code)
                ∧ List.Forall₂ (fun value finish => finish.1 = .ok (some (codeOf value))) values
                    (Run.each classify values state)
                ∧ List.Forall₂ (fun value finish => finish.1 = .ok (some (rename (codeOf value))))
                    values' (Run.each classify values' state) := by
  intro pair triple values values'
  have bufferless : ∀ value ∈ values, value.exporters = [] := by
    intro value member
    simp only [values, List.mem_cons, List.not_mem_nil, or_false] at member
    rcases member with rfl | rfl | rfl <;> rfl
  have permuted : values.Perm values' := by
    show ([triple, .bytes] ++ [pair]).Perm ([pair] ++ [triple, .bytes])
    exact List.perm_append_comm
  refine ⟨.empty, bufferless, permuted, ?_⟩
  have fits
      : (match (ofRegistry .steady).run ⟨.empty, .fresh⟩ with
        | (.ok dispatcher, made) =>
            decide ((Run.afterEach (Resolver.classify .steady (.analysis .steady)) values
              ⟨(dispatcher, ⟨made.own, 0⟩), .fresh⟩).own.2.registry.size < typecodeCount)
        | (.error _, _) => false) = true := by
    unfold values triple pair
    cbv
  cases installed : (ofRegistry .steady).run ⟨.empty, .fresh⟩ with
  | mk outcome made =>
      rw [installed] at fits
      cases outcome with
      | error ending => cases fits
      | ok dispatcher =>
          simp only [decide_eq_true_eq] at fits
          have ends :=
            arrival_order .empty installed installed bufferless permuted 0 0 .fresh .fresh fits
          exact ⟨dispatcher, made, rfl, fits, ends⟩

end Dispatcher

end Typecodes
