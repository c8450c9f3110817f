import Mathlib
import Typecodes.Proofs.StockedParts
import Typecodes.Proofs.Transparency
import Typecodes.Resolver.Tuplewise

/-! Typing tuples by their items through a dispatcher. The resolver has the items of a tuple
classified by the dispatcher that called it. For values without buffers this gives what full
analysis gives, and every part of a classified value is stored in the dispatcher afterwards.
-/

namespace Typecodes

variable {logger : Logger}

-----------------------------------------------------------------------------------------
-- What the resolver does on a tuple
-----------------------------------------------------------------------------------------

namespace Resolver

variable {σ κ : Type} [Layer σ κ]

/-- The code that a layer has told, or that of another run if it has told none. -/
def toldOr {τ : Type} (otherwise : Run τ Typecode) : Option Typecode → Run τ Typecode
  | some code => pure code
  | none => otherwise

/-- A run that tells its code needs no other run. -/
theorem told_bind_toldOr {τ : Type} (work otherwise : Run τ Typecode)
    : some <$> work >>= toldOr otherwise = work := by
  rw [bind_map_left]
  exact bind_pure work

/-- The code of an item through the layer, or by full analysis if the layer is not meant for it. -/
def codeOf (logger : Logger) (item : Shape) : Run (σ × Analyzer) Typecode :=
  classify logger (tuplewise logger) item >>= toldOr (Run.onSecond (Analyzer.resolve logger item))

/-- The codes of items, one after the other. -/
def codesOf (logger : Logger) : List Shape → Run (σ × Analyzer) (List Typecode)
  | [] => pure []
  | item :: rest => do
      let code ← codeOf logger item
      let codes ← codesOf logger rest
      return code :: codes

/-- Classifying items goes on from the codes of all items, by induction over the items. A failure
that ends a classification ends the call as well, and so does a panic.
-/
theorem run_classifyItems (next : List Typecode → Procedure Analyzer) (items : List Shape)
    (codes : List Typecode)
    : ((classifyItems (Analyzer.resolve logger) next
          (itemsOf (typeByItems logger id) items) codes).run logger
        : Run (σ × Analyzer) Typecode)
      = (codesOf logger items >>= fun more => (next (codes.reverse ++ more)).run logger) := by
  induction items generalizing codes with
  | nil => rw [itemsOf, classifyItems, codesOf, pure_bind, List.append_nil]
  | cons item rest ih =>
      have goesOn (code : Typecode)
          : (classifyItems (Analyzer.resolve logger) next
                (itemsOf (typeByItems logger id) rest) (code :: codes)).run logger
            = ((codesOf logger rest : Run (σ × Analyzer) _) >>= fun more =>
                (next (codes.reverse ++ code :: more)).run logger) := by
        rw [ih, List.reverse_cons]
        simp only [List.append_assoc, List.singleton_append]
      simp only [itemsOf, classifyItems, Procedure.run, codesOf, codeOf, classify, tuplewise,
        bind_assoc, pure_bind]
      apply Run.run_inj
      intro state
      rw [Run.run_bind, Run.run_attempt, Run.run_bind]
      cases (Layer.classify logger item
          ((overItems (typeByItems logger id) item).run logger)).run state with
      | mk outcome after =>
          cases outcome with
          | ok answer =>
              cases answer with
              | some code => simp only [goesOn, toldOr, pure_bind]
              | none => simp only [Procedure.run, goesOn, toldOr]
          -- A failure is caught and then ends the call all the same; a panic is not caught.
          | error ending => cases ending <;> rfl

/-- On a tuple the resolver takes the codes of the items and stores the tuple type of the codes. -/
theorem run_tuplewise_tuple (items : List Shape)
    : ((tuplewise logger (.tuple items)).run logger : Run (σ × Analyzer) Typecode)
      = (codesOf logger items >>= fun codes =>
          Run.onSecond (Analyzer.onRegistry (Registry.intern logger (.tuple codes)))) := by
  rw [tuplewise, overItems, typeByItems]
  refine (run_classifyItems _ items []).trans ?_
  apply bind_congr
  intro codes
  exact bind_pure _

/-- Any other value is analysed in full. -/
theorem run_tuplewise_leaf {value : Shape} (leaf : ∀ items, value ≠ .tuple items)
    : ((tuplewise logger value).run logger : Run (σ × Analyzer) Typecode)
      = Run.onSecond (Analyzer.resolve logger value) := by
  cases value with
  | tuple items => exact absurd rfl (leaf items)
  | _ => exact bind_pure _

end Resolver

-----------------------------------------------------------------------------------------
-- Values without buffers
-----------------------------------------------------------------------------------------

namespace Shape

/-- The value shows the outline on every host and leaves the host alone. -/
def Fixed (value : Shape) (outline : Outline) : Prop :=
  ∀ host, value.outline.run ⟨(), host⟩ = (.ok outline, ⟨(), host⟩)

/-- The values show the outlines, one for one. -/
def AllFixed (items : List Shape) (shown : List Outline) : Prop :=
  ∀ host, (outlines items).run ⟨(), host⟩ = (.ok shown, ⟨(), host⟩)

theorem Fixed.unique {value : Shape} {outline other : Outline} (fixed : value.Fixed outline)
    (fixed' : value.Fixed other)
    : outline = other := by
  cases (fixed .fresh).symm.trans (fixed' .fresh)
  rfl

theorem AllFixed.unique {items : List Shape} {shown others : List Outline}
    (fixed : AllFixed items shown) (fixed' : AllFixed items others)
    : shown = others := by
  cases (fixed .fresh).symm.trans (fixed' .fresh)
  rfl

theorem AllFixed.tuple {items : List Shape} {shown : List Outline} (fixed : AllFixed items shown)
    : (Shape.tuple items).Fixed (.tuple shown) := by
  intro host
  rw [Shape.outline, Run.run_bind_ok _ (fixed host)]
  rfl

theorem Fixed.cons {item : Shape} {rest : List Shape} {outline : Outline} {shown : List Outline}
    (first : item.Fixed outline) (others : AllFixed rest shown)
    : AllFixed (item :: rest) (outline :: shown) := by
  intro host
  rw [outlines, Run.run_bind_ok _ (first host), Run.run_bind_ok _ (others host)]
  rfl

mutual

/-- A value without buffers shows one outline everywhere, by induction over the shape. -/
theorem fixed_of_bufferless {value : Shape} (bufferless : value.exporters = [])
    : ∃ outline, value.Fixed outline := by
  cases value with
  | tuple items =>
      obtain ⟨shown, fixed⟩ := allFixed_of_bufferless bufferless
      exact ⟨.tuple shown, fixed.tuple⟩
  | buffer exporter => cases bufferless
  | _ => exact ⟨_, fun _ => rfl⟩

theorem allFixed_of_bufferless {items : List Shape} (bufferless : exportersAll items = [])
    : ∃ shown, AllFixed items shown := by
  cases items with
  | nil => exact ⟨[], fun _ => rfl⟩
  | cons item rest =>
      obtain ⟨first, others⟩ := List.append_eq_nil_iff.mp bufferless
      obtain ⟨outline, fixed⟩ := fixed_of_bufferless first
      obtain ⟨shown, fixed'⟩ := allFixed_of_bufferless others
      exact ⟨outline :: shown, fixed.cons fixed'⟩

end

theorem Fixed.of_tuple {items : List Shape} {outline : Outline}
    (fixed : (Shape.tuple items).Fixed outline) (bufferless : exportersAll items = [])
    : ∃ shown, outline = .tuple shown ∧ AllFixed items shown := by
  obtain ⟨shown, parts⟩ := allFixed_of_bufferless bufferless
  exact ⟨shown, fixed.unique parts.tuple, parts⟩

theorem AllFixed.of_cons {item : Shape} {rest : List Shape} {shown : List Outline}
    (fixed : AllFixed (item :: rest) shown) (bufferless : exportersAll (item :: rest) = [])
    : ∃ outline more,
        shown = outline :: more
        ∧ (item.exporters = [] ∧ item.Fixed outline)
        ∧ (exportersAll rest = [] ∧ AllFixed rest more) := by
  obtain ⟨first, others⟩ := List.append_eq_nil_iff.mp bufferless
  obtain ⟨outline, here⟩ := fixed_of_bufferless first
  obtain ⟨more, there⟩ := allFixed_of_bufferless others
  exact ⟨outline, more, fixed.unique (here.cons there), ⟨first, here⟩, ⟨others, there⟩⟩

/-- There is no exporter to be irregular. -/
theorem within_of_bufferless {value : Shape} (bufferless : value.exporters = [])
    : value.Within Outline.Plain := by
  apply Regular.within
  intro exporter member
  rw [bufferless] at member
  cases member

/-- Nothing is asked of the parts of a value that is no tuple. -/
theorem Fixed.partsStocked {value : Shape} {outline : Outline} (fixed : value.Fixed outline)
    (leaf : ∀ items, value ≠ .tuple items) (bufferless : value.exporters = []) (stock : Stock)
    (registry : Registry) (code : Typecode)
    : outline.PartsStocked stock registry code := by
  cases value with
  | tuple items => exact absurd rfl (leaf items)
  | buffer exporter => cases bufferless
  | _ =>
      cases fixed .fresh
      trivial

end Shape

-----------------------------------------------------------------------------------------
-- The resolver on a layer that remembers
-----------------------------------------------------------------------------------------

namespace Resolver

open Layer (Simulates)

variable {σ κ : Type} {holds : σ → Stock → Prop} {bound : Nat}

/-- Full analysis of a value leaves the layer alone and types the value's outline. -/
theorem resolve_simulates {value : Shape} {outline : Outline} (bufferless : value.exporters = [])
    (fixed : value.Fixed outline) {achieved : Stock → Registry → Typecode → Prop}
    (achieves : ∀ stock registry code, achieved stock registry code)
    : Simulates logger Outline.Plain holds bound achieved
        (Run.onSecond (Analyzer.resolve logger value)) (outline.typed logger) := by
  have steady := (Shape.within_of_bufferless bufferless).steady
  have typed := Registry.typeOf_matches_typed logger steady (fixed .fresh)
  refine .ofSecond ?_ (Outline.typed_evolving logger outline) ?_
  · intro own host host'
    rw [Analyzer.run_resolve]
    exact typed own.registry host host'
  · intro registry host code after stock sound ran
    exact achieves stock after.own code

variable [Layer σ κ]

/-- The code of an item is the one that its classification tells. -/
theorem codeOf_simulates {item : Shape} {outline : Outline} (bufferless : item.exporters = [])
    (fixed : item.Fixed outline)
    (classified
      : Simulates logger Outline.Plain holds bound
          (fun stock registry answer =>
            ∃ code, answer = some code ∧ outline.Stocked stock registry code)
          (classify logger (tuplewise logger) item) (some <$> outline.typed logger))
    : Simulates logger Outline.Plain holds bound
        (fun stock registry code => outline.Stocked stock registry code)
        (codeOf logger item) (outline.typed logger) := by
  have told (answer : Option Typecode)
      : Simulates logger Outline.Plain holds bound
          (fun _ _ code => ∀ known, answer = some known → code = known)
          (toldOr (Run.onSecond (Analyzer.resolve logger item)) answer)
          (toldOr (outline.typed logger) answer) := by
    cases answer with
    | some code => exact .ofPure code fun _ _ known same => Option.some.inj same
    | none => exact resolve_simulates bufferless fixed fun _ _ _ => nofun
  rw [← told_bind_toldOr (outline.typed logger) (outline.typed logger), codeOf]
  refine classified.next told ?_
  rintro stock later registry reached _ last ⟨code, rfl, stocked⟩ extended evolves answered
  obtain rfl := answered code rfl
  exact stocked.extends extended evolves

mutual

/-- Classifying a value without buffers, with the items of tuples classified in turn, does what
typing the value's outline does. Witness: structural induction over the value; the parts of a tuple
are shorter than the tuple, so they never take its place in stock.
-/
theorem classify_simulates (remembers : Layer.Remembers logger holds) {value : Shape}
    {outline : Outline} (bufferless : value.exporters = []) (fixed : value.Fixed outline)
    : Simulates logger Outline.Plain holds outline.encoding.length
        (fun stock registry answer =>
          ∃ code, answer = some code ∧ outline.Stocked stock registry code)
        (classify logger (tuplewise logger) value) (some <$> outline.typed logger) := by
  have plain := (Shape.within_of_bufferless bufferless).outlined (fixed .fresh)
  by_cases tuple : ∃ items, value = .tuple items
  · obtain ⟨items, rfl⟩ := tuple
    obtain ⟨shown, rfl, parts⟩ := fixed.of_tuple bufferless
    have shorter : (Outline.encodings shown).length < (Outline.tuple shown).encoding.length := by
      simp [Outline.encoding, Outline.payload]
    refine .classify remembers Outline.plain_separated plain fixed ?_ shorter
    rw [run_tuplewise_tuple, Outline.typed]
    have stored (codes : List Typecode)
        : Simulates logger Outline.Plain holds (Outline.encodings shown).length
            (fun _ registry code => registry.get? code = some (.tuple codes))
            (Run.onSecond (Analyzer.onRegistry (Registry.intern logger (.tuple codes))))
            (Registry.intern logger (.tuple codes)) := by
      refine .ofSecond ?_ (Registry.intern_evolving logger _) ?_
      · intro own
        exact Registry.intern_matches logger (.tuple codes) own.registry
      · intro registry host code after stock sound ran
        exact sound.intern_eq_ok ran
    refine (codesOf_simulates remembers bufferless parts).next stored ?_
    intro stock later registry reached codes code all extended evolves named
    exact ⟨codes, named, all.extends extended evolves⟩
  · have leaf (items : List Shape) : value ≠ .tuple items := fun same => tuple ⟨items, same⟩
    refine .classify remembers Outline.plain_separated plain fixed ?_ (Nat.succ_pos _)
    rw [run_tuplewise_leaf leaf]
    exact resolve_simulates bufferless fixed (fixed.partsStocked leaf bufferless)

theorem codesOf_simulates (remembers : Layer.Remembers logger holds) {items : List Shape}
    {shown : List Outline} (bufferless : Shape.exportersAll items = [])
    (fixed : Shape.AllFixed items shown)
    : Simulates logger Outline.Plain holds (Outline.encodings shown).length
        (fun stock registry codes => Outline.AllStocked stock registry shown codes)
        (codesOf logger items) (Outline.typedAll logger shown) := by
  cases items with
  | nil =>
      cases fixed .fresh
      exact .ofPure _ fun _ _ => trivial
  | cons item rest =>
      obtain ⟨outline, more, rfl, ⟨first, here⟩, ⟨others, there⟩⟩ := fixed.of_cons bufferless
      rw [Outline.typedAll, codesOf, Outline.encodings_cons, List.length_append]
      have listed (code : Typecode)
          : Simulates logger Outline.Plain holds
              (outline.encoding.length + (Outline.encodings more).length)
              (fun stock registry codes =>
                ∃ tail, codes = code :: tail ∧ Outline.AllStocked stock registry more tail)
              (codesOf logger rest >>= fun codes => pure (code :: codes))
              (Outline.typedAll logger more >>= fun codes => pure (code :: codes)) := by
        have last (codes : List Typecode)
            : Simulates logger Outline.Plain holds
                (outline.encoding.length + (Outline.encodings more).length)
                (fun _ _ answer => answer = code :: codes)
                (pure (code :: codes)) (pure (code :: codes)) :=
          .ofPure _ fun _ _ => rfl
        refine ((codesOf_simulates remembers others there).wide (Nat.le_add_left _ _)).next last ?_
        rintro stock later registry reached codes _ all extended evolves rfl
        exact ⟨codes, rfl, all.extends extended evolves⟩
      have head := codeOf_simulates first here (classify_simulates remembers first here)
      refine (head.wide (Nat.le_add_right _ _)).next listed ?_
      rintro stock later registry reached code _ stocked extended evolves ⟨codes, rfl, all⟩
      exact ⟨stocked.extends extended evolves, all⟩

end

end Resolver

-----------------------------------------------------------------------------------------
-- Dispatcher and full analysis side by side
-----------------------------------------------------------------------------------------

namespace Dispatcher

/-- If the value has a fingerprint, the code is stored for it: at the value's position in the grid,
or under the fingerprint for a value without a position.
-/
def Stores (dispatcher : Dispatcher) (value : Shape) (code : Typecode) : Prop :=
  ∀ host bytes,
    (value.fingerprint.run (⟨(), host⟩ : Hosted Unit)).1 = .ok bytes
    → match value.slot? with
      | some slot => dispatcher.grid.get slot = .ok (some code)
      | none => dispatcher.table.get? bytes = some code

mutual

/-- The code is stored for the value, and if the value is a tuple, the code names a tuple type and
the codes that it lists are stored for the items, to any depth.
-/
def Knows (dispatcher : Dispatcher) (registry : Registry) : Shape → Typecode → Prop
  | .tuple items, code =>
      dispatcher.Stores (.tuple items) code
      ∧ ∃ codes,
          registry.get? code = some (.tuple codes) ∧ KnowsAll dispatcher registry items codes
  | value, code => dispatcher.Stores value code

/-- The same for values with their codes, one for one. -/
def KnowsAll (dispatcher : Dispatcher) (registry : Registry) : List Shape → List Typecode → Prop
  | [], [] => True
  | item :: rest, code :: codes =>
      Knows dispatcher registry item code ∧ KnowsAll dispatcher registry rest codes
  | _, _ => False

end

/-- If the value was given a code, the dispatcher knows the value and its parts. -/
def KnowsAnswer (value : Shape)
    (finish : Except Stop (Option Typecode) × Hosted (Dispatcher × Analyzer)) : Prop :=
  ∀ code,
    finish.1 = .ok (some code) → finish.2.own.1.Knows finish.2.own.2.registry value code

variable {dispatcher : Dispatcher} {stock : Stock} {registry : Registry}

/-- What is in stock is stored where the value belongs. -/
theorem Holds.stores (holding : dispatcher.Holds stock) {value : Shape} {outline : Outline}
    (fixed : value.Fixed outline) {code : Typecode} (here : outline.InStock stock code)
    : dispatcher.Stores value code := by
  intro host bytes printed
  obtain ⟨encodable, rfl⟩ := Shape.printed_of_views (fixed host) printed
  have found := here encodable
  cases position : value.slot? with
  | some slot =>
      have served := Shape.served_of_slot position
      rw [Shape.fingerprint_of_slot position] at printed
      rw [← Except.ok.inj printed, holding.served slot served] at found
      exact (holding.sound.get served).trans (congrArg Except.ok found)
  | none =>
      have foreign (slot : GridSlot) (served : slot.Served)
          : outline.encoding ≠ slot.fingerprint :=
        Shape.fingerprint_ne_slot position printed served
      exact (holding.others _ foreign).symm.trans found

mutual

/-- What is in stock with its parts is known to the dispatcher, by induction over the value. -/
theorem Holds.knows (holding : dispatcher.Holds stock) {value : Shape} {outline : Outline}
    (bufferless : value.exporters = []) (fixed : value.Fixed outline) {code : Typecode}
    (stocked : outline.Stocked stock registry code)
    : dispatcher.Knows registry value code := by
  cases value with
  | tuple items =>
      obtain ⟨shown, rfl, parts⟩ := fixed.of_tuple bufferless
      obtain ⟨here, codes, named, all⟩ := stocked
      exact ⟨holding.stores fixed here, codes, named, holding.knowsAll bufferless parts all⟩
  | _ => exact holding.stores fixed stocked.1

theorem Holds.knowsAll (holding : dispatcher.Holds stock) {items : List Shape}
    {shown : List Outline} (bufferless : Shape.exportersAll items = [])
    (fixed : Shape.AllFixed items shown) {codes : List Typecode}
    (all : Outline.AllStocked stock registry shown codes)
    : dispatcher.KnowsAll registry items codes := by
  cases items with
  | nil =>
      cases fixed .fresh
      cases codes with
      | nil => trivial
      | cons code codes => exact all
  | cons item rest =>
      obtain ⟨outline, more, rfl, ⟨first, here⟩, ⟨others, there⟩⟩ := fixed.of_cons bufferless
      cases codes with
      | nil => exact all
      | cons code codes =>
          exact ⟨holding.knows first here all.1, holding.knowsAll others there all.2⟩

end

/-- The registry is sound, and the dispatcher's stock is thorough about it. -/
def Informed (logger : Logger) (cached : Hosted (Dispatcher × Analyzer)) : Prop :=
  cached.own.2.registry.Sound
  ∧ ∃ stock,
      cached.own.1.Holds stock ∧ stock.Thorough logger Outline.Plain cached.own.2.registry

/-- One classification by items does what full analysis does, and the parts of the value are known
to the dispatcher afterwards.
-/
theorem Informed.classify (spares : logger.SparesLayers) {value : Shape}
    (bufferless : value.exporters = []) {cached : Hosted (Dispatcher × Analyzer)}
    (informed : Informed logger cached) (direct : Hosted Analyzer)
    (same : cached.own.2.registry = direct.own.registry)
    : let finish := (Resolver.classify logger (Resolver.tuplewise logger) value).run cached
      Transparent finish ((Analyzer.typeOf logger value).run direct)
      ∧ Informed logger finish.2
      ∧ KnowsAnswer value finish := by
  intro finish
  obtain ⟨⟨dispatcher, own⟩, host⟩ := cached
  obtain ⟨⟨registry, requests⟩, host'⟩ := direct
  obtain ⟨sound, stock, holding, thorough⟩ := informed
  cases (show own.registry = registry from same)
  obtain ⟨outline, fixed⟩ := Shape.fixed_of_bufferless bufferless
  obtain ⟨outcome, registries, evolves, later, held, kept, -, -, achieved⟩ :=
    Resolver.classify_simulates (remembers spares) bufferless fixed holding sound thorough host
      host'
  have steady := (Shape.within_of_bufferless bufferless).steady
  have typed := Registry.typeOf_matches_typed logger steady (fixed .fresh)
  obtain ⟨answers, leaves⟩ := typed own.registry host' host'
  rw [Run.run_map] at outcome registries evolves kept achieved
  refine ⟨⟨?_, ?_⟩, ⟨?_, later, held, ?_⟩, ?_⟩
  · exact outcome.trans (congrArg (Except.map some) answers.symm)
  · exact registries.trans leaves.symm
  · rw [show finish.2.own.2.registry = _ from registries]
    exact evolves.sound sound
  · rw [show finish.2.own.2.registry = _ from registries]
    exact kept
  · intro code answered
    obtain ⟨other, same, stocked⟩ := achieved (some code) (outcome.symm.trans answered)
    cases same
    rw [show finish.2.own.2.registry = _ from registries]
    exact held.knows bufferless fixed stocked

theorem ofRegistry_evolving (logger : Logger) : Registry.Evolving (ofRegistry logger) := by
  refine (Registry.internKinds_evolving logger ElementaryKind.all).next ?_
  intro names state
  cases ElementaryCodes.ofNames names <;> exact .refl

/-- Classification through a new dispatcher over any registry, with tuples typed by their items, is
full analysis: on any values without buffers, one after the other, it returns the same codes and the
same failures, and the registries stay the same. After every answer the dispatcher has a code for
each part of the value that has a fingerprint, at any depth: the one that the type of the enclosing
tuple lists.
-/
theorem typed_by_items (spares : logger.SparesLayers) {start : Registry} (initial : start.Initial)
    (resolutions : Nat) (requests : List (Analyzer.Request × Host)) {dispatcher : Dispatcher}
    {before : Host} {after : Hosted Registry}
    (installed
      : (ofRegistry logger).run
          ⟨(Analyzer.serve logger ⟨start, resolutions⟩ requests).registry, before⟩
        = (.ok dispatcher, after))
    {values : List Shape} (bufferless : ∀ value ∈ values, value.exporters = [])
    (host host' : Host) (counted counted' : Nat)
    : let cached :=
        Run.each (Resolver.classify logger (Resolver.tuplewise logger)) values
          ⟨(dispatcher, ⟨after.own, counted⟩), host⟩
      let direct :=
        Run.each (Analyzer.typeOf logger) values ⟨⟨after.own, counted'⟩, host'⟩
      List.Forall₂ Transparent cached direct ∧ List.Forall₂ KnowsAnswer values cached := by
  intro cached direct
  obtain ⟨elementary, rfl⟩ := ofRegistry_eq_ok installed
  have reached := Analyzer.serve_evolves logger ⟨start, resolutions⟩ requests
  have made := (ofRegistry_evolving logger).ends installed
  have informed (host : Host)
      : Informed logger ⟨(ofCodes elementary, ⟨after.own, counted⟩), host⟩ :=
    ⟨made.sound (reached.sound initial.sound), .empty, holds_ofCodes elementary, .ofEmpty _⟩
  constructor
  · refine Run.each_related
      (fun cached direct =>
        Informed logger cached ∧ cached.own.2.registry = direct.own.registry)
      ?_ ⟨informed host, rfl⟩
    rintro value member cached direct ⟨informed, same⟩
    obtain ⟨agrees, informed, -⟩ :=
      informed.classify spares (bufferless value member) direct same
    exact ⟨agrees, informed, agrees.registry⟩
  · refine Run.each_ensures (Informed logger) ?_ (informed host)
    intro value member cached informed
    obtain ⟨-, informed, known⟩ :=
      informed.classify spares (bufferless value member) ⟨cached.own.2, cached.host⟩ rfl
    exact ⟨known, informed⟩

/-- Arrays, an object without fingerprint and tuples of them, met again at several depths. -/
theorem typed_by_items_nested
    : let pair : Shape := .tuple [.array ⟨2, ⟨1⟩, true, .scalar .float64⟩, .foreign ⟨7⟩]
      let values := [.tuple [.tuple [.int, .bytes], pair, .tuple [.int, .bytes]], pair, .int]
      let requests := [(Analyzer.Request.typeOf .bytes, Host.fresh)]
      Registry.Initial .empty
      ∧ (∀ value ∈ values, value.exporters = [])
      ∧ ∃ dispatcher after,
          (ofRegistry .steady).run
              ⟨(Analyzer.serve .steady ⟨.empty, 0⟩ requests).registry, .fresh⟩
            = (.ok dispatcher, after)
          ∧ let cached :=
              Run.each (Resolver.classify .steady (Resolver.tuplewise .steady)) values
                ⟨(dispatcher, ⟨after.own, 0⟩), .fresh⟩
            let direct := Run.each (Analyzer.typeOf .steady) values ⟨⟨after.own, 0⟩, .fresh⟩
            List.Forall₂ Transparent cached direct ∧ List.Forall₂ KnowsAnswer values cached := by
  intro pair values requests
  have bufferless : ∀ value ∈ values, value.exporters = [] := by
    intro value member
    simp only [values, List.mem_cons, List.not_mem_nil, or_false] at member
    rcases member with rfl | rfl | rfl <;> rfl
  refine ⟨.empty, bufferless, ?_⟩
  have succeeds
      : ((ofRegistry .steady).run
          ⟨(Analyzer.serve .steady ⟨.empty, 0⟩ requests).registry, .fresh⟩).1.isOk = true := by
    cbv
  cases installed : (ofRegistry .steady).run
      ⟨(Analyzer.serve .steady ⟨.empty, 0⟩ requests).registry, .fresh⟩ with
  | mk outcome after =>
      rw [installed] at succeeds
      cases outcome with
      | error ending => cases succeeds
      | ok dispatcher =>
          exact ⟨dispatcher, after, rfl,
            typed_by_items Logger.steady_sparesLayers .empty 0 requests installed bufferless .fresh
              .fresh 0 0⟩

end Dispatcher

end Typecodes
