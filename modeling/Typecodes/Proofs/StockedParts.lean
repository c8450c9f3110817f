import Typecodes.Proofs.FaithfulStock
import Typecodes.Proofs.StructuralTypes

/-! Stocks that have the parts of what they have. A resolver may go back to the layer that called it
and have the items of a tuple classified there. Such a run does what a run on the registry alone
does, and of every tuple in stock the items are in stock as well, under the codes that the tuple's
type lists.
-/

namespace Typecodes

-----------------------------------------------------------------------------------------
-- Parts in stock
-----------------------------------------------------------------------------------------

namespace Stock

/-- The later stock has every code of the earlier one. -/
def Extends (stock later : Stock) : Prop :=
  ∀ bytes code, stock.code? bytes = some code → later.code? bytes = some code

theorem Extends.refl (stock : Stock) : stock.Extends stock :=
  fun _ _ found => found

theorem Extends.trans {first second third : Stock} (left : first.Extends second)
    (right : second.Extends third)
    : first.Extends third :=
  fun bytes code found => right bytes code (left bytes code found)

theorem extends_add {stock : Stock} {bytes : Bytes} (vacant : stock.code? bytes = none)
    (code : Typecode)
    : stock.Extends (stock.add bytes code) := by
  intro other stored found
  have apart : other ≠ bytes := by
    rintro rfl
    cases vacant.symm.trans found
  simp only [add, apart, if_false, found]

end Stock

namespace Outline

/-- The code is in stock for the outline, if the outline has a fingerprint. -/
def InStock (stock : Stock) (outline : Outline) (code : Typecode) : Prop :=
  outline.encodable = true → stock.code? outline.encoding = some code

mutual

/-- The parts of a tuple are in stock, to any depth, under the codes that the type of the tuple
lists. Nothing is asked of an outline that is no tuple.
-/
def PartsStocked (stock : Stock) (registry : Registry) : Outline → Typecode → Prop
  | .tuple items, code =>
      ∃ codes,
        registry.get? code = some (.tuple codes) ∧ AllStocked stock registry items codes
  | _, _ => True

/-- Outlines and their parts are in stock under the codes, one for one. -/
def AllStocked (stock : Stock) (registry : Registry) : List Outline → List Typecode → Prop
  | [], [] => True
  | item :: rest, code :: codes =>
      (item.InStock stock code ∧ PartsStocked stock registry item code)
      ∧ AllStocked stock registry rest codes
  | _, _ => False

end

/-- The outline and its parts are in stock. -/
def Stocked (stock : Stock) (registry : Registry) (outline : Outline) (code : Typecode) : Prop :=
  outline.InStock stock code ∧ outline.PartsStocked stock registry code

variable {stock later : Stock} {registry reached : Registry}

theorem inStock_add (stock : Stock) (outline : Outline) (code : Typecode)
    : outline.InStock (stock.add outline.encoding code) code := by
  intro
  simp only [Stock.add, if_true]

theorem InStock.extends {outline : Outline} {code : Typecode} (here : outline.InStock stock code)
    (extended : stock.Extends later)
    : outline.InStock later code :=
  fun encodable => extended _ _ (here encodable)

mutual

/-- Parts in stock stay there, by induction over the outline. -/
theorem PartsStocked.extends {outline : Outline} {code : Typecode}
    (parts : outline.PartsStocked stock registry code) (extended : stock.Extends later)
    (evolves : registry.Evolves reached)
    : outline.PartsStocked later reached code := by
  cases outline with
  | tuple items =>
      obtain ⟨codes, named, all⟩ := parts
      exact ⟨codes, evolves.get? named, all.extends extended evolves⟩
  | _ => trivial

theorem AllStocked.extends {items : List Outline} {codes : List Typecode}
    (all : AllStocked stock registry items codes) (extended : stock.Extends later)
    (evolves : registry.Evolves reached)
    : AllStocked later reached items codes := by
  cases items with
  | nil => cases codes <;> exact all
  | cons item rest =>
      cases codes with
      | nil => exact all
      | cons code codes =>
          exact ⟨⟨all.1.1.extends extended, all.1.2.extends extended evolves⟩,
            all.2.extends extended evolves⟩

end

theorem Stocked.extends {outline : Outline} {code : Typecode}
    (stocked : outline.Stocked stock registry code) (extended : stock.Extends later)
    (evolves : registry.Evolves reached)
    : outline.Stocked later reached code :=
  ⟨stocked.1.extends extended, stocked.2.extends extended evolves⟩

end Outline

/-- Every code in stock is the one that the registry gives to an outline of the family, whose parts
are in stock as well.
-/
def Stock.Thorough (logger : Logger) (family : Outline → Prop) (stock : Stock)
    (registry : Registry)
    : Prop :=
  ∀ bytes code,
    stock.code? bytes = some code
    → ∃ outline : Outline,
        outline.encodable = true
        ∧ family outline
        ∧ bytes = outline.encoding
        ∧ outline.Settled logger registry code
        ∧ outline.Stocked stock registry code

/-- A value that shows an outline has no other fingerprint than the outline's bytes. -/
theorem Shape.printed_of_views {value : Shape} {outline : Outline} {host after : Host}
    {bytes : Bytes} (views : value.outline.run ⟨(), host⟩ = (.ok outline, ⟨(), after⟩))
    (printed : (value.fingerprint.run (⟨(), host⟩ : Hosted Unit)).1 = .ok bytes)
    : outline.encodable = true ∧ bytes = outline.encoding := by
  obtain ⟨shown, again, encodable, same, -⟩ := fingerprint_eq_ok (Run.run_of_outcome printed)
  cases views.symm.trans again
  exact ⟨encodable, same⟩

variable {logger : Logger} {family : Outline → Prop}

namespace Stock.Thorough

variable {stock later : Stock} {registry reached : Registry}

theorem ofEmpty (registry : Registry) : Stock.empty.Thorough logger family registry :=
  nofun

theorem evolves (thorough : stock.Thorough logger family registry)
    (evolves : registry.Evolves reached)
    : stock.Thorough logger family reached := by
  intro bytes code found
  obtain ⟨outline, encodable, member, same, settled, stocked⟩ := thorough bytes code found
  exact ⟨outline, encodable, member, same, settled.grows evolves.grows,
    stocked.extends (.refl stock) evolves⟩

/-- A code in stock for an outline of the family is the one that the registry gives to that very
outline.
-/
theorem found (thorough : stock.Thorough logger family registry)
    (separated : Outline.Separated family) {outline : Outline} {code : Typecode}
    (member : family outline) (encodable : outline.encodable = true)
    (found : stock.code? outline.encoding = some code)
    : outline.Settled logger registry code ∧ outline.Stocked stock registry code := by
  obtain ⟨other, encodable', member', same, settled, stocked⟩ := thorough _ _ found
  obtain rfl := separated member member' encodable encodable' same
  exact ⟨settled, stocked⟩

/-- A stock stays thorough when it learns the code of an outline whose parts are in stock. -/
theorem add {outline : Outline} {code : Typecode} (thorough : stock.Thorough logger family registry)
    (vacant : stock.code? outline.encoding = none) (encodable : outline.encodable = true)
    (member : family outline) (settled : outline.Settled logger registry code)
    (parts : outline.PartsStocked stock registry code)
    : (stock.add outline.encoding code).Thorough logger family registry := by
  have extended := Stock.extends_add vacant code
  intro bytes other found
  by_cases same : bytes = outline.encoding
  · simp only [Stock.add, same, if_true, Option.some.injEq] at found
    subst found
    exact ⟨outline, encodable, member, same, settled, outline.inStock_add stock code,
      parts.extends extended .refl⟩
  · simp only [Stock.add, same, if_false] at found
    obtain ⟨outline', encodable', member', same', settled', stocked⟩ := thorough bytes other found
    exact ⟨outline', encodable', member', same', settled', stocked.extends extended .refl⟩

end Stock.Thorough

-----------------------------------------------------------------------------------------
-- Runs on a layer and runs on the registry alone
-----------------------------------------------------------------------------------------

namespace Layer

variable {σ κ α β : Type} {holds : σ → Stock → Prop} {bound wider : Nat}

/-- A run on a layer ends as a run on the registry alone, with the same registry. Meanwhile the
stock only grew, and not under any fingerprint longer than the bound; an answer achieves something
of stock and registry.
-/
structure Agrees (logger : Logger) (family : Outline → Prop) (holds : σ → Stock → Prop)
    (bound : Nat) (achieved : Stock → Registry → α → Prop) (stock : Stock) (registry : Registry)
    (finish : Except Stop α × Hosted (σ × Analyzer)) (direct : Except Stop α × Hosted Registry)
    : Prop where
  outcome : finish.1 = direct.1
  same : finish.2.own.2.registry = direct.2.own
  evolves : registry.Evolves direct.2.own
  stocked
    : ∃ later,
        holds finish.2.own.1 later
        ∧ later.Thorough logger family direct.2.own
        ∧ stock.Extends later
        ∧ (∀ bytes : Bytes, bound < bytes.length → later.code? bytes = stock.code? bytes)
        ∧ ∀ answer, direct.1 = .ok answer → achieved later direct.2.own answer

namespace Agrees

variable {stock : Stock} {registry : Registry}

theorem imp {achieved total : Stock → Registry → α → Prop}
    {finish : Except Stop α × Hosted (σ × Analyzer)} {direct : Except Stop α × Hosted Registry}
    (agrees : Agrees logger family holds bound achieved stock registry finish direct)
    (implies
      : ∀ ⦃later reached answer⦄,
          stock.Extends later
          → registry.Evolves reached
          → achieved later reached answer
          → total later reached answer)
    : Agrees logger family holds bound total stock registry finish direct := by
  obtain ⟨outcome, same, evolves, later, held, kept, extended, spared, achieves⟩ := agrees
  exact ⟨outcome, same, evolves, later, held, kept, extended, spared,
    fun answer answered => implies extended evolves (achieves answer answered)⟩

/-- Runs in a row agree if the first ones do and the second ones do wherever the first ones may have
led to.
-/
theorem next {first : Stock → Registry → α → Prop} {total : Stock → Registry → β → Prop}
    {work : Run (σ × Analyzer) α} {direct : Run Registry α} {more : α → Run (σ × Analyzer) β}
    {others : α → Run Registry β} {state : Hosted (σ × Analyzer)} {state' : Hosted Registry}
    (sound : registry.Sound) (within : bound ≤ wider)
    (early
      : Agrees logger family holds bound first stock registry (work.run state)
          (direct.run state'))
    (late
      : ∀ ⦃answer layer own later host host'⦄,
          direct.run state' = (.ok answer, ⟨own.registry, host'⟩)
          → holds layer later
          → own.registry.Sound
          → later.Thorough logger family own.registry
          → (∀ bytes : Bytes, bound < bytes.length → later.code? bytes = stock.code? bytes)
          → first later own.registry answer
          → Agrees logger family holds wider total later own.registry
              ((more answer).run ⟨(layer, own), host⟩)
              ((others answer).run ⟨own.registry, host'⟩))
    : Agrees logger family holds wider total stock registry ((work >>= more).run state)
        ((direct >>= others).run state') := by
  rw [Run.run_bind, Run.run_bind]
  cases ran : work.run state with
  | mk outcome middle =>
      cases ran' : direct.run state' with
      | mk outcome' middle' =>
          rw [ran, ran'] at early
          obtain ⟨outcomes, registries, evolves, later, held, kept, extended, spared, achieves⟩ :=
            early
          obtain ⟨⟨layer, own⟩, left⟩ := middle
          obtain ⟨reached, left'⟩ := middle'
          cases (show own.registry = reached from registries)
          cases (show outcome = outcome' from outcomes)
          cases outcome with
          | error ending =>
              exact ⟨rfl, rfl, evolves, later, held, kept, extended,
                fun bytes long => spared bytes (within.trans_lt long), nofun⟩
          | ok answer =>
              obtain ⟨outcomes', registries', evolves', last, held', kept', extended', spared',
                achieves'⟩ :=
                late ran' held (evolves.sound sound) kept spared (achieves answer rfl)
              exact ⟨outcomes', registries', evolves.trans evolves', last, held', kept',
                extended.trans extended',
                fun bytes long =>
                  (spared' bytes long).trans (spared bytes (within.trans_lt long)),
                achieves'⟩

end Agrees

/-- From any thorough stock and sound registry, the run on the layer agrees with the run on the
registry alone, whatever the hosts.
-/
def Simulates (logger : Logger) (family : Outline → Prop) (holds : σ → Stock → Prop) (bound : Nat)
    (achieved : Stock → Registry → α → Prop) (work : Run (σ × Analyzer) α)
    (direct : Run Registry α)
    : Prop :=
  ∀ ⦃layer own stock⦄,
    holds layer stock
    → own.registry.Sound
    → stock.Thorough logger family own.registry
    → ∀ host host',
        Agrees logger family holds bound achieved stock own.registry
          (work.run ⟨(layer, own), host⟩) (direct.run ⟨own.registry, host'⟩)

namespace Simulates

theorem ofPure {achieved : Stock → Registry → α → Prop} (answer : α)
    (achieves : ∀ stock registry, achieved stock registry answer)
    : Simulates logger family holds bound achieved (pure answer) (pure answer) := by
  intro layer own stock holding sound thorough host host'
  exact ⟨rfl, rfl, .refl, stock, holding, thorough, .refl stock, fun _ _ => rfl,
    fun other same => Except.ok.inj same ▸ achieves stock own.registry⟩

/-- A run that leaves the layer alone. -/
theorem ofSecond {achieved : Stock → Registry → α → Prop} {work : Run Analyzer α}
    {direct : Run Registry α}
    (same
      : ∀ own host host',
          (work.run ⟨own, host⟩).1 = (direct.run ⟨own.registry, host'⟩).1
          ∧ (work.run ⟨own, host⟩).2.own.registry = (direct.run ⟨own.registry, host'⟩).2.own)
    (evolving : Registry.Evolving direct)
    (achieves
      : ∀ ⦃registry host answer after⦄ (stock : Stock),
          registry.Sound
          → direct.run ⟨registry, host⟩ = (.ok answer, after)
          → achieved stock after.own answer)
    : Simulates logger family holds bound achieved (Run.onSecond work) direct := by
  intro layer own stock holding sound thorough host host'
  obtain ⟨outcome, registries⟩ := same own host.rested host'
  have evolves := evolving ⟨own.registry, host'⟩
  refine ⟨outcome, registries, evolves, stock, holding, thorough.evolves evolves, .refl stock,
    fun _ _ => rfl, ?_⟩
  intro answer answered
  exact achieves stock sound (Run.run_of_outcome answered)

/-- Runs in a row, the second of which finds what the first has achieved. -/
theorem next {first : Stock → Registry → α → Prop} {second : α → Stock → Registry → β → Prop}
    {total : Stock → Registry → β → Prop} {work : Run (σ × Analyzer) α} {direct : Run Registry α}
    {more : α → Run (σ × Analyzer) β} {others : α → Run Registry β}
    (left : Simulates logger family holds bound first work direct)
    (right
      : ∀ answer,
          Simulates logger family holds bound (second answer) (more answer) (others answer))
    (combine
      : ∀ ⦃stock later registry reached answer last⦄,
          first stock registry answer
          → stock.Extends later
          → registry.Evolves reached
          → second answer later reached last
          → total later reached last)
    : Simulates logger family holds bound total (work >>= more) (direct >>= others) := by
  intro layer own stock holding sound thorough host host'
  refine .next sound (le_refl bound) (left holding sound thorough host host') ?_
  intro answer layer' own' later host host' _ held sound' kept _ achieved
  refine (right answer held sound' kept host host').imp ?_
  intro last reached other extended evolves
  exact combine achieved extended evolves

theorem wide {achieved : Stock → Registry → α → Prop} {work : Run (σ × Analyzer) α}
    {direct : Run Registry α} (simulates : Simulates logger family holds bound achieved work direct)
    (within : bound ≤ wider)
    : Simulates logger family holds wider achieved work direct := by
  intro layer own stock holding sound thorough host host'
  obtain ⟨outcome, registries, evolves, later, held, kept, extended, spared, achieves⟩ :=
    simulates holding sound thorough host host'
  exact ⟨outcome, registries, evolves, later, held, kept, extended,
    fun bytes long => spared bytes (within.trans_lt long), achieves⟩

/-- The notes around a resolver call are no matter of layer and registry. -/
theorem ofCall {achieved : Stock → Registry → Typecode → Prop}
    {resolve : Run (σ × Analyzer) Typecode} {direct : Run Registry Typecode}
    (resolved : Simulates logger family holds bound achieved resolve direct) (key : Option Key)
    (value : Shape)
    : Simulates logger family holds bound achieved (call key value resolve) direct := by
  intro layer own stock holding sound thorough host host'
  have agrees := resolved holding sound thorough (host.note (.called key value)) host'
  exact ⟨agrees.outcome, agrees.same, agrees.evolves, agrees.stocked⟩

end Simulates

/-- A classification on a layer that remembers does what typing the value's outline does, if the
resolver does that and stores nothing but parts of the value, which are shorter than the value. In
the end the value and its parts are in stock. The cases are what the layer says about the value.
-/
theorem Simulates.classify [Layer σ κ] (remembers : Layer.Remembers logger holds)
    (separated : Outline.Separated family) {value : Shape} {outline : Outline}
    (member : family outline)
    (views : ∀ host, value.outline.run ⟨(), host⟩ = (.ok outline, ⟨(), host⟩))
    {resolve : Run (σ × Analyzer) Typecode}
    (resolved
      : Simulates logger family holds bound
          (fun stock registry code => outline.PartsStocked stock registry code)
          resolve (outline.typed logger))
    (shorter : bound < outline.encoding.length)
    : Simulates logger family holds outline.encoding.length
        (fun stock registry answer =>
          ∃ code, answer = some code ∧ outline.Stocked stock registry code)
        (Layer.classify logger value resolve) (some <$> outline.typed logger) := by
  intro layer own stock holding sound thorough host host'
  obtain ⟨said, probed, looked, -, speaks⟩ := remembers holding value host
  have beside
      : (Run.onFirst (Layer.probe logger value)).run ⟨(layer, own), host⟩
        = (.ok said, ⟨(layer, own), probed⟩) := by
    rw [Run.run_onFirst, looked]
  rw [Layer.classify, Run.run_bind_ok _ beside]
  generalize shown : (value.fingerprint.run (⟨(), host⟩ : Hosted Unit)).1 = outcome at speaks
  cases speaks with
  | @known bytes code found =>
      obtain ⟨encodable, rfl⟩ := Shape.printed_of_views (views host) shown
      -- The registry has typed this outline before and would answer the same code again.
      obtain ⟨settled, stocked⟩ := thorough.found separated member encodable found
      rw [Run.run_map, settled own.registry (.refl _) host']
      exact ⟨rfl, rfl, .refl, stock, holding, thorough, .refl stock, fun _ _ => rfl,
        fun answer same => ⟨code, (Except.ok.inj same).symm, stocked⟩⟩
  | @missing bytes key vacant stores =>
      obtain ⟨encodable, rfl⟩ := Shape.printed_of_views (views host) shown
      have called :=
        resolved.ofCall (some (Layer.key σ key)) value holding sound thorough probed host'
      refine .next sound shorter.le called ?_
      intro code layer' own' later left left' typed held sound' kept spared parts
      have settled := Outline.settled_of_typed typed
      -- The resolver stored nothing as long as the value, so the fingerprint is still vacant.
      have vacant' : later.code? outline.encoding = none := (spared _ shorter).trans vacant
      obtain ⟨next, after, stored, -, held'⟩ := stores held vacant' code left
      have added := Stock.extends_add vacant' code
      have ends
          : (Run.onFirst (Layer.store logger key code)).run ⟨(layer', own'), left⟩
            = (.ok code, ⟨(next, own'), after⟩) := by
        rw [Run.run_onFirst, stored]
      rw [Run.run_bind_ok _ ends]
      refine ⟨rfl, rfl, .refl, _, held', kept.add vacant' encodable member settled parts, added,
        ?_, ?_⟩
      · intro bytes long
        have apart : bytes ≠ outline.encoding := by
          rintro rfl
          exact lt_irrefl _ long
        simp only [Stock.add, apart, if_false]
      · rintro answer ⟨⟩
        exact ⟨code, rfl, outline.inStock_add later code, parts.extends added .refl⟩
  | uncached =>
      have unprinted : ¬outline.encodable = true := by
        intro encodable
        cases (congrArg Prod.fst (Shape.fingerprint_of_outline (views host) encodable)).symm.trans
          shown
      have told (code : Typecode)
          : Simulates logger family holds bound (fun _ _ answer => answer = some code)
              (pure (some code) : Run (σ × Analyzer) (Option Typecode)) (pure (some code)) :=
        .ofPure _ fun _ _ => rfl
      refine ((resolved.ofCall none value).next told ?_).wide shorter.le holding sound thorough
        probed host'
      rintro _ later _ reached code answer parts extended evolves rfl
      exact ⟨code, rfl, fun encodable => absurd encodable unprinted,
        parts.extends extended evolves⟩

end Layer

end Typecodes
