import Mathlib
import Typecodes.Proofs.AnalysisSteps
import Typecodes.Proofs.NamedTypes
import Typecodes.Proofs.Traversals

/-! What codes unfold to. Full analysis stores the items of a tuple before the tuple, so a tuple
type lists codes that are smaller than its own, and replacing codes by the types that they name
comes to an end. What a code unfolds to never changes, and the code that is answered for a value
unfolds to the structural type of the value.
-/

namespace Typecodes

namespace Registry

-----------------------------------------------------------------------------------------
-- Unfolding
-----------------------------------------------------------------------------------------

/-- What a code stands for: the type that it names, with the codes of a tuple type unfolded in turn.
There is no answer if tuples are nested beyond the depth, or if a code names nothing.
-/
def unfoldTo (registry : Registry) : Nat → Typecode → Option Outline
  | 0, _ => none
  | depth + 1, code =>
      match registry.get? code with
      | some (.tuple items) => (items.mapM (registry.unfoldTo depth)).map .tuple
      | some leaf => some (.ofNode leaf)
      | none => none

/-- The one code is listed by the tuple type that the other one names. -/
def ItemOf (registry : Registry) (item code : Typecode) : Prop :=
  ∃ items, registry.get? code = some (.tuple items) ∧ item ∈ items

/-- Every tuple type lists codes that are smaller than its own. -/
def Ordered (registry : Registry) : Prop :=
  ∀ item code, registry.ItemOf item code → item.toNat < code.toNat

variable {registry earlier later : Registry}

theorem ordered_empty : empty.Ordered := by
  rintro item code ⟨items, named, -⟩
  exact absurd (lt_of_get? named) (Nat.not_lt_zero _)

/-- From a code to the codes that it lists, and on to those that they list, every way ends. -/
theorem Ordered.wellFounded (ordered : registry.Ordered) : WellFounded registry.ItemOf := by
  apply Subrelation.wf (r := fun first second : Typecode => first.toNat < second.toNat)
  · intro item code listed
    exact ordered item code listed
  · exact (measure Typecode.toNat).wf

theorem unfoldTo_tuple {code : Typecode} {items : List Typecode}
    (named : registry.get? code = some (.tuple items)) (depth : Nat)
    : registry.unfoldTo (depth + 1) code
      = (items.mapM (registry.unfoldTo depth)).map .tuple := by
  simp only [unfoldTo, named]

theorem unfoldTo_leaf {code : Typecode} {node : TypeNode} (named : registry.get? code = some node)
    (leaf : ∀ items, node ≠ .tuple items) (depth : Nat)
    : registry.unfoldTo (depth + 1) code = some (.ofNode node) := by
  cases node with
  | tuple items => exact absurd rfl (leaf items)
  | _ => simp only [unfoldTo, named]

/-- A code that unfolds names a type. -/
theorem named_of_unfoldTo {depth : Nat} {code : Typecode} {outline : Outline}
    (unfolds : registry.unfoldTo depth code = some outline)
    : ∃ node, registry.get? code = some node := by
  cases depth with
  | zero => cases unfolds
  | succ depth =>
      cases named : registry.get? code with
      | some node => exact ⟨node, rfl⟩
      | none => simp [unfoldTo, named] at unfolds

/-- What a code unfolds to, it unfolds to ever after, by induction over the depth. -/
theorem Evolves.unfoldTo (evolves : earlier.Evolves later) {depth : Nat} {code : Typecode}
    {outline : Outline} (unfolds : earlier.unfoldTo depth code = some outline)
    : later.unfoldTo depth code = some outline := by
  induction depth generalizing code outline with
  | zero => cases unfolds
  | succ depth ih =>
      obtain ⟨node, named⟩ := named_of_unfoldTo unfolds
      have kept := evolves.get? named
      cases node with
      | tuple items =>
          rw [unfoldTo_tuple named, Option.map_eq_some_iff] at unfolds
          rw [unfoldTo_tuple kept, Option.map_eq_some_iff]
          obtain ⟨outlines, all, same⟩ := unfolds
          refine ⟨outlines, ?_, same⟩
          rw [List.mapM_eq_some_iff_forall₂] at all ⊢
          exact all.imp fun item outline known => ih known
      | _ =>
          rw [unfoldTo_leaf named nofun] at unfolds
          rw [unfoldTo_leaf kept nofun, unfolds]

/-- Every code of an ordered registry unfolds, to the same at every depth beyond its own number.
Witness: induction over the number of the code, to which every listed code is smaller.
-/
theorem Ordered.unfolds (ordered : registry.Ordered) {code : Typecode}
    (inside : code.toNat < registry.size)
    : ∃ outline, ∀ depth, code.toNat < depth → registry.unfoldTo depth code = some outline := by
  induction number : code.toNat using Nat.strong_induction_on generalizing code with
  | _ number ih =>
      subst number
      obtain ⟨node, named⟩ := get?_of_lt inside
      by_cases tuple : ∃ items, node = .tuple items
      · obtain ⟨items, rfl⟩ := tuple
        have smaller (item : Typecode) (member : item ∈ items) : item.toNat < code.toNat :=
          ordered item code ⟨items, named, member⟩
        have : Nonempty Outline := ⟨.none⟩
        have parts (item : Typecode) (member : item ∈ items)
            : ∃ outline, ∀ depth,
                item.toNat < depth → registry.unfoldTo depth item = some outline :=
          ih item.toNat (smaller item member) ((smaller item member).trans inside) rfl
        choose! meaning unfolds using parts
        refine ⟨.tuple (items.map meaning), fun depth deep => ?_⟩
        cases depth with
        | zero => omega
        | succ depth =>
            rw [unfoldTo_tuple named, Option.map_eq_some_iff]
            refine ⟨items.map meaning, ?_, rfl⟩
            rw [List.mapM_eq_some_iff_forall₂, List.forall₂_map_right_iff, List.forall₂_same]
            intro item member
            have below := smaller item member
            exact unfolds item member depth (by omega)
      · refine ⟨.ofNode node, fun depth deep => ?_⟩
        cases depth with
        | zero => omega
        | succ depth => exact unfoldTo_leaf named (not_exists.mp tuple) depth

/-- A code that stands for a leaf unfolds to the structural type of the leaf. -/
theorem Denotes.unfoldTo_leaf {outline : Outline} {code : Typecode}
    (denotes : registry.Denotes outline code) (leaf : ∀ items, outline ≠ .tuple items) (depth : Nat)
    : registry.unfoldTo (depth + 1) code = some outline.structural := by
  have plain (items : List Typecode) : outline.node ≠ .tuple items :=
    fun same => Outline.not_node_tuple same leaf
  rw [Registry.unfoldTo_leaf (denotes.leaf leaf) plain, Outline.ofNode_node leaf]

mutual

/-- A code that stands for an outline unfolds to the structural type of the outline, by induction
over the outline.
-/
theorem Denotes.unfoldTo {outline : Outline} {code : Typecode} {depth : Nat}
    (denotes : registry.Denotes outline code) (ordered : registry.Ordered)
    (deep : code.toNat < depth)
    : registry.unfoldTo depth code = some outline.structural := by
  cases depth with
  | zero => omega
  | succ depth =>
      cases outline with
      | tuple items =>
          obtain ⟨codes, named, parts⟩ := denotes
          have smaller (item : Typecode) (member : item ∈ codes) : item.toNat < depth := by
            have below := ordered item code ⟨codes, named, member⟩
            omega
          rw [unfoldTo_tuple named, parts.unfoldTo ordered smaller]
          rfl
      | _ => exact denotes.unfoldTo_leaf nofun depth

theorem DenotesAll.unfoldTo {items : List Outline} {codes : List Typecode} {depth : Nat}
    (denotes : registry.DenotesAll items codes) (ordered : registry.Ordered)
    (deep : ∀ code ∈ codes, code.toNat < depth)
    : codes.mapM (registry.unfoldTo depth) = some (Outline.structuralAll items) := by
  match items, codes with
  | [], [] => rfl
  | item :: rest, code :: codes =>
      obtain ⟨here, there⟩ := List.forall_mem_cons.mp deep
      rw [List.mapM_cons, denotes.1.unfoldTo ordered here, denotes.2.unfoldTo ordered there]
      rfl

end

-----------------------------------------------------------------------------------------
-- Full analysis keeps the order
-----------------------------------------------------------------------------------------

variable {logger : Logger}

/-- Codes that stand for outlines are in use, by induction over the outlines. -/
theorem DenotesAll.lt {items : List Outline} {codes : List Typecode}
    (denotes : registry.DenotesAll items codes)
    : ∀ code ∈ codes, code.toNat < registry.size := by
  match items, codes with
  | [], [] => nofun
  | item :: rest, code :: codes =>
      exact List.forall_mem_cons.mpr ⟨denotes.1.lt, denotes.2.lt⟩

/-- A run that leads from sound and ordered registries to ordered ones, however it ends. -/
def KeepsOrder {α : Type} (work : Run Registry α) : Prop :=
  ∀ ⦃state outcome after⦄,
    state.own.Sound
    → state.own.Ordered
    → work.run state = (outcome, after)
    → after.own.Ordered

namespace KeepsOrder

variable {α β : Type}

theorem ofPure (answer : α) : KeepsOrder (pure answer) := by
  intro state outcome after sound ordered ran
  cases ran
  exact ordered

theorem next {work : Run Registry α} {more : α → Run Registry β} (first : KeepsOrder work)
    (evolving : Evolving work) (second : ∀ answer, KeepsOrder (more answer))
    : KeepsOrder (work >>= more) := by
  intro state outcome after sound ordered ran
  rw [Run.run_bind] at ran
  cases worked : work.run state with
  | mk answer middle =>
      have kept := first sound ordered worked
      rw [worked] at ran
      cases answer with
      | error ending =>
          cases ran
          exact kept
      | ok answer => exact second answer ((evolving.ends worked).sound sound) kept ran

end KeepsOrder

/-- Storing a type keeps the order if the codes that it lists are in use. -/
theorem intern_ordered {node : TypeNode} {state after : Hosted Registry}
    {outcome : Except Stop Typecode} (ordered : state.own.Ordered)
    (inside : ∀ items, node = .tuple items → ∀ item ∈ items, item.toNat < state.own.size)
    (ran : (intern logger node).run state = (outcome, after))
    : after.own.Ordered := by
  have cases := intern_cases logger node state
  rw [ran] at cases
  rcases cases with kept | ⟨fresh, -, next, stored⟩
  · exact kept.symm ▸ ordered
  · rintro item code ⟨items, named, member⟩
    rw [stored, get?_store] at named
    split at named
    · rename_i last
      have listed := inside items (Option.some.inj named) item member
      omega
    · exact ordered item code ⟨items, named, member⟩

mutual

/-- Full analysis keeps the order, also where it fails, by induction over the shape. A tuple is
stored after its items, whose codes are in use by then.
-/
theorem typeOf_keepsOrder (logger : Logger) (value : Shape) : KeepsOrder (typeOf logger value) := by
  intro state outcome after sound ordered ran
  rw [typeOf_eq, Run.run_bind] at ran
  cases worked : (nodeOf logger value).run state with
  | mk answer middle =>
      rw [worked] at ran
      -- Either way the codes that the type lists are in use when it is about to be stored.
      have ready
          : middle.own.Ordered
            ∧ ∀ items, answer = .ok (.tuple items) → ∀ item ∈ items, item.toNat < middle.own.size
          := by
        by_cases tuple : ∃ items, value = .tuple items
        · obtain ⟨items, rfl⟩ := tuple
          cases typed : (typesOf logger items).run state with
          | mk reply finish =>
              have kept := typesOf_keepsOrder logger items sound ordered typed
              rw [nodeOf, Run.run_map, typed] at worked
              cases worked
              cases reply with
              | error ending => exact ⟨kept, nofun⟩
              | ok codes =>
                  obtain ⟨outlines, finish, -, -, denotes⟩ := typesOf_denotes sound typed rfl
                  refine ⟨kept, ?_⟩
                  rintro _ ⟨⟩
                  exact denotes.lt
        · obtain ⟨own, plain⟩ := nodeOf_leaf (not_exists.mp tuple) worked
          refine ⟨own.symm ▸ ordered, ?_⟩
          intro items same
          exact absurd same (plain items)
      cases answer with
      | error ending =>
          cases ran
          exact ready.1
      | ok node =>
          apply intern_ordered ready.1 _ ran
          rintro items rfl
          exact ready.2 items rfl

theorem typesOf_keepsOrder (logger : Logger) (items : List Shape)
    : KeepsOrder (typesOf logger items) := by
  cases items with
  | nil =>
      rw [typesOf]
      exact .ofPure _
  | cons item rest =>
      rw [typesOf]
      exact (typeOf_keepsOrder logger item).next (typeOf_evolving logger item) fun _ =>
        (typesOf_keepsOrder logger rest).next (typesOf_evolving logger rest) fun _ => .ofPure _

end

/-- Naming the elementary kinds keeps the order, by induction over the kinds. -/
theorem internKinds_keepsOrder (logger : Logger) (kinds : List ElementaryKind)
    : KeepsOrder (internKinds logger kinds) := by
  induction kinds with
  | nil => exact .ofPure _
  | cons kind rest ih =>
      have stored : KeepsOrder (intern logger (.number kind.scalar)) := by
        intro state answer after sound ordered ran
        apply intern_ordered ordered _ ran
        intro items same
        cases same
      exact stored.next (intern_evolving logger _) fun _ =>
        ih.next (internKinds_evolving logger rest) fun _ => .ofPure _

theorem Initial.ordered {start : Registry} (initial : start.Initial) : start.Ordered := by
  cases initial with
  | empty => exact ordered_empty
  | elementary =>
      exact internKinds_keepsOrder .steady ElementaryKind.all sound_empty ordered_empty rfl

end Registry

-----------------------------------------------------------------------------------------
-- Requests to an analyzer
-----------------------------------------------------------------------------------------

namespace Analyzer

variable {logger : Logger}

/-- A request for which the analyzer works out itself what it stores. -/
def Request.Analyses : Request → Prop
  | intern _ => False
  | typeOf _ | resolve _ | elementaryNames => True

/-- Such a request keeps the order, however it ends. -/
theorem Request.Analyses.ordered (logger : Logger) {request : Request}
    (analyses : request.Analyses) {analyzer : Analyzer} (sound : analyzer.registry.Sound)
    (ordered : analyzer.registry.Ordered) (host : Host)
    : ((request.perform logger).run ⟨analyzer, host⟩).2.own.registry.Ordered := by
  cases request <;> rw [perform, Run.run_map]
  case intern node => exact analyses.elim
  case typeOf value => exact Registry.typeOf_keepsOrder logger value sound ordered rfl
  case resolve value => exact Registry.typeOf_keepsOrder logger value sound ordered rfl
  case elementaryNames =>
    exact Registry.internKinds_keepsOrder logger ElementaryKind.all sound ordered rfl

/-- Such requests keep the order, by induction over the requests. -/
theorem serve_ordered {requests : List (Request × Host)}
    (analyses : ∀ request ∈ requests, request.1.Analyses) {analyzer : Analyzer}
    (sound : analyzer.registry.Sound) (ordered : analyzer.registry.Ordered)
    : (serve logger analyzer requests).registry.Ordered := by
  induction requests generalizing analyzer with
  | nil => exact ordered
  | cons request rest ih =>
      obtain ⟨first, others⟩ := List.forall_mem_cons.mp analyses
      apply ih others
      · exact (request.1.perform_evolves logger analyzer request.2).sound sound
      · exact first.ordered logger sound ordered request.2

/-- From an initial registry on, whatever values are analysed and however that ends, tuple types
list smaller codes than their own, and every code unfolds within a depth that its number bounds. The
code that is answered for a value unfolds to the structural type of the value then and after any
further requests.
-/
theorem serve_unfolds (logger : Logger) {start : Registry} (initial : start.Initial)
    (resolutions : Nat) {requests : List (Request × Host)}
    (analyses : ∀ request ∈ requests, request.1.Analyses)
    : let reached := serve logger ⟨start, resolutions⟩ requests
      reached.registry.Ordered
      ∧ WellFounded reached.registry.ItemOf
      ∧ (∀ code,
          code.toNat < reached.registry.size
          → ∃ outline, ∀ depth,
              code.toNat < depth → reached.registry.unfoldTo depth code = some outline)
      ∧ ∀ value host code after,
          (typeOf logger value).run ⟨reached, host⟩ = (.ok code, after)
          → ∃ type,
              (value.structuralType.run ⟨(), host⟩).1 = .ok type
              ∧ ∀ more depth,
                  code.toNat < depth
                  → (serve logger after.own more).registry.unfoldTo depth code = some type := by
  intro reached
  have sound : reached.registry.Sound :=
    (serve_evolves logger ⟨start, resolutions⟩ requests).sound initial.sound
  have ordered : reached.registry.Ordered := serve_ordered analyses initial.sound initial.ordered
  refine ⟨ordered, ordered.wellFounded, fun code inside => ordered.unfolds inside, ?_⟩
  intro value host code after typed
  obtain ⟨-, outline, views, denotes⟩ := typeOf_denotes sound typed
  have analysed : Request.Analyses (.typeOf value) := trivial
  have kept : after.own.registry.Ordered := by
    have later := analysed.ordered logger sound ordered host
    rwa [Request.perform, Run.run_map, typed] at later
  refine ⟨outline.structural, ?_, ?_⟩
  · rw [Shape.structuralType, Run.run_map, views]
    rfl
  · intro more depth deep
    exact (serve_evolves logger after.own more).unfoldTo (denotes.unfoldTo kept deep)

/-- A tuple within a tuple, after a tuple of which only the first item could be typed. -/
theorem serve_unfolds_nested
    : let refusing : Exporter := ⟨1, ⟨7⟩, fun _ _ => .error .unsupported⟩
      let requests := [(Request.typeOf (.tuple [.bool, .buffer refusing]), Host.fresh)]
      let reached := serve .steady ⟨.empty, 0⟩ requests
      let value := Shape.tuple [.int, .tuple [.bool, .int]]
      Registry.Initial .empty
      ∧ (∀ request ∈ requests, request.1.Analyses)
      ∧ reached.registry.Ordered
      ∧ WellFounded reached.registry.ItemOf
      ∧ (0 < reached.registry.size
        ∧ ∃ outline, ∀ depth,
            0 < depth → reached.registry.unfoldTo depth .zero = some outline)
      ∧ ∃ after,
          (typeOf .steady value).run ⟨reached, .fresh⟩ = (.ok ⟨3⟩, after)
          ∧ ∀ more depth,
              3 < depth
              → (serve .steady after.own more).registry.unfoldTo depth ⟨3⟩
                = some
                    (.tuple [.scalar (.scalar .int64),
                      .tuple [.scalar (.scalar .bool), .scalar (.scalar .int64)]]) := by
  intro refusing requests reached value
  have analyses : ∀ request ∈ requests, request.1.Analyses := by
    simp [requests, Request.Analyses]
  have left : reached = ⟨Registry.empty.store .boolean .zero, 0⟩ := by
    have next : Typecode.ofInt (Registry.size .empty) = .ok .zero := rfl
    simp [reached, requests, refusing, serve, Request.perform, Analyzer.typeOf, run_onRegistry,
      Run.run_map, Run.run_bind, Run.run_withView, Registry.typeOf, Registry.typesOf,
      Registry.run_intern, Registry.codeOf?_empty, Exporter.acquire, Exporter.ask, Logger.steady,
      next]
  have inside : 0 < reached.registry.size := by
    rw [left]
    exact Nat.one_pos
  have outcome : ((typeOf .steady value).run ⟨reached, .fresh⟩).1 = .ok ⟨3⟩ := by
    rw [left]
    cbv
  have typed := Run.run_of_outcome outcome
  obtain ⟨ordered, ends, meaning, unfolds⟩ := serve_unfolds .steady .empty 0 analyses
  obtain ⟨type, structural, shown⟩ := unfolds value .fresh ⟨3⟩ _ typed
  cases structural
  exact ⟨.empty, analyses, ordered, ends, ⟨inside, meaning .zero inside⟩, _, typed, shown⟩

end Analyzer

end Typecodes
