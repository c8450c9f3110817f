import Mathlib.Logic.Relation
import Typecodes.Analyzer

/-! How a registry grows. All that ever happens to a registry is that a new type is stored under the
next code, any number of times. Types and index stay inverse to each other in such a step, so they
do in every run, however it ends.
-/

namespace Typecodes

namespace Registry

-----------------------------------------------------------------------------------------
-- Storing one type
-----------------------------------------------------------------------------------------

theorem codeOf?_empty (node : TypeNode) : empty.codeOf? node = none :=
  Std.HashMap.getElem?_empty

theorem codeOf?_store (registry : Registry) (node other : TypeNode) (code : Typecode)
    : (registry.store node code).codeOf? other
      = if node = other then some code else registry.codeOf? other := by
  simp [codeOf?, store, Std.HashMap.getElem?_insert]

theorem get?_store (registry : Registry) (node : TypeNode) (code other : Typecode)
    : (registry.store node code).get? other
      = if other.toNat = registry.size then some node else registry.get? other := by
  simp only [get?, store, Array.getElem?_push]
  rfl

theorem size_store (registry : Registry) (node : TypeNode) (code : Typecode)
    : (registry.store node code).size = registry.size + 1 :=
  Array.size_push node

theorem get?_eq_none_iff {registry : Registry} {code : Typecode}
    : registry.get? code = none ↔ registry.size ≤ code.toNat :=
  Array.getElem?_eq_none_iff

/-- The later registry is the earlier one with a new type, stored under the next code. -/
inductive Follows : Registry → Registry → Prop
  | append {registry node code} (missing : registry.codeOf? node = none)
    (next : code.toNat = registry.size)
    : Follows registry (registry.store node code)

/-- The index is the inverse of the types, and there are no more types than codes. -/
structure Sound (registry : Registry) : Prop where
  inverse : ∀ node code, registry.codeOf? node = some code ↔ registry.get? code = some node
  bounded : registry.size ≤ typecodeCount

theorem sound_empty : empty.Sound where
  inverse node code := by
    rw [codeOf?_empty]
    simp [get?, empty]
  bounded := Nat.zero_le _

/-- Storing a new type under the next code keeps index and types inverse to each other. The cases
are whether the type asked for is the new one and whether the code asked for is the last one.
-/
theorem Follows.sound {earlier later : Registry} (follows : earlier.Follows later)
    (sound : earlier.Sound)
    : later.Sound := by
  obtain ⟨missing, next⟩ := follows
  rename_i node code
  refine ⟨?_, ?_⟩
  · intro other found
    rw [codeOf?_store, get?_store]
    by_cases same : node = other <;> by_cases last : found.toNat = earlier.size
    · subst same
      simp [last, Typecode.toNat_inj (next.trans last.symm)]
    · subst same
      have unnamed : earlier.get? found ≠ some node := by
        rw [Ne, ← sound.inverse, missing]
        exact nofun
      have apart : code ≠ found := by
        rintro rfl
        exact last next
      simp [last, apart, unnamed]
    · have vacant : earlier.get? found = none := get?_eq_none_iff.mpr (Nat.le_of_eq last.symm)
      have unindexed : earlier.codeOf? other ≠ some found := by
        rw [Ne, sound.inverse, vacant]
        exact nofun
      simp [last, same, unindexed]
    · simp only [same, last, if_false]
      exact sound.inverse other found
  · have small := code.toNat_lt
    have grown := size_store earlier node code
    omega

/-- Types are only added at the end. -/
theorem Follows.types {earlier later : Registry} (follows : earlier.Follows later)
    : earlier.types.toList <+: later.types.toList := by
  obtain ⟨missing, next⟩ := follows
  simp [store]

-----------------------------------------------------------------------------------------
-- Any number of types
-----------------------------------------------------------------------------------------

/-- The later registry comes from the earlier one by storing new types, one after the other. -/
abbrev Evolves : Registry → Registry → Prop :=
  Relation.ReflTransGen Follows

theorem Evolves.sound {earlier later : Registry} (evolves : earlier.Evolves later)
    (sound : earlier.Sound)
    : later.Sound := by
  induction evolves with
  | refl => exact sound
  | tail _ follows ih => exact follows.sound ih

theorem Evolves.types {earlier later : Registry} (evolves : earlier.Evolves later)
    : earlier.types.toList <+: later.types.toList := by
  induction evolves with
  | refl => exact List.prefix_refl _
  | tail _ follows ih => exact ih.trans follows.types

/-- A code names the same type ever after. -/
theorem Evolves.get? {earlier later : Registry} (evolves : earlier.Evolves later)
    {code : Typecode} {node : TypeNode} (named : earlier.get? code = some node)
    : later.get? code = some node := by
  obtain ⟨added, types⟩ := evolves.types
  rw [Registry.get?, ← Array.getElem?_toList] at named ⊢
  obtain ⟨bound, -⟩ := List.getElem?_eq_some_iff.mp named
  rw [← types, List.getElem?_append_left bound, named]

-----------------------------------------------------------------------------------------
-- Runs on a registry
-----------------------------------------------------------------------------------------

/-- A run that only stores new types, however it ends. -/
def Evolving {α : Type} (work : Run Registry α) : Prop :=
  ∀ state : Hosted Registry, state.own.Evolves (work.run state).2.own

namespace Evolving

variable {α β : Type}

theorem ofPure (answer : α) : Evolving (pure answer) :=
  fun _ => .refl

theorem ends {work : Run Registry α} (evolving : Evolving work) {state after : Hosted Registry}
    {outcome : Except Stop α} (ran : work.run state = (outcome, after))
    : state.own.Evolves after.own := by
  have evolves := evolving state
  rw [ran] at evolves
  exact evolves

theorem next {work : Run Registry α} {more : α → Run Registry β} (first : Evolving work)
    (second : ∀ answer, Evolving (more answer))
    : Evolving (work >>= more) := by
  intro state
  have early := first state
  rw [Run.run_bind]
  cases ran : work.run state with
  | mk outcome after =>
      rw [ran] at early
      cases outcome with
      | ok answer => exact early.trans (second answer after)
      | error ending => exact early

/-- Asking for a view is no matter of the registry. -/
theorem withView (exporter : Exporter) (refused : Refusal → Failure) {use : View → Run Registry α}
    (used : ∀ view, Evolving (use view))
    : Evolving (Run.withView exporter refused use) := by
  intro state
  rw [Run.run_withView]
  cases exporter.acquire state.host with
  | mk reply host =>
      cases reply with
      | error refusal => exact .refl
      | ok view => exact used view ⟨state.own, host⟩

end Evolving

/-- A type is stored as the last one, if at all, and only if it is new. -/
theorem intern_cases (logger : Logger) (node : TypeNode) (state : Hosted Registry)
    : ((intern logger node).run state).2.own = state.own
      ∨ ∃ code,
          state.own.codeOf? node = none
          ∧ code.toNat = state.own.size
          ∧ ((intern logger node).run state).2.own = state.own.store node code := by
  rw [run_intern]
  cases missing : state.own.codeOf? node with
  | some code => exact .inl rfl
  | none =>
      cases numbered : Typecode.ofInt state.own.size with
      | error cause => exact .inl rfl
      | ok code =>
          dsimp only
          split
          · exact .inl rfl
          · have next : code.toNat = state.own.size :=
              Int.ofNat_inj.mp (Typecode.ofInt_eq_ok.mp numbered)
            exact .inr ⟨code, rfl, next, rfl⟩

theorem intern_evolving (logger : Logger) (node : TypeNode) : Evolving (intern logger node) := by
  intro state
  rcases intern_cases logger node state with kept | ⟨code, missing, next, stored⟩
  · rw [kept]
  · rw [stored]
    exact .single (.append missing next)

/-- A type is found under its code once it was stored. -/
theorem intern_eq_ok {logger : Logger} {node : TypeNode} {state after : Hosted Registry}
    {code : Typecode} (stored : (intern logger node).run state = (.ok code, after))
    : after.own.codeOf? node = some code := by
  rw [run_intern] at stored
  cases known : state.own.codeOf? node with
  | some earlier =>
      rw [known] at stored
      cases stored
      exact known
  | none =>
      rw [known] at stored
      cases numbered : Typecode.ofInt state.own.size with
      | error cause =>
          rw [numbered] at stored
          cases stored
      | ok fresh =>
          cases panics : logger.panicsAfter (.registered fresh node) with
          | true => simp [numbered, panics] at stored
          | false =>
              simp only [numbered, panics, Bool.false_eq_true, if_false] at stored
              cases stored
              simp [codeOf?_store]

/-- What keeps a type from being stored, and that nothing else is: the type is new, and there is no
code left for it or the logger panics at its line.
-/
theorem intern_stops {logger : Logger} {node : TypeNode} {state after : Hosted Registry}
    {ending : Stop} (stopped : (intern logger node).run state = (.error ending, after))
    : state.own.codeOf? node = none
      ∧ after.own = state.own
      ∧ (ending = .failure (.invalidTypecode state.own.size)
          ∧ after = state
          ∧ typecodeCount ≤ state.own.size
        ∨ ending = .panic
          ∧ ∃ code : Typecode,
              code.toNat = state.own.size ∧ logger.panicsAfter (.registered code node) = true) := by
  rw [run_intern] at stopped
  cases missing : state.own.codeOf? node with
  | some code => simp [missing] at stopped
  | none =>
      cases numbered : Typecode.ofInt state.own.size with
      | error cause =>
          simp only [missing, numbered] at stopped
          obtain rfl := Typecode.ofInt_eq_error numbered
          cases stopped
          refine ⟨rfl, rfl, .inl ⟨rfl, rfl, ?_⟩⟩
          apply Nat.le_of_not_lt
          intro room
          have accepted : Typecode.ofInt state.own.size = .ok ⟨⟨_, room⟩⟩ :=
            Typecode.ofInt_eq_ok.mpr rfl
          cases accepted.symm.trans numbered
      | ok code =>
          have next : code.toNat = state.own.size :=
            Int.ofNat_inj.mp (Typecode.ofInt_eq_ok.mp numbered)
          simp only [missing, numbered] at stopped
          split at stopped
          · rename_i panics
            cases stopped
            exact ⟨rfl, rfl, .inr ⟨rfl, code, next, panics⟩⟩
          · cases stopped

/-- Only a full registry or a panic of the logger keeps a type from being stored. -/
theorem intern_eq_error {logger : Logger} {node : TypeNode} {state after : Hosted Registry}
    {ending : Stop} (stopped : (intern logger node).run state = (.error ending, after))
    : ending = .panic ∨ ∃ raw, ending = .failure (.invalidTypecode raw) := by
  obtain ⟨-, -, ⟨full, -⟩ | ⟨panics, -⟩⟩ := intern_stops stopped
  · exact .inr ⟨_, full⟩
  · exact .inl panics

/-- The code that is answered for a type names it. -/
theorem Sound.intern_eq_ok {logger : Logger} {node : TypeNode} {registry : Registry} {host : Host}
    {after : Hosted Registry} {code : Typecode} (sound : registry.Sound)
    (stored : (intern logger node).run ⟨registry, host⟩ = (.ok code, after))
    : after.own.get? code = some node :=
  have evolves := (intern_evolving logger node).ends stored
  ((evolves.sound sound).inverse node code).mp (Registry.intern_eq_ok stored)

/-- A stored type is answered without any change. -/
theorem intern_of_codeOf? {logger : Logger} {node : TypeNode} {registry : Registry}
    {code : Typecode} (known : registry.codeOf? node = some code) (host : Host)
    : (intern logger node).run ⟨registry, host⟩ = (.ok code, ⟨registry, host⟩) := by
  rw [run_intern]
  simp only [known]

/-- A new type is stored under the next code, unless the logger panics. -/
theorem intern_of_missing {logger : Logger} {node : TypeNode} {registry : Registry}
    {code : Typecode} (missing : registry.codeOf? node = none) (next : code.toNat = registry.size)
    (silent : logger.panicsAfter (.registered code node) = false) (host : Host)
    : (intern logger node).run ⟨registry, host⟩
      = (.ok code, ⟨registry.store node code, host.note (.line (.registered code node))⟩) := by
  have numbered : Typecode.ofInt registry.size = .ok code :=
    Typecode.ofInt_eq_ok.mpr (congrArg Nat.cast next)
  rw [run_intern]
  simp only [missing, numbered, silent, Bool.false_eq_true, if_false]

mutual

/-- Full analysis only stores new types, also where it fails, by induction over the shape. -/
theorem typeOf_evolving (logger : Logger) (value : Shape) : Evolving (typeOf logger value) := by
  cases value with
  | tuple items =>
      rw [typeOf]
      exact (typesOf_evolving logger items).next fun _ => intern_evolving logger _
  | buffer exporter =>
      rw [typeOf]
      exact (Evolving.withView exporter _ fun view => .ofPure _).next fun _ =>
        intern_evolving logger _
  | _ =>
      rw [typeOf]
      exact intern_evolving logger _

theorem typesOf_evolving (logger : Logger) (items : List Shape)
    : Evolving (typesOf logger items) := by
  cases items with
  | nil =>
      rw [typesOf]
      exact .ofPure _
  | cons item rest =>
      rw [typesOf]
      exact (typeOf_evolving logger item).next fun _ =>
        (typesOf_evolving logger rest).next fun _ => .ofPure _

end

/-- Naming the elementary kinds only stores new types, by induction over the kinds. -/
theorem internKinds_evolving (logger : Logger) (kinds : List ElementaryKind)
    : Evolving (internKinds logger kinds) := by
  induction kinds with
  | nil => exact .ofPure _
  | cons kind rest ih => exact (intern_evolving logger _).next fun _ => ih.next fun _ => .ofPure _

end Registry

end Typecodes
