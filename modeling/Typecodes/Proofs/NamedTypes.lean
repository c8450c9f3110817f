import Mathlib
import Typecodes.Proofs.StructuralTypes

/-! Which structural types a registry names. Every type that full analysis stores is a part of the
value at hand, so what a registry names after any analyses is settled by the values and not by their
order. Two registries that name the same structural types are the same up to the naming of codes.
-/

namespace Typecodes

namespace Registry

/-- Some code of the registry stands for the outline. -/
def Has (registry : Registry) (outline : Outline) : Prop :=
  ∃ code, registry.Denotes outline code

/-- Every type of the registry is that of an outline, so tuple types list codes that have a meaning
of their own.
-/
def Grounded (registry : Registry) : Prop :=
  ∀ code node, registry.get? code = some node → ∃ outline, registry.Denotes outline code

variable {registry earlier later : Registry}

theorem get?_of_lt {code : Typecode} (inside : code.toNat < registry.size)
    : ∃ node, registry.get? code = some node :=
  ⟨_, Array.getElem?_eq_getElem inside⟩

theorem lt_of_get? {code : Typecode} {node : TypeNode} (named : registry.get? code = some node)
    : code.toNat < registry.size := by
  by_contra outside
  rw [get?_eq_none_iff.mpr (Nat.le_of_not_lt outside)] at named
  cases named

/-- A code that stands for an outline names some type. -/
theorem Denotes.named {outline : Outline} {code : Typecode}
    (denotes : registry.Denotes outline code)
    : ∃ node, registry.get? code = some node := by
  cases outline with
  | tuple items =>
      obtain ⟨codes, named, -⟩ := denotes
      exact ⟨_, named⟩
  | _ => exact ⟨_, denotes⟩

theorem Denotes.lt {outline : Outline} {code : Typecode} (denotes : registry.Denotes outline code)
    : code.toNat < registry.size :=
  denotes.named.elim fun _ named => lt_of_get? named

theorem Grounded.denotes (grounded : registry.Grounded) {code : Typecode}
    (inside : code.toNat < registry.size)
    : ∃ outline, registry.Denotes outline code :=
  (get?_of_lt inside).elim fun node named => grounded code node named

theorem grounded_empty : empty.Grounded :=
  fun _ _ named => absurd (lt_of_get? named) (Nat.not_lt_zero _)

mutual

/-- What a code stands for depends on the structural type alone, by induction over the outlines. -/
theorem Denotes.congr {first second : Outline} {code : Typecode}
    (denotes : registry.Denotes first code) (same : first.structural = second.structural)
    : registry.Denotes second code := by
  cases first with
  | tuple items =>
      cases second with
      | tuple others =>
          obtain ⟨codes, named, parts⟩ := denotes
          exact ⟨codes, named, parts.congr (Outline.tuple.inj same)⟩
      | _ => cases same
  | _ =>
      have named := denotes.leaf nofun
      rw [Outline.node_eq_of_structural same] at named
      cases second with
      | tuple others => cases same
      | _ => exact named

theorem DenotesAll.congr {items others : List Outline} {codes : List Typecode}
    (denotes : registry.DenotesAll items codes)
    (same : Outline.structuralAll items = Outline.structuralAll others)
    : registry.DenotesAll others codes := by
  match items, others, codes with
  | [], [], _ => exact denotes
  | item :: rest, other :: remaining, [] => exact denotes.elim
  | item :: rest, other :: remaining, code :: codes =>
      obtain ⟨heads, tails⟩ := List.cons.inj same
      exact ⟨denotes.1.congr heads, denotes.2.congr tails⟩

end

theorem Has.evolves {outline : Outline} (has : registry.Has outline)
    (evolves : registry.Evolves later)
    : later.Has outline :=
  has.imp fun _ denotes => denotes.evolves evolves

theorem Evolves.size_le (evolves : earlier.Evolves later) : earlier.size ≤ later.size :=
  evolves.types.length_le

-----------------------------------------------------------------------------------------
-- The parts of an outline
-----------------------------------------------------------------------------------------

end Registry

namespace Outline

mutual

/-- The structural types of an outline and of everything in it, in the order in which they are
stored.
-/
def parts : Outline → List Outline
  | .tuple items => partsAll items ++ [structural (.tuple items)]
  | leaf => [leaf.structural]

def partsAll : List Outline → List Outline
  | [] => []
  | item :: rest => parts item ++ partsAll rest

end

end Outline

namespace Registry

variable {registry earlier later : Registry}

mutual

/-- Where a code stands for an outline there are codes for its parts, by induction over the outline.
-/
theorem Denotes.parts {outline part : Outline} {code : Typecode}
    (denotes : registry.Denotes outline code) (within : part.structural ∈ outline.parts)
    : registry.Has part := by
  cases outline with
  | tuple items =>
      rw [Outline.parts, List.mem_append, List.mem_singleton] at within
      rcases within with within | whole
      · obtain ⟨codes, -, all⟩ := denotes
        exact all.parts within
      · exact ⟨code, denotes.congr whole.symm⟩
  | _ =>
      have whole := List.mem_singleton.mp within
      exact ⟨code, denotes.congr whole.symm⟩

theorem DenotesAll.parts {items : List Outline} {part : Outline} {codes : List Typecode}
    (denotes : registry.DenotesAll items codes) (within : part.structural ∈ Outline.partsAll items)
    : registry.Has part := by
  match items, codes with
  | [], _ => exact absurd within List.not_mem_nil
  | item :: rest, [] => exact denotes.elim
  | item :: rest, code :: codes =>
      rw [Outline.partsAll, List.mem_append] at within
      rcases within with within | within
      · exact denotes.1.parts within
      · exact denotes.2.parts within

end

-----------------------------------------------------------------------------------------
-- What a registry gains
-----------------------------------------------------------------------------------------

/-- The later registry comes from the earlier one, and what it names beyond that one is among the
types.
-/
structure Gains (types : List Outline) (earlier later : Registry) : Prop where
  evolves : earlier.Evolves later
  grounded : later.Grounded
  only : ∀ outline, later.Has outline → earlier.Has outline ∨ outline.structural ∈ types

theorem Gains.refl (grounded : registry.Grounded) : Gains [] registry registry :=
  ⟨.refl, grounded, fun _ has => .inl has⟩

theorem Gains.mono {types more : List Outline} (gains : Gains types earlier later)
    (among : types ⊆ more)
    : Gains more earlier later :=
  ⟨gains.evolves, gains.grounded,
    fun outline has => (gains.only outline has).imp_right fun member => among member⟩

theorem Gains.trans {types more : List Outline} {first second third : Registry}
    (left : Gains types first second) (right : Gains more second third)
    : Gains (types ++ more) first third where
  evolves := left.evolves.trans right.evolves
  grounded := right.grounded
  only outline has := by
    rcases right.only outline has with has | late
    · exact (left.only outline has).imp_right (List.mem_append_left _)
    · exact .inr (List.mem_append_right _ late)

/-- What can be said of a run from a registry on, whatever the host: it gains the types at most, an
answer is right in the registry that the run leaves, and it stops only where that registry is full.
-/
def Gaining {α : Type} (types : List Outline) (right : Registry → α → Prop) (registry : Registry)
    (work : Run Registry α)
    : Prop :=
  registry.Sound
  → registry.Grounded
  → ∀ host outcome after,
      work.run ⟨registry, host⟩ = (outcome, after)
      → Gains types registry after.own
        ∧ match outcome with
          | .ok answer => right after.own answer
          | .error _ => typecodeCount ≤ after.own.size

namespace Gaining

variable {α β : Type} {types more : List Outline} {right : Registry → α → Prop}
  {work : Run Registry α}

theorem ofPure {answer : α} (holds : right registry answer)
    : Gaining [] right registry (pure answer) := by
  intro sound grounded host outcome after ran
  cases ran
  exact ⟨.refl grounded, holds⟩

/-- What a run gains, a run that does the same on any hosts gains as well. -/
theorem ofMatches {other : Run Registry α} (gaining : Gaining types right registry work)
    (same : other.Matches work)
    : Gaining types right registry other := by
  intro sound grounded host outcome after ran
  obtain ⟨outcomes, states⟩ := same registry host host
  obtain ⟨gains, ended⟩ := gaining sound grounded host _ _ rfl
  rw [ran] at outcomes states
  rw [← outcomes, ← states] at ended
  rw [← states] at gains
  exact ⟨gains, ended⟩

/-- Two runs in a row gain what either gains. The second starts from any registry that the first may
leave with the answer.
-/
theorem next {next : α → Run Registry β} {final : Registry → β → Prop}
    (first : Gaining types right registry work)
    (second
      : ∀ middle answer,
          registry.Evolves middle → right middle answer → Gaining more final middle (next answer))
    : Gaining (types ++ more) final registry (work >>= next) := by
  intro sound grounded host outcome after ran
  rw [Run.run_bind] at ran
  cases here : work.run ⟨registry, host⟩ with
  | mk answer middle =>
      obtain ⟨gains, ended⟩ := first sound grounded host answer middle here
      rw [here] at ran
      cases answer with
      | error ending =>
          cases ran
          exact ⟨gains.mono (List.subset_append_left _ _), ended⟩
      | ok answer =>
          obtain ⟨late, finished⟩ :=
            second middle.own answer gains.evolves ended (gains.evolves.sound sound) gains.grounded
              middle.host outcome after ran
          exact ⟨gains.trans late, finished⟩

end Gaining

/-- Storing a new type under the next code gains the outline that it means. -/
theorem Gains.store {node : TypeNode} {outline : Outline} {code : Typecode}
    (grounded : registry.Grounded) (missing : registry.codeOf? node = none)
    (next : code.toNat = registry.size)
    (means : (registry.store node code).Denotes outline code)
    : Gains [outline.structural] registry (registry.store node code) := by
  have evolves : registry.Evolves (registry.store node code) := .single (.append missing next)
  -- A code of the new registry is the new one or an earlier one, which has a meaning.
  have known (other : Typecode) (inside : other.toNat < (registry.store node code).size)
      : other = code ∨ ∃ outline, registry.Denotes outline other := by
    rw [size_store] at inside
    by_cases last : other.toNat = registry.size
    · exact .inl (Typecode.toNat_inj (last.trans next.symm))
    · exact .inr (grounded.denotes (by omega))
  refine ⟨evolves, ?_, ?_⟩
  · intro other node named
    rcases known other (lt_of_get? named) with rfl | ⟨meaning, denotes⟩
    · exact ⟨outline, means⟩
    · exact ⟨meaning, denotes.evolves evolves⟩
  · rintro other ⟨position, denotes⟩
    rcases known position denotes.lt with rfl | ⟨meaning, earlier⟩
    · exact .inr (List.mem_singleton.mpr (denotes.structural_eq means))
    · have same := (earlier.evolves evolves).structural_eq denotes
      exact .inl ⟨position, earlier.congr same⟩

/-- Without panics, only a full registry refuses a type. -/
theorem full_of_intern {node : TypeNode} {state after : Hosted Registry} {ending : Stop}
    (stopped : (intern .steady node).run state = (.error ending, after))
    : typecodeCount ≤ after.own.size := by
  obtain ⟨-, kept, ⟨-, -, full⟩ | ⟨-, code, -, panics⟩⟩ := intern_stops stopped
  · rw [kept]
    exact full
  · cases panics

/-- Storing a type gains at most the outline that it means in every registry to come. -/
theorem intern_gaining {node : TypeNode} {outline : Outline}
    (means
      : ∀ later code,
          registry.Evolves later → later.get? code = some node → later.Denotes outline code)
    : Gaining [outline.structural] (fun later code => later.Denotes outline code) registry
        (intern .steady node) := by
  intro sound grounded host outcome after ran
  have evolves := (intern_evolving .steady node).ends ran
  constructor
  · have stored := intern_cases .steady node ⟨registry, host⟩
    rw [ran] at stored
    rcases stored with kept | ⟨code, missing, next, stored⟩
    · rw [show after.own = registry from kept]
      exact (Gains.refl grounded).mono (List.nil_subset _)
    · rw [show after.own = registry.store node code from stored] at evolves ⊢
      refine .store grounded missing next (means _ code evolves ?_)
      rw [get?_store, if_pos next]
  · cases outcome with
    | ok code => exact means _ code evolves (sound.intern_eq_ok ran)
    | error ending => exact full_of_intern ran

/-- Naming elementary kinds gains single elements of these kinds, by induction over the kinds. -/
theorem internKinds_gaining (registry : Registry) (kinds : List ElementaryKind)
    : Gaining (kinds.map fun kind => .scalar (.scalar kind.scalar)) (fun _ _ => True) registry
        (internKinds .steady kinds) := by
  induction kinds generalizing registry with
  | nil => exact .ofPure trivial
  | cons kind rest ih =>
      have means (later : Registry) (code : Typecode) (_ : registry.Evolves later)
          (named : later.get? code = some (.number kind.scalar))
          : later.Denotes (.scalar (.scalar kind.scalar)) code := by
        cases kind <;> exact named
      rw [internKinds, List.map_cons, ← List.append_nil (rest.map _)]
      refine (intern_gaining means).next ?_
      intro middle code reached denotes
      refine (ih middle).next ?_
      intro later named evolves done
      exact .ofPure trivial

theorem Initial.grounded {start : Registry} (initial : start.Initial) : start.Grounded := by
  cases initial with
  | empty => exact grounded_empty
  | elementary =>
      have gaining := internKinds_gaining .empty ElementaryKind.all
      exact (gaining sound_empty grounded_empty .fresh _ _ rfl).1.grounded

end Registry

namespace Outline

open Registry (Gaining)

variable {registry : Registry}

mutual

/-- Typing an outline gains parts of it at most, and a code that it answers stands for the outline.
Witness: structural induction over the outline; the codes of items keep their meaning while the type
of the tuple is stored.
-/
theorem typed_gaining (registry : Registry) (outline : Outline)
    : Gaining outline.parts (fun later code => later.Denotes outline code) registry
        (outline.typed .steady) := by
  cases outline with
  | tuple items =>
      rw [typed, parts]
      refine (typedAll_gaining registry items).next ?_
      intro middle codes reached all
      apply Registry.intern_gaining
      intro later code evolves named
      exact ⟨codes, named, all.evolves evolves⟩
  | _ =>
      rw [typed]
      · exact Registry.intern_gaining fun _ _ _ named => named
      · exact nofun

theorem typedAll_gaining (registry : Registry) (items : List Outline)
    : Gaining (partsAll items) (fun later codes => later.DenotesAll items codes) registry
        (typedAll .steady items) := by
  cases items with
  | nil => exact .ofPure trivial
  | cons item rest =>
      rw [typedAll, partsAll, ← List.append_nil (partsAll rest)]
      refine (typed_gaining registry item).next ?_
      intro middle code reached here
      refine (typedAll_gaining middle rest).next ?_
      intro later codes evolves all
      exact .ofPure ⟨here.evolves evolves, all⟩

end

end Outline

end Typecodes
