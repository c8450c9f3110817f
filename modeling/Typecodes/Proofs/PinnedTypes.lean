import Mathlib
import Typecodes.Proofs.RegistryGrowth

/-! A registry pins its types. Whatever is asked of an analyzer, and however the requests end, no
type is stored twice, types and index are inverse to each other, and a code names the same type ever
after.
-/

namespace Typecodes

namespace Registry

-----------------------------------------------------------------------------------------
-- The types of a sound registry
-----------------------------------------------------------------------------------------

/-- Every type that is stored has a code. -/
theorem Sound.named {registry : Registry} (sound : registry.Sound) {position : Nat}
    {node : TypeNode} (stored : registry.types.toList[position]? = some node)
    : ∃ code, Typecode.toNat code = position ∧ registry.get? code = some node := by
  obtain ⟨inside, -⟩ := List.getElem?_eq_some_iff.mp stored
  have bound : position < typecodeCount := inside.trans_le sound.bounded
  refine ⟨⟨position, bound⟩, rfl, ?_⟩
  rw [get?, ← Array.getElem?_toList]
  exact stored

theorem Sound.distinct {registry : Registry} (sound : registry.Sound)
    : registry.types.toList.Nodup := by
  rw [List.nodup_iff_getElem?_ne_getElem?]
  intro first second before inside same
  obtain ⟨node, stored⟩ : ∃ node, registry.types.toList[second]? = some node :=
    ⟨_, List.getElem?_eq_getElem inside⟩
  obtain ⟨code, number, named⟩ := sound.named (same.trans stored)
  obtain ⟨code', number', named'⟩ := sound.named stored
  rw [← sound.inverse] at named named'
  cases named.symm.trans named'
  omega

/-- Types in a row from some position on are listed under the codes of their positions, by induction
over the types.
-/
theorem listed_of_positions (nodes : List TypeNode) (start : Nat)
    (bounded : start + nodes.length ≤ typecodeCount)
    : ∃ entries : List (Typecode × TypeNode),
        ((nodes.zipIdx start).mapM fun (node, position) =>
            (Typecode.ofUInt32? (UInt32.ofNat position)).map (·, node))
          = some entries
        ∧ entries.map (fun entry => (entry.2, entry.1.toNat)) = nodes.zipIdx start := by
  induction nodes generalizing start with
  | nil => exact ⟨[], rfl, rfl⟩
  | cons node rest ih =>
      rw [List.length_cons] at bounded
      obtain ⟨entries, listed, numbered⟩ := ih (start + 1) (by omega)
      have small : start < typecodeCount := by omega
      have word : (UInt32.ofNat start).toNat = start := by
        rw [UInt32.toNat_ofNat']
        exact Nat.mod_eq_of_lt (small.trans (by decide))
      have first : Typecode.ofUInt32? (UInt32.ofNat start) = some ⟨start, small⟩ := by
        rw [Typecode.ofUInt32?, word]
        exact Typecode.ofNat?_eq_some.mpr rfl
      refine ⟨(⟨start, small⟩, node) :: entries, ?_, ?_⟩
      · rw [List.zipIdx_cons, List.mapM_cons, listed]
        dsimp only
        rw [first]
        rfl
      · rw [List.map_cons, numbered, List.zipIdx_cons]
        rfl

/-- The entries are every code with its type, in the order of the codes. -/
structure Lists (registry : Registry) (entries : List (Typecode × TypeNode)) : Prop where
  increasing : entries.Pairwise fun first second => first.1.toNat < second.1.toNat
  complete : ∀ code node, (code, node) ∈ entries ↔ registry.get? code = some node

theorem Sound.listed {registry : Registry} (sound : registry.Sound)
    : ∃ entries, registry.entries? = some entries ∧ registry.Lists entries := by
  obtain ⟨entries, listed, numbered⟩ :=
    listed_of_positions registry.types.toList 0 (by simpa [size] using sound.bounded)
  refine ⟨entries, listed, ?_, ?_⟩
  · have positions : entries.map (fun entry => entry.1.toNat)
        = List.range' 0 registry.types.toList.length := by
      rw [← List.zipIdx_map_snd, ← numbered, List.map_map]
      rfl
    have ascending := List.pairwise_lt_range' (s := 0) (n := registry.types.toList.length)
    rw [← positions] at ascending
    exact List.pairwise_map.mp ascending
  · intro code node
    have apart : Function.Injective fun entry : Typecode × TypeNode =>
        (entry.2, entry.1.toNat) := by
      rintro ⟨code, node⟩ ⟨code', node'⟩ same
      obtain ⟨nodes, numbers⟩ := Prod.mk.inj same
      exact Prod.ext (Typecode.toNat_inj numbers) nodes
    rw [← List.mem_map_of_injective apart, numbered, List.mk_mem_zipIdx_iff_getElem?,
      Array.getElem?_toList]
    rfl

/-- Types and index agree, no type is stored twice, and the entries can be listed. -/
structure Pinned (registry : Registry) : Prop where
  distinct : registry.types.toList.Nodup
  inverse : ∀ node code, registry.codeOf? node = some code ↔ registry.get? code = some node
  listed : ∃ entries, registry.entries? = some entries ∧ registry.Lists entries

theorem Sound.pinned {registry : Registry} (sound : registry.Sound) : registry.Pinned :=
  ⟨sound.distinct, sound.inverse, sound.listed⟩

/-- The registries that a program can start from. -/
inductive Initial : Registry → Prop
  | empty : Initial .empty
  | elementary : Initial .withElementary

theorem Initial.sound {registry : Registry} (initial : registry.Initial) : registry.Sound := by
  cases initial with
  | empty => exact sound_empty
  | elementary =>
      have evolves := internKinds_evolving .steady ElementaryKind.all ⟨.empty, .fresh⟩
      exact evolves.sound sound_empty

end Registry

-----------------------------------------------------------------------------------------
-- Requests to an analyzer
-----------------------------------------------------------------------------------------

namespace Analyzer

/-- What can be asked of an analyzer and its registry. -/
inductive Request where
  | intern (node : TypeNode)
  | typeOf (value : Shape)
  | resolve (value : Shape)
  | elementaryNames

/-- Does what is asked, up to where that stops. -/
def Request.perform (logger : Logger) : Request → Run Analyzer Unit
  | intern node => (fun _ => ()) <$> onRegistry (Registry.intern logger node)
  | typeOf value => (fun _ => ()) <$> Analyzer.typeOf logger value
  | resolve value => (fun _ => ()) <$> Analyzer.resolve logger value
  | elementaryNames => (fun _ => ()) <$> onRegistry (Registry.elementaryNames logger)

/-- The analyzer after requests, each made on some host and whatever its outcome. -/
def serve (logger : Logger) (analyzer : Analyzer) (requests : List (Request × Host)) : Analyzer :=
  requests.foldl
    (fun reached request => ((request.1.perform logger).run ⟨reached, request.2⟩).2.own)
    analyzer

theorem run_onRegistry {α : Type} (work : Run Registry α) (analyzer : Analyzer) (host : Host)
    : (onRegistry work).run ⟨analyzer, host⟩
      = ((work.run ⟨analyzer.registry, host⟩).1,
        ⟨{ analyzer with registry := (work.run ⟨analyzer.registry, host⟩).2.own },
          (work.run ⟨analyzer.registry, host⟩).2.host⟩) :=
  rfl

theorem run_resolve (logger : Logger) (value : Shape) (analyzer : Analyzer) (host : Host)
    : (resolve logger value).run ⟨analyzer, host⟩
      = (((Registry.typeOf logger value).run ⟨analyzer.registry, host⟩).1,
        ⟨⟨((Registry.typeOf logger value).run ⟨analyzer.registry, host⟩).2.own,
            analyzer.resolutions + 1⟩,
          ((Registry.typeOf logger value).run ⟨analyzer.registry, host⟩).2.host⟩) :=
  rfl

/-- A request only stores new types, however it ends. -/
theorem Request.perform_evolves (logger : Logger) (request : Request) (analyzer : Analyzer)
    (host : Host)
    : analyzer.registry.Evolves
        ((request.perform logger).run ⟨analyzer, host⟩).2.own.registry := by
  cases request <;> rw [perform, Run.run_map]
  case intern node => exact Registry.intern_evolving logger node ⟨analyzer.registry, host⟩
  case typeOf value => exact Registry.typeOf_evolving logger value ⟨analyzer.registry, host⟩
  case resolve value => exact Registry.typeOf_evolving logger value ⟨analyzer.registry, host⟩
  case elementaryNames =>
    exact Registry.internKinds_evolving logger ElementaryKind.all ⟨analyzer.registry, host⟩

/-- Requests only store new types, by induction over the requests. -/
theorem serve_evolves (logger : Logger) (analyzer : Analyzer) (requests : List (Request × Host))
    : analyzer.registry.Evolves (serve logger analyzer requests).registry := by
  induction requests generalizing analyzer with
  | nil => exact .refl
  | cons request rest ih =>
      exact (request.1.perform_evolves logger analyzer request.2).trans (ih _)

/-- From an initial registry on, every registry is pinned after any requests, later requests only
store types at the end, and a code that was given out for a type stays the code of that type.
-/
theorem serve_pinned (logger : Logger) {start : Registry} (initial : start.Initial)
    (resolutions : Nat) (requests : List (Request × Host))
    : let reached := serve logger ⟨start, resolutions⟩ requests
      reached.registry.Pinned
      ∧ (∀ more,
          reached.registry.types.toList <+: (serve logger reached more).registry.types.toList)
      ∧ ∀ node host code after,
          (onRegistry (Registry.intern logger node)).run ⟨reached, host⟩ = (.ok code, after)
          → ∀ more host',
              let later := serve logger after.own more
              later.registry.get? code = some node
              ∧ (onRegistry (Registry.intern logger node)).run ⟨later, host'⟩
                = (.ok code, ⟨later, host'⟩) := by
  intro reached
  have sound : reached.registry.Sound :=
    (serve_evolves logger ⟨start, resolutions⟩ requests).sound initial.sound
  refine ⟨sound.pinned, fun more => (serve_evolves logger reached more).types, ?_⟩
  intro node host code after stored more host' later
  rw [run_onRegistry] at stored
  cases ran : (Registry.intern logger node).run ⟨reached.registry, host⟩ with
  | mk outcome finish =>
      rw [ran] at stored
      cases stored
      have grown := (Registry.intern_evolving logger node).ends ran
      have evolves := serve_evolves logger { reached with registry := finish.own } more
      have there := evolves.get? (sound.intern_eq_ok ran)
      have known := ((evolves.sound (grown.sound sound)).inverse node code).mpr there
      rw [run_onRegistry, Registry.intern_of_codeOf? known]
      exact ⟨there, rfl⟩

/-- A type stored after a tuple was given up halfway, and asked for again after the same requests.
-/
theorem serve_pinned_halfway
    : let refusing : Shape := .buffer ⟨0, ⟨9⟩, fun _ _ => .error .unsupported⟩
      let requests := [(Request.typeOf (.tuple [.bytes, refusing]), Host.fresh)]
      let reached := serve .steady ⟨.empty, 0⟩ requests
      Registry.Initial .empty
      ∧ reached.registry.Pinned
      ∧ ∃ after,
          (onRegistry (Registry.intern .steady .byteArray)).run ⟨reached, .fresh⟩
            = (.ok ⟨⟨1, by decide⟩⟩, after)
          ∧ (serve .steady after.own requests).registry.get? ⟨⟨1, by decide⟩⟩
            = some .byteArray := by
  intro refusing requests reached
  have halfway : reached.registry = Registry.store .empty .bytes .zero := by
    have first
        : (Registry.intern .steady .bytes).run ⟨.empty, .fresh⟩ = (.ok .zero, _) :=
      Registry.intern_of_missing (Registry.codeOf?_empty .bytes) rfl rfl .fresh
    simp only [reached, requests, serve, List.foldl_cons, List.foldl_nil, Request.perform,
      Run.run_map]
    show ((Registry.typeOf .steady (.tuple [.bytes, refusing])).run ⟨.empty, .fresh⟩).2.own = _
    rw [Registry.typeOf, Registry.typesOf, Registry.typeOf, bind_assoc, Run.run_bind_ok _ first]
    rfl
  have missing : reached.registry.codeOf? .byteArray = none := by
    simp [halfway, Registry.codeOf?_store, Registry.codeOf?_empty]
  have second
      : (Registry.intern .steady .byteArray).run ⟨reached.registry, .fresh⟩
        = (.ok ⟨⟨1, by decide⟩⟩, _) :=
    Registry.intern_of_missing missing (by rw [halfway]; rfl) rfl .fresh
  have stored := run_onRegistry (Registry.intern .steady .byteArray) reached .fresh
  rw [second] at stored
  obtain ⟨pinned, -, stays⟩ := serve_pinned .steady .empty 0 requests
  exact ⟨.empty, pinned, _, stored, (stays _ _ _ _ stored requests .fresh).1⟩

end Analyzer

end Typecodes
