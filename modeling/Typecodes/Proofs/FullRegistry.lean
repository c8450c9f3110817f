import Mathlib
import Typecodes.Proofs.NamedTypes
import Typecodes.Proofs.RefusedViews

/-! Registries up to their limit. There is one type at most for every typecode, so no code that was
given out is beyond the greatest. A registry that is full refuses new types and nothing else, and
neither a refusal nor an analysis that meets one leaves any trace in it.
-/

namespace Typecodes

namespace Registry

variable {registry earlier later : Registry} {logger : Logger}

-----------------------------------------------------------------------------------------
-- Codes and positions
-----------------------------------------------------------------------------------------

/-- There are no more types than codes, codes that name types are typecodes in use, and the types
can be listed by codes that are their true positions.
-/
structure WithinLimit (registry : Registry) : Prop where
  bounded : registry.size ≤ 4294967295
  issued
    : ∀ code node,
        registry.get? code = some node
        → code.toNat < registry.size ∧ code.toNat ≤ 4294967294
  listed
    : ∃ entries,
        registry.entries? = some entries
        ∧ entries.map (fun entry => (entry.2, entry.1.toNat)) = registry.types.toList.zipIdx

theorem Sound.withinLimit (sound : registry.Sound) : registry.WithinLimit where
  bounded := sound.bounded
  issued code node named := ⟨lt_of_get? named, Nat.le_of_lt_succ code.toNat_lt⟩
  listed := listed_of_positions registry.types.toList 0 (by simpa [size] using sound.bounded)

-----------------------------------------------------------------------------------------
-- Storing types at the limit
-----------------------------------------------------------------------------------------

/-- A full registry refuses a new type, and nothing changes. -/
theorem intern_of_full {node : TypeNode} (missing : registry.codeOf? node = none)
    (full : registry.size = typecodeCount) (logger : Logger) (host : Host)
    : (intern logger node).run ⟨registry, host⟩
      = (.error (.failure (.invalidTypecode 4294967295)), ⟨registry, host⟩) := by
  have refused : Typecode.ofInt registry.size = .error (.invalidTypecode 4294967295) := by
    rw [full]
    rfl
  rw [run_intern]
  simp only [missing, refused]

/-- A registry that gained no types is the same. -/
theorem Evolves.eq_of_size (evolves : earlier.Evolves later) (same : later.size ≤ earlier.size)
    : later = earlier := by
  induction evolves with
  | refl => rfl
  | tail reached follows ih =>
      have grown := Evolves.size_le reached
      obtain ⟨missing, next⟩ := follows
      rw [size_store] at same
      omega

/-- A full registry stays as it is. -/
theorem Sound.eq_of_full (sound : registry.Sound) (full : registry.size = typecodeCount)
    (evolves : registry.Evolves later)
    : later = registry :=
  evolves.eq_of_size ((evolves.sound sound).bounded.trans full.ge)

/-- A type is refused with a failure exactly if it is new and the registry is full. -/
theorem Sound.intern_fails_iff (sound : registry.Sound) {node : TypeNode} {host : Host}
    : (∃ cause, ((intern logger node).run ⟨registry, host⟩).1 = .error (.failure cause))
      ↔ registry.codeOf? node = none ∧ registry.size = typecodeCount := by
  constructor
  · rintro ⟨cause, failed⟩
    obtain ⟨missing, -, ⟨-, -, full⟩ | ⟨panics, -⟩⟩ := intern_stops (Run.run_of_outcome failed)
    · exact ⟨missing, Nat.le_antisymm sound.bounded full⟩
    · cases panics
  · rintro ⟨missing, full⟩
    exact ⟨_, congrArg Prod.fst (intern_of_full missing full logger host)⟩

-----------------------------------------------------------------------------------------
-- Full analysis over a full registry
-----------------------------------------------------------------------------------------

/-- What can stop full analysis over a full registry, where everything before it is typed: a part of
the value that needs a type which is not stored, or a buffer that refuses both requests.
-/
inductive Obstructs (logger : Logger) (registry : Registry) (host : Host) (value : Shape)
    : Stop → Prop
  | absent {frames part codes middle node worked} (place : value = Frame.around frames part)
    (typed : (typesOf logger (Frame.before frames)).run ⟨registry, host⟩ = (.ok codes, middle))
    (needed : (nodeOf logger part).run middle = (.ok node, worked))
    (missing : registry.codeOf? node = none)
    : Obstructs logger registry host value (.failure (.invalidTypecode 4294967295))
  | refused {frames exporter refusal codes middle}
    (place : value = Frame.around frames (.buffer exporter))
    (typed : (typesOf logger (Frame.before frames)).run ⟨registry, host⟩ = (.ok codes, middle))
    (refuses : exporter.Refuses middle.host refusal)
    : Obstructs logger registry host value (.failure (.resolution refusal.message))

/-- Over a full registry, a part stops the analysis only by obstructing it. -/
theorem StopsAt.obstructs (sound : registry.Sound) (full : registry.size = typecodeCount)
    {frames : List Frame} {part : Shape} {host : Host} {codes : List Typecode}
    {middle after : Hosted Registry} {ending : Stop}
    (typed : (typesOf logger (Frame.before frames)).run ⟨registry, host⟩ = (.ok codes, middle))
    (stops : StopsAt logger part middle ending after)
    : Obstructs logger registry host (Frame.around frames part) ending := by
  -- Nothing that was typed before can have been new, so the part meets the same registry.
  have kept := sound.eq_of_full full ((typesOf_evolving logger _).ends typed)
  cases stops with
  | refused leaf asked =>
      subst leaf
      exact .refused rfl typed (Exporter.refuses_iff.mpr (congrArg Prod.fst asked))
  | unstored needed unable =>
      have worked := (nodeOf_evolving logger part).ends needed
      rw [kept] at worked
      have same := sound.eq_of_full full worked
      obtain ⟨missing, -, ⟨failed, -⟩ | ⟨-, code, next, -⟩⟩ := intern_stops unable
      · rw [same] at missing failed
        rw [failed, full]
        exact .absent rfl typed needed missing
      · rw [same, full] at next
        exact absurd next code.toNat_lt.ne

/-- Conversely, what obstructs the analysis stops it. -/
theorem Obstructs.stops (sound : registry.Sound) (full : registry.size = typecodeCount)
    {host : Host} {value : Shape} {ending : Stop}
    (obstructs : Obstructs logger registry host value ending)
    : ((typeOf logger value).run ⟨registry, host⟩).1 = .error ending := by
  cases obstructs with
  | @absent frames part codes middle node worked place typed needed missing =>
      have early := (typesOf_evolving logger _).ends typed
      have same := sound.eq_of_full full (early.trans ((nodeOf_evolving logger part).ends needed))
      obtain ⟨own, left⟩ := worked
      obtain rfl : own = registry := same
      have refused := intern_of_full missing full logger left
      have leaf := (Run.run_bind_ok (intern logger) needed).trans refused
      rw [← typeOf_eq] at leaf
      rw [place, typeOf_around frames part ((Run.run_bind_ok _ typed).trans leaf)]
  | @refused frames exporter refusal codes middle place typed refuses =>
      have leaf := typeOf_of_refused logger (Exporter.refuses_iff.mp refuses)
      rw [place, typeOf_around frames _ ((Run.run_bind_ok _ typed).trans leaf)]

/-- Over a full registry, full analysis changes nothing and stops exactly where it is obstructed. -/
theorem Sound.typeOf_of_full (sound : registry.Sound) (full : registry.size = typecodeCount)
    (logger : Logger) (value : Shape) (host : Host)
    : let finish := (typeOf logger value).run ⟨registry, host⟩
      finish.2.own = registry
      ∧ ∀ ending, finish.1 = .error ending ↔ Obstructs logger registry host value ending := by
  intro finish
  refine ⟨sound.eq_of_full full (typeOf_evolving logger value ⟨registry, host⟩), ?_⟩
  intro ending
  constructor
  · intro stopped
    obtain ⟨frames, part, codes, middle, rfl, typed, stops⟩ :=
      typeOf_stops (Run.run_of_outcome stopped)
    exact stops.obstructs sound full typed
  · intro obstructs
    exact obstructs.stops sound full

end Registry

namespace Analyzer

open Registry (WithinLimit Obstructs)

/-- Every registry that any requests lead to is within its limit. It refuses a type exactly if that
is new and there are as many types as codes, and then nothing changes; a stored type is answered in
any case. Over a full registry, full analysis changes nothing either and stops only for a part that
needs a type which is not stored, or for a buffer that refuses both requests.
-/
theorem serve_safe_at_limit (logger : Logger) {start : Registry} (initial : start.Initial)
    (resolutions : Nat) (requests : List (Request × Host))
    : let registry := (serve logger ⟨start, resolutions⟩ requests).registry
      registry.WithinLimit
      ∧ (∀ node host,
          let stored := (Registry.intern logger node).run ⟨registry, host⟩
          ((∃ cause, stored.1 = .error (.failure cause))
            ↔ registry.codeOf? node = none ∧ registry.size = 4294967295)
          ∧ (∀ cause,
              stored.1 = .error (.failure cause)
              → cause = .invalidTypecode 4294967295 ∧ stored.2 = ⟨registry, host⟩)
          ∧ ∀ code,
              registry.codeOf? node = some code → stored = (.ok code, ⟨registry, host⟩))
      ∧ (registry.size = 4294967295
        → ∀ value host,
            let finish := (Registry.typeOf logger value).run ⟨registry, host⟩
            finish.2.own = registry
            ∧ ∀ ending,
                finish.1 = .error ending ↔ Obstructs logger registry host value ending) := by
  intro registry
  have sound : registry.Sound :=
    (serve_evolves logger ⟨start, resolutions⟩ requests).sound initial.sound
  refine ⟨sound.withinLimit, ?_, fun full => sound.typeOf_of_full full logger⟩
  intro node host stored
  refine ⟨sound.intern_fails_iff, ?_, fun code known => Registry.intern_of_codeOf? known host⟩
  intro cause failed
  obtain ⟨missing, full⟩ := sound.intern_fails_iff.mp ⟨cause, failed⟩
  have refused : stored = _ := Registry.intern_of_full missing full logger host
  rw [refused] at failed ⊢
  cases failed
  exact ⟨rfl, rfl⟩

-----------------------------------------------------------------------------------------
-- The limit can be reached
-----------------------------------------------------------------------------------------

/-- The type of objects that are told apart by a number. -/
def numbered (number : Nat) : TypeNode :=
  .foreign ⟨UInt64.ofNat number⟩

theorem numbered_inj {first second : Nat} (small : first < typecodeCount)
    (small' : second < typecodeCount) (same : numbered first = numbered second)
    : first = second := by
  simp only [numbered, TypeNode.foreign.injEq, Identity.mk.injEq] at same
  have numbers := congrArg UInt64.toNat same
  rwa [UInt64.toNat_ofNat_of_lt', UInt64.toNat_ofNat_of_lt'] at numbers
    <;> exact Nat.lt_trans ‹_› (by decide)

theorem serve_append (logger : Logger) (analyzer : Analyzer) (first second : List (Request × Host))
    : serve logger analyzer (first ++ second)
      = serve logger (serve logger analyzer first) second :=
  List.foldl_append

/-- As long as there are codes, requests can lead to so many types, by induction over their number.
-/
theorem exists_filled {count : Nat} (small : count ≤ typecodeCount)
    : ∃ requests,
        let registry := (serve .steady ⟨.empty, 0⟩ requests).registry
        registry.size = count
        ∧ (∀ number < count, ∃ code, registry.codeOf? (numbered number) = some code)
        ∧ ∀ node, (∀ number < count, node ≠ numbered number) → registry.codeOf? node = none := by
  induction count with
  | zero => exact ⟨[], rfl, nofun, fun node _ => Registry.codeOf?_empty node⟩
  | succ count ih =>
      obtain ⟨requests, size, stored, others⟩ := ih (by omega)
      have new : ∀ number < count, numbered count ≠ numbered number := by
        intro number below same
        exact below.ne' (numbered_inj small (by omega) same)
      let code : Typecode := ⟨⟨count, small⟩⟩
      have next : code.toNat = (serve .steady ⟨.empty, 0⟩ requests).registry.size := size.symm
      have ran
          : (Registry.intern .steady (numbered count)).run
              ⟨(serve .steady ⟨.empty, 0⟩ requests).registry, .fresh⟩
            = (.ok code, _) :=
        Registry.intern_of_missing (others _ new) next rfl .fresh
      refine ⟨requests ++ [(.intern (numbered count), .fresh)], ?_⟩
      have grown
          : (serve .steady ⟨.empty, 0⟩
              (requests ++ [(.intern (numbered count), .fresh)])).registry
            = (serve .steady ⟨.empty, 0⟩ requests).registry.store (numbered count) code := by
        rw [serve_append]
        simp only [serve, List.foldl_cons, List.foldl_nil] at ran ⊢
        rw [Request.perform, Run.run_map, run_onRegistry, ran]
      intro registry
      rw [show registry = _ from grown]
      refine ⟨?_, ?_, ?_⟩
      · rw [Registry.size_store, size]
      · intro number below
        rw [Registry.codeOf?_store]
        by_cases last : numbered count = numbered number
        · exact ⟨code, if_pos last⟩
        · rw [if_neg last]
          have apart : number ≠ count := fun same => last (congrArg numbered same.symm)
          exact stored number (by omega)
      · intro node foreign
        rw [Registry.codeOf?_store, if_neg (foreign count (by omega)).symm]
        exact others node fun number below => foreign number (by omega)

/-- A tuple over a full registry, which has the type of its first item and not that of its second.
-/
theorem serve_safe_at_limit_reached
    : let object : Shape := .foreign ⟨0⟩
      let value : Shape := .tuple [object, .bool]
      Registry.Initial .empty
      ∧ ∃ requests,
          let registry := (serve .steady ⟨.empty, 0⟩ requests).registry
          registry.size = 4294967295
          ∧ registry.WithinLimit
          ∧ (∃ code, ((Registry.typeOf .steady object).run ⟨registry, .fresh⟩).1 = .ok code)
          ∧ let finish := (Registry.typeOf .steady value).run ⟨registry, .fresh⟩
            finish.2.own = registry
            ∧ finish.1 = .error (.failure (.invalidTypecode 4294967295)) := by
  intro object value
  obtain ⟨requests, size, stored, others⟩ := exists_filled (Nat.le_refl typecodeCount)
  obtain ⟨within, interned, analysed⟩ := serve_safe_at_limit .steady .empty 0 requests
  obtain ⟨code, known⟩ := stored 0 (by decide)
  have missing := others .boolean (fun _ _ => nofun)
  obtain ⟨-, -, answered⟩ := interned (numbered 0) .fresh
  have first
      : (Registry.typeOf .steady object).run
          ⟨(serve .steady ⟨.empty, 0⟩ requests).registry, .fresh⟩
        = (.ok code, ⟨(serve .steady ⟨.empty, 0⟩ requests).registry, .fresh⟩) := by
    rw [Registry.typeOf]
    exact answered code known
  obtain ⟨kept, ends⟩ := analysed size value .fresh
  refine ⟨.empty, requests, size, within, ⟨code, congrArg Prod.fst first⟩, kept, ?_⟩
  have place : value = Frame.around [⟨[object], []⟩] .bool := rfl
  have typed
      : (Registry.typesOf .steady (Frame.before [⟨[object], []⟩])).run
          ⟨(serve .steady ⟨.empty, 0⟩ requests).registry, .fresh⟩
        = (.ok [code], ⟨(serve .steady ⟨.empty, 0⟩ requests).registry, .fresh⟩) := by
    show (Registry.typesOf .steady [object]).run _ = _
    rw [Registry.typesOf]
    exact Run.run_bind_ok _ first
  exact (ends _).mpr (.absent place typed rfl missing)

end Analyzer

end Typecodes
