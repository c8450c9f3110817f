import Mathlib
import Typecodes.Proofs.PinnedTypes
import Typecodes.Proofs.SteadyTyping

/-! Codes are exact names of structural types. A code stands for an outline if the type that it
names is that of the outline, a tuple's type listing codes that stand for the items. In one
registry, at whatever moments, two outlines have the same code exactly if they are the same once the
numbers of the host are taken for single elements.
-/

namespace Typecodes

-----------------------------------------------------------------------------------------
-- Structural types
-----------------------------------------------------------------------------------------

namespace Outline

mutual

/-- The structural type of an outline. Numbers and truth values of the host have the types of single
elements, and everything else is itself: an array by element type, rank, layout class and access, a
buffer by what its view shows, with the item format as it is given, and by its runtime type.
-/
def structural : Outline → Outline
  | .bool => .scalar (.scalar .bool)
  | .int => .scalar (.scalar .int64)
  | .float => .scalar (.scalar .float64)
  | .complex => .scalar (.scalar .complex128)
  | .tuple items => .tuple (structuralAll items)
  | .none => .none
  | .bytes => .bytes
  | .byteArray => .byteArray
  | .scalar element => .scalar element
  | .array rank layout writable element => .array rank layout writable element
  | .buffer rank layout readOnly format runtimeType =>
      .buffer rank layout readOnly format runtimeType
  | .descriptor element => .descriptor element
  | .foreign runtimeType => .foreign runtimeType

/-- The structural types of outlines. -/
def structuralAll : List Outline → List Outline
  | [] => []
  | item :: rest => structural item :: structuralAll rest

end

/-- The structural type that a type stands for on its own. The items of a tuple type are codes,
which tell nothing without a registry.
-/
def ofNode : TypeNode → Outline
  | .none => .none
  | .boolean => .scalar (.scalar .bool)
  | .number kind => .scalar (.scalar kind)
  | .bytes => .bytes
  | .byteArray => .byteArray
  | .tuple _ => .tuple []
  | .array element rank layout readOnly => .array rank layout (!readOnly) element
  | .element item => .scalar item
  | .buffer rank layout readOnly format runtimeType =>
      .buffer rank layout readOnly format runtimeType
  | .descriptor element => .descriptor element
  | .foreign runtimeType => .foreign runtimeType

theorem ofNode_singleNode (element : ElementType)
    : ofNode element.singleNode = .scalar element := by
  cases element with
  | scalar kind => cases kind <;> rfl
  | _ => rfl

theorem ofNode_node {outline : Outline} (leaf : ∀ items, outline ≠ .tuple items)
    : ofNode outline.node = outline.structural := by
  cases outline with
  | tuple items => exact absurd rfl (leaf items)
  | scalar element => exact ofNode_singleNode element
  | array rank layout writable element => cases writable <;> rfl
  | _ => rfl

/-- Leaves of one type have one structural type. -/
theorem structural_eq_of_node {first second : Outline} (same : first.node = second.node)
    (leaf : ∀ items, first ≠ .tuple items) (leaf' : ∀ items, second ≠ .tuple items)
    : first.structural = second.structural := by
  rw [← ofNode_node leaf, same, ofNode_node leaf']

theorem node_eq_of_structural {first second : Outline} (same : first.structural = second.structural)
    : first.node = second.node := by
  have kept (outline : Outline) : outline.structural.node = outline.node := by
    cases outline <;> rfl
  rw [← kept first, same, kept second]

/-- No leaf has the type of a tuple. -/
theorem not_node_tuple {outline : Outline} {codes : List Typecode}
    (same : outline.node = .tuple codes) (leaf : ∀ items, outline ≠ .tuple items)
    : False := by
  cases outline with
  | tuple items => exact leaf items rfl
  | scalar element =>
      cases element with
      | scalar kind => cases kind <;> cases same
      | _ => cases same
  | _ => cases same

end Outline

/-- The structural type of a value, through the views that are granted when it is worked out. -/
def Shape.structuralType (value : Shape) : Run Unit Outline :=
  Outline.structural <$> value.outline

-----------------------------------------------------------------------------------------
-- Codes that stand for outlines
-----------------------------------------------------------------------------------------

namespace Registry

mutual

/-- The code stands for the outline: it names the outline's type, and for a tuple a tuple type of
codes that stand for the items.
-/
def Denotes (registry : Registry) : Outline → Typecode → Prop
  | .tuple items, code =>
      ∃ codes, registry.get? code = some (.tuple codes) ∧ DenotesAll registry items codes
  | leaf, code => registry.get? code = some leaf.node

/-- The codes stand for the outlines, one for one. -/
def DenotesAll (registry : Registry) : List Outline → List Typecode → Prop
  | [], [] => True
  | item :: rest, code :: codes => Denotes registry item code ∧ DenotesAll registry rest codes
  | _, _ => False

end

variable {registry later : Registry}

/-- A code that stands for a leaf names its type. -/
theorem Denotes.leaf {outline : Outline} {code : Typecode} (denotes : registry.Denotes outline code)
    (leaf : ∀ items, outline ≠ .tuple items)
    : registry.get? code = some outline.node := by
  cases outline with
  | tuple items => exact absurd rfl (leaf items)
  | _ => exact denotes

mutual

/-- A code that stands for an outline does so ever after, by induction over the outline. -/
theorem Denotes.evolves {outline : Outline} {code : Typecode}
    (denotes : registry.Denotes outline code) (evolves : registry.Evolves later)
    : later.Denotes outline code := by
  cases outline with
  | tuple items =>
      obtain ⟨codes, named, parts⟩ := denotes
      exact ⟨codes, evolves.get? named, parts.evolves evolves⟩
  | _ => exact evolves.get? denotes

theorem DenotesAll.evolves {items : List Outline} {codes : List Typecode}
    (denotes : registry.DenotesAll items codes) (evolves : registry.Evolves later)
    : later.DenotesAll items codes := by
  cases items with
  | nil => cases codes <;> exact denotes
  | cons item rest =>
      cases codes with
      | nil => exact denotes
      | cons code codes => exact ⟨denotes.1.evolves evolves, denotes.2.evolves evolves⟩

end

/-- No two codes name the same type. -/
theorem Sound.get?_inj (sound : registry.Sound) {node : TypeNode} {code code' : Typecode}
    (named : registry.get? code = some node) (named' : registry.get? code' = some node)
    : code = code' := by
  rw [← sound.inverse] at named named'
  exact Option.some.inj (named.symm.trans named')

mutual

/-- Only one code stands for a structural type, by induction over the outlines. -/
theorem Sound.denotes_inj (sound : registry.Sound) {first second : Outline}
    {code code' : Typecode} (denotes : registry.Denotes first code)
    (denotes' : registry.Denotes second code') (same : first.structural = second.structural)
    : code = code' := by
  cases first with
  | tuple items =>
      cases second with
      | tuple others =>
          obtain ⟨codes, named, parts⟩ := denotes
          obtain ⟨codes', named', parts'⟩ := denotes'
          have lists := sound.denotesAll_inj parts parts' (Outline.tuple.inj same)
          exact sound.get?_inj named (lists ▸ named')
      | _ => cases same
  | _ =>
      have leaf' : ∀ others, second ≠ .tuple others := by
        rintro others rfl
        cases same
      have named := denotes.leaf nofun
      rw [Outline.node_eq_of_structural same] at named
      exact sound.get?_inj named (denotes'.leaf leaf')

theorem Sound.denotesAll_inj (sound : registry.Sound) {items others : List Outline}
    {codes codes' : List Typecode} (denotes : registry.DenotesAll items codes)
    (denotes' : registry.DenotesAll others codes')
    (same : Outline.structuralAll items = Outline.structuralAll others)
    : codes = codes' := by
  match items, others, codes, codes' with
  | [], [], [], [] => rfl
  | item :: rest, other :: remaining, code :: codes, code' :: codes' =>
      obtain ⟨heads, tails⟩ := List.cons.inj same
      rw [sound.denotes_inj denotes.1 denotes'.1 heads,
        sound.denotesAll_inj denotes.2 denotes'.2 tails]

end

mutual

/-- A code stands for one structural type, by induction over the outlines. -/
theorem Denotes.structural_eq {first second : Outline} {code : Typecode}
    (denotes : registry.Denotes first code) (denotes' : registry.Denotes second code)
    : first.structural = second.structural := by
  cases first with
  | tuple items =>
      obtain ⟨codes, named, parts⟩ := denotes
      cases second with
      | tuple others =>
          obtain ⟨codes', named', parts'⟩ := denotes'
          cases named.symm.trans named'
          exact congrArg Outline.tuple (parts.structuralAll_eq parts')
      | _ =>
          have nodes := Option.some.inj ((denotes'.leaf nofun).symm.trans named)
          exact (Outline.not_node_tuple nodes nofun).elim
  | _ =>
      cases second with
      | tuple others =>
          obtain ⟨codes, named, -⟩ := denotes'
          have nodes := Option.some.inj ((denotes.leaf nofun).symm.trans named)
          exact (Outline.not_node_tuple nodes nofun).elim
      | _ =>
          have nodes := Option.some.inj ((denotes.leaf nofun).symm.trans (denotes'.leaf nofun))
          exact Outline.structural_eq_of_node nodes nofun nofun

theorem DenotesAll.structuralAll_eq {items others : List Outline} {codes : List Typecode}
    (denotes : registry.DenotesAll items codes) (denotes' : registry.DenotesAll others codes)
    : Outline.structuralAll items = Outline.structuralAll others := by
  cases codes with
  | nil =>
      cases items with
      | nil =>
          cases others with
          | nil => rfl
          | cons other remaining => exact denotes'.elim
      | cons item rest => exact denotes.elim
  | cons code codes =>
      cases items with
      | nil => exact denotes.elim
      | cons item rest =>
          cases others with
          | nil => exact denotes'.elim
          | cons other remaining =>
              rw [Outline.structuralAll, Outline.structuralAll, denotes.1.structural_eq denotes'.1,
                denotes.2.structuralAll_eq denotes'.2]

end

/-- In one registry, two outlines have the same code exactly if they have the same structural type.
-/
theorem Sound.code_eq_iff (sound : registry.Sound) {first second : Outline} {code code' : Typecode}
    (denotes : registry.Denotes first code) (denotes' : registry.Denotes second code')
    : code = code' ↔ first.structural = second.structural := by
  constructor
  · rintro rfl
    exact denotes.structural_eq denotes'
  · exact sound.denotes_inj denotes denotes'

-----------------------------------------------------------------------------------------
-- Full analysis answers codes that stand for outlines
-----------------------------------------------------------------------------------------

variable {logger : Logger}

theorem intern_history {node : TypeNode} {state after : Hosted Registry}
    {outcome : Except Stop Typecode} (ran : (intern logger node).run state = (outcome, after))
    : after.host.history = state.host.history := by
  rw [run_intern] at ran
  cases known : state.own.codeOf? node with
  | some code =>
      rw [known] at ran
      cases ran
      rfl
  | none =>
      rw [known] at ran
      cases numbered : Typecode.ofInt state.own.size with
      | error cause =>
          rw [numbered] at ran
          cases ran
          rfl
      | ok code =>
          rw [numbered] at ran
          dsimp only at ran
          split at ran <;> cases ran <;> rfl

end Registry

/-- Exporters see the history alone. -/
theorem Exporter.acquire_history (exporter : Exporter) {host host' : Host}
    (same : host.history = host'.history)
    : (exporter.acquire host).1 = (exporter.acquire host').1
      ∧ (exporter.acquire host).2.history = (exporter.acquire host').2.history := by
  simp only [acquire, ask, Host.observe, same]
  cases exporter.reply host'.history .writable <;> exact ⟨rfl, rfl⟩

namespace Registry

variable {logger : Logger}

mutual

/-- A code that full analysis answers stands for the outline that the value has through the very
views that the analysis asks for. Witness: structural induction over the shape; the codes of earlier
items keep their meaning while later items are stored.
-/
theorem typeOf_denotes {value : Shape} {registry : Registry} {host host' : Host}
    {after : Hosted Registry} {code : Typecode} (sound : registry.Sound)
    (ran : (typeOf logger value).run ⟨registry, host⟩ = (.ok code, after))
    (same : host'.history = host.history)
    : ∃ outline finish,
        value.outline.run ⟨(), host'⟩ = (.ok outline, ⟨(), finish⟩)
        ∧ finish.history = after.host.history
        ∧ after.own.Denotes outline code := by
  cases value with
  | tuple items =>
      rw [typeOf] at ran
      obtain ⟨codes, middle, content, stored⟩ := Run.run_bind_eq_ok.mp ran
      obtain ⟨outlines, finish, views, likewise, parts⟩ := typesOf_denotes sound content same
      have grown := (typesOf_evolving logger items).ends content
      have named := (grown.sound sound).intern_eq_ok stored
      have silent := intern_history stored
      refine ⟨.tuple outlines, finish, Run.run_bind_ok _ views, likewise.trans silent.symm, ?_⟩
      exact ⟨codes, named, parts.evolves ((intern_evolving logger _).ends stored)⟩
  | buffer exporter =>
      rw [typeOf] at ran
      obtain ⟨node, middle, viewed, stored⟩ := Run.run_bind_eq_ok.mp ran
      obtain ⟨replies, likewise⟩ := exporter.acquire_history same
      rw [Run.run_withView] at viewed
      rw [Shape.outline, Run.run_withView]
      cases granted : exporter.acquire host with
      | mk reply left =>
          cases granted' : exporter.acquire host' with
          | mk reply' left' =>
              rw [granted] at viewed replies likewise
              rw [granted'] at replies likewise
              cases (show reply' = reply from replies)
              cases reply with
              | error refusal => cases viewed
              | ok view =>
                  cases viewed
                  refine ⟨exporter.outline view, exporter.release view left', rfl, ?_, ?_⟩
                  · exact (congrArg (_ :: ·) likewise).trans (intern_history stored).symm
                  · exact sound.intern_eq_ok stored
  | _ =>
      rw [typeOf] at ran
      exact ⟨_, host', rfl, same.trans (intern_history ran).symm, sound.intern_eq_ok ran⟩

theorem typesOf_denotes {items : List Shape} {registry : Registry} {host host' : Host}
    {after : Hosted Registry} {codes : List Typecode} (sound : registry.Sound)
    (ran : (typesOf logger items).run ⟨registry, host⟩ = (.ok codes, after))
    (same : host'.history = host.history)
    : ∃ outlines finish,
        (Shape.outlines items).run ⟨(), host'⟩ = (.ok outlines, ⟨(), finish⟩)
        ∧ finish.history = after.host.history
        ∧ after.own.DenotesAll outlines codes := by
  cases items with
  | nil =>
      cases ran
      exact ⟨[], host', rfl, same, trivial⟩
  | cons item rest =>
      rw [typesOf] at ran
      obtain ⟨code, middle, first, ran⟩ := Run.run_bind_eq_ok.mp ran
      obtain ⟨others, finish, second, ran⟩ := Run.run_bind_eq_ok.mp ran
      cases ran
      obtain ⟨outline, between, view, early, denotes⟩ := typeOf_denotes sound first same
      have grown := (typeOf_evolving logger item).ends first
      obtain ⟨outlines, last, views, late, parts⟩ :=
        typesOf_denotes (grown.sound sound) second early
      refine ⟨outline :: outlines, last, ?_, late, ?_, parts⟩
      · exact (Run.run_bind_ok _ view).trans (Run.run_bind_ok _ views)
      · exact denotes.evolves ((typesOf_evolving logger rest).ends second)

end

end Registry

namespace Analyzer

/-- In the registry that an answered analysis leaves, the code stands for the value's outline. -/
theorem typeOf_denotes {logger : Logger} {value : Shape} {analyzer : Analyzer} {host : Host}
    {code : Typecode} {after : Hosted Analyzer} (sound : analyzer.registry.Sound)
    (ran : (typeOf logger value).run ⟨analyzer, host⟩ = (.ok code, after))
    : analyzer.registry.Evolves after.own.registry
      ∧ ∃ outline,
          (value.outline.run ⟨(), host⟩).1 = .ok outline
          ∧ after.own.registry.Denotes outline code := by
  rw [typeOf, run_onRegistry] at ran
  cases analysed : (Registry.typeOf logger value).run ⟨analyzer.registry, host⟩ with
  | mk outcome finish =>
      rw [analysed] at ran
      cases ran
      have grown := (Registry.typeOf_evolving logger value).ends analysed
      obtain ⟨outline, last, views, -, denotes⟩ := Registry.typeOf_denotes sound analysed rfl
      exact ⟨grown, outline, congrArg Prod.fst views, denotes⟩

/-- A value is typed at some moment and another one later, over a registry of any origin and with
any requests before and between. The codes are equal exactly if the structural types are, each seen
through the views of its moment.
-/
theorem typeOf_code_eq_iff {logger : Logger} {start : Registry} (initial : start.Initial)
    (resolutions : Nat) (before between : List (Request × Host)) {first second : Shape}
    {host host' : Host} {code code' : Typecode} {after after' : Hosted Analyzer}
    (typed : (typeOf logger first).run ⟨serve logger ⟨start, resolutions⟩ before, host⟩
      = (.ok code, after))
    (typed' : (typeOf logger second).run ⟨serve logger after.own between, host'⟩
      = (.ok code', after'))
    : ∃ type type',
        (first.structuralType.run ⟨(), host⟩).1 = .ok type
        ∧ (second.structuralType.run ⟨(), host'⟩).1 = .ok type'
        ∧ (code = code' ↔ type = type') := by
  have early := (serve_evolves logger ⟨start, resolutions⟩ before).sound initial.sound
  obtain ⟨grown, outline, views, denotes⟩ := typeOf_denotes early typed
  have evolves := serve_evolves logger after.own between
  have later := evolves.sound (grown.sound early)
  obtain ⟨grown', outline', views', denotes'⟩ := typeOf_denotes later typed'
  have kept := denotes.evolves (evolves.trans grown')
  have exact := (grown'.sound later).code_eq_iff kept denotes'
  refine ⟨outline.structural, outline'.structural, ?_, ?_, exact⟩
  · rw [Shape.structuralType, Run.run_map, views]
    rfl
  · rw [Shape.structuralType, Run.run_map, views']
    rfl

/-- Host integers and single 64-bit integers, typed around another request. -/
theorem typeOf_code_eq_iff_int64
    : let between := [(Request.typeOf .bytes, Host.fresh)]
      Registry.Initial .empty
      ∧ ∃ after after',
          (typeOf .steady .int).run ⟨serve .steady ⟨.empty, 0⟩ [], .fresh⟩ = (.ok .zero, after)
          ∧ (typeOf .steady (.scalar (.scalar .int64))).run
              ⟨serve .steady after.own between, .fresh⟩
            = (.ok .zero, after')
          ∧ ∃ type type',
              (Shape.int.structuralType.run ⟨(), .fresh⟩).1 = .ok type
              ∧ ((Shape.scalar (.scalar .int64)).structuralType.run ⟨(), .fresh⟩).1 = .ok type'
              ∧ (Typecode.zero = Typecode.zero ↔ type = type') := by
  intro between
  have outcome
      : ((typeOf .steady .int).run ⟨serve .steady ⟨.empty, 0⟩ [], .fresh⟩).1 = .ok .zero := by
    cbv
  have outcome'
      : ((typeOf .steady (.scalar (.scalar .int64))).run
          ⟨serve .steady
              ((typeOf .steady .int).run ⟨serve .steady ⟨.empty, 0⟩ [], .fresh⟩).2.own between,
            .fresh⟩).1
        = .ok .zero := by
    unfold between
    cbv
  have typed := Run.run_of_outcome outcome
  have typed' := Run.run_of_outcome outcome'
  exact ⟨.empty, _, _, typed, typed', typeOf_code_eq_iff .empty 0 [] between typed typed'⟩

end Analyzer

end Typecodes
