import Typecodes.Proofs.Outline
import Typecodes.Proofs.RegistryGrowth

/-! Typing of values whose exporters are steady. The type of such a value is the type of its
outline, whatever host it is worked out on. A registry only grows, and an outline that it has typed
once has the same code ever after, without any change of the registry.
-/

namespace Typecodes

/-- Runs that end in the same way and leave the same own state, whatever hosts they work on. -/
def Run.Matches {σ α : Type} (first second : Run σ α) : Prop :=
  ∀ own host host',
    (first.run ⟨own, host⟩).1 = (second.run ⟨own, host'⟩).1
    ∧ (first.run ⟨own, host⟩).2.own = (second.run ⟨own, host'⟩).2.own

namespace Run.Matches

variable {σ α β : Type}

theorem ofPure (answer : α) : Matches (pure answer : Run σ α) (pure answer) :=
  fun _ _ _ => ⟨rfl, rfl⟩

theorem next {first second : Run σ α} {more others : α → Run σ β} (left : Matches first second)
    (right : ∀ answer, Matches (more answer) (others answer))
    : Matches (first >>= more) (second >>= others) := by
  intro own host host'
  obtain ⟨outcomes, states⟩ := left own host host'
  rw [Run.run_bind, Run.run_bind]
  cases here : first.run ⟨own, host⟩ with
  | mk outcome after =>
      cases there : second.run ⟨own, host'⟩ with
      | mk outcome' after' =>
          rw [here, there] at outcomes states
          obtain ⟨kept, left⟩ := after
          obtain ⟨kept', left'⟩ := after'
          cases outcomes
          cases states
          cases outcome with
          | ok answer => exact right answer kept left left'
          | error ending => exact ⟨rfl, rfl⟩

end Run.Matches

namespace Registry

variable {logger : Logger}

/-- Storing a type depends on the registry alone. -/
theorem intern_matches (logger : Logger) (node : TypeNode)
    : Run.Matches (intern logger node) (intern logger node) := by
  intro own host host'
  rw [run_intern, run_intern]
  dsimp only
  cases own.codeOf? node with
  | some code => exact ⟨rfl, rfl⟩
  | none =>
      cases Typecode.ofInt own.size with
      | error cause => exact ⟨rfl, rfl⟩
      | ok code =>
          dsimp only
          split
          · exact ⟨rfl, rfl⟩
          · exact ⟨rfl, rfl⟩

/-- The later registry has every type of the earlier one under the same code. -/
def Grows (earlier later : Registry) : Prop :=
  ∀ node code, earlier.codeOf? node = some code → later.codeOf? node = some code

theorem Grows.refl (registry : Registry) : registry.Grows registry :=
  fun _ _ found => found

theorem Grows.trans {first second third : Registry} (left : first.Grows second)
    (right : second.Grows third)
    : first.Grows third :=
  fun node code found => right node code (left node code found)

/-- A run after which the registry has grown, however the run ended. -/
def Growing {α : Type} (work : Run Registry α) : Prop :=
  ∀ state : Hosted Registry, state.own.Grows (work.run state).2.own

/-- A registry that stored new types has the earlier ones under the codes that they had. -/
theorem Evolves.grows {earlier later : Registry} (evolves : earlier.Evolves later)
    : earlier.Grows later := by
  induction evolves with
  | refl => exact .refl earlier
  | tail _ follows ih =>
      obtain ⟨missing, next⟩ := follows
      refine ih.trans ?_
      intro other code found
      rw [codeOf?_store, if_neg, found]
      rintro rfl
      cases missing.symm.trans found

theorem Evolving.growing {α : Type} {work : Run Registry α} (evolving : Evolving work)
    : Growing work :=
  fun state => (evolving state).grows

/-- Full analysis only lets the registry grow, also where it fails. -/
theorem typeOf_growing (logger : Logger) (value : Shape) : Growing (typeOf logger value) :=
  (typeOf_evolving logger value).growing

end Registry

-----------------------------------------------------------------------------------------
-- Typing outlines
-----------------------------------------------------------------------------------------

namespace Outline

/-- The type of an outline that is no tuple. -/
def node : Outline → TypeNode
  | .none => .none
  | .bool => .boolean
  | .int => .number .pointerSized
  | .float => .number .float64
  | .complex => .number .complex128
  | .bytes => .bytes
  | .byteArray => .byteArray
  | .tuple _ => .tuple []
  | .scalar element => element.singleNode
  | .array rank layout writable element => .array element rank layout (!writable)
  | .buffer rank layout readOnly format runtimeType =>
      .buffer rank layout readOnly format runtimeType
  | .descriptor element => .descriptor element
  | .foreign runtimeType => .foreign runtimeType

mutual

/-- The typecode of an outline, in the way of full analysis. -/
def typed (logger : Logger) : Outline → Run Registry Typecode
  | .tuple items => do
      let codes ← typedAll logger items
      Registry.intern logger (.tuple codes)
  | leaf => Registry.intern logger leaf.node

/-- The typecodes of outlines, one after the other. -/
def typedAll (logger : Logger) : List Outline → Run Registry (List Typecode)
  | [] => pure []
  | item :: rest => do
      let code ← typed logger item
      let codes ← typedAll logger rest
      return code :: codes

end

variable {logger : Logger}

mutual

/-- Typing an outline only stores new types, by induction over the outline. -/
theorem typed_evolving (logger : Logger) (outline : Outline)
    : Registry.Evolving (outline.typed logger) := by
  cases outline with
  | tuple items =>
      rw [typed]
      exact (typedAll_evolving logger items).next fun _ => Registry.intern_evolving logger _
  | _ =>
      rw [typed]
      · exact Registry.intern_evolving logger _
      · exact nofun

theorem typedAll_evolving (logger : Logger) (items : List Outline)
    : Registry.Evolving (typedAll logger items) := by
  cases items with
  | nil =>
      rw [typedAll]
      exact .ofPure _
  | cons item rest =>
      rw [typedAll]
      exact (typed_evolving logger item).next fun _ =>
        (typedAll_evolving logger rest).next fun _ => .ofPure _

end

/-- The outline has the code in the registry and in all that grow from it. -/
def Settled (logger : Logger) (outline : Outline) (registry : Registry) (code : Typecode) : Prop :=
  ∀ later : Registry,
    registry.Grows later
    → ∀ host, (outline.typed logger).run ⟨later, host⟩ = (.ok code, ⟨later, host⟩)

/-- The same for outlines in a row. -/
def AllSettled (logger : Logger) (items : List Outline) (registry : Registry)
    (codes : List Typecode) : Prop :=
  ∀ later : Registry,
    registry.Grows later
    → ∀ host, (typedAll logger items).run ⟨later, host⟩ = (.ok codes, ⟨later, host⟩)

theorem Settled.grows {outline : Outline} {registry later : Registry} {code : Typecode}
    (settled : outline.Settled logger registry code) (grows : registry.Grows later)
    : outline.Settled logger later code :=
  fun last further => settled last (grows.trans further)

mutual

/-- Once typed, an outline is settled. Witness: structural induction over the outline; the registry
grows from item to item and keeps the types of the items before.
-/
theorem settled_of_typed {outline : Outline} {state after : Hosted Registry} {code : Typecode}
    (ran : (outline.typed logger).run state = (.ok code, after))
    : outline.Settled logger after.own code := by
  intro later grows host
  cases outline with
  | tuple items =>
      rw [typed] at ran ⊢
      obtain ⟨codes, middle, content, stored⟩ := Run.run_bind_eq_ok.mp ran
      have grown := ((Registry.intern_evolving logger (.tuple codes)).ends stored).grows
      rw [Run.run_bind_ok _ (allSettled_of_typed content later (grown.trans grows) host)]
      exact Registry.intern_of_codeOf? (grows _ _ (Registry.intern_eq_ok stored)) host
  | _ =>
      rw [typed] at ran ⊢
      · exact Registry.intern_of_codeOf? (grows _ _ (Registry.intern_eq_ok ran)) host
      · exact nofun
      · exact nofun

theorem allSettled_of_typed {items : List Outline} {state after : Hosted Registry}
    {codes : List Typecode} (ran : (typedAll logger items).run state = (.ok codes, after))
    : AllSettled logger items after.own codes := by
  intro later grows host
  cases items with
  | nil =>
      cases ran
      rfl
  | cons item rest =>
      rw [typedAll] at ran ⊢
      obtain ⟨code, middle, first, ran⟩ := Run.run_bind_eq_ok.mp ran
      obtain ⟨others, finish, second, ran⟩ := Run.run_bind_eq_ok.mp ran
      cases ran
      have grown := ((typedAll_evolving logger rest).ends second).grows
      rw [Run.run_bind_ok _ (settled_of_typed first later (grown.trans grows) host),
        Run.run_bind_ok _ (allSettled_of_typed second later grows host)]
      rfl

end

end Outline

-----------------------------------------------------------------------------------------
-- Values with steady exporters
-----------------------------------------------------------------------------------------

namespace Shape

mutual

/-- The exporters of the buffers in a shape, from left to right. -/
def exporters : Shape → List Exporter
  | .buffer exporter => [exporter]
  | .tuple items => exportersAll items
  | _ => []

/-- The exporters of the buffers in shapes. -/
def exportersAll : List Shape → List Exporter
  | [] => []
  | item :: rest => exporters item ++ exportersAll rest

end

end Shape

/-- A steady exporter's reply to a request for a view is the same on all hosts. -/
theorem Exporter.Steady.acquire {exporter : Exporter} (steady : exporter.Steady)
    (host host' : Host)
    : (exporter.acquire host).1 = (exporter.acquire host').1 := by
  have asked (host host' : Host) (request : BufferRequest)
      : (exporter.ask request host).1 = (exporter.ask request host').1 :=
    steady host.history host'.history request
  have writable := asked host host' .writable
  unfold Exporter.acquire
  cases here : exporter.ask .writable host with
  | mk reply after =>
      cases there : exporter.ask .writable host' with
      | mk reply' after' =>
          rw [here, there] at writable
          cases (show reply = reply' from writable)
          cases reply with
          | ok view => rfl
          | error refusal => exact asked after after' .readOnly

/-- Using views of a steady exporter does the same on any hosts if the uses do. -/
theorem Run.Matches.withView {σ α : Type} {exporter : Exporter} (steady : exporter.Steady)
    (refused : Refusal → Failure) {use : View → Run σ α}
    (used : ∀ view, (use view).Matches (use view))
    : (Run.withView exporter refused use).Matches (Run.withView exporter refused use) := by
  intro own host host'
  have replies := steady.acquire host host'
  rw [Run.run_withView, Run.run_withView]
  cases here : exporter.acquire host with
  | mk reply after =>
      cases there : exporter.acquire host' with
      | mk reply' after' =>
          rw [here, there] at replies
          cases (show reply = reply' from replies)
          cases reply with
          | ok view => exact used view own after after'
          | error refusal => exact ⟨rfl, rfl⟩

namespace Registry

variable {logger : Logger}

mutual

/-- Full analysis of a value with steady exporters does the same on any hosts, by induction over the
shape.
-/
theorem typeOf_matches (logger : Logger) {value : Shape}
    (steady : ∀ exporter ∈ value.exporters, exporter.Steady)
    : (typeOf logger value).Matches (typeOf logger value) := by
  cases value with
  | tuple items =>
      rw [typeOf]
      exact (typesOf_matches logger steady).next fun _ => intern_matches logger _
  | buffer exporter =>
      rw [typeOf]
      have granted := steady exporter List.mem_cons_self
      exact (Run.Matches.withView granted _ fun _ => .ofPure _).next fun _ =>
        intern_matches logger _
  | _ =>
      rw [typeOf]
      exact intern_matches logger _

theorem typesOf_matches (logger : Logger) {items : List Shape}
    (steady : ∀ exporter ∈ Shape.exportersAll items, exporter.Steady)
    : (typesOf logger items).Matches (typesOf logger items) := by
  cases items with
  | nil =>
      rw [typesOf]
      exact .ofPure _
  | cons item rest =>
      rw [typesOf]
      have first := typeOf_matches logger fun exporter member =>
        steady exporter (List.mem_append_left _ member)
      have others := typesOf_matches logger fun exporter member =>
        steady exporter (List.mem_append_right _ member)
      exact first.next fun _ => others.next fun _ => .ofPure _

end

mutual

/-- Full analysis of a value with steady exporters is the typing of its outline, by induction over
the shape.
-/
theorem typeOf_matches_typed (logger : Logger) {value : Shape} {state after : Hosted Unit}
    {outline : Outline} (steady : ∀ exporter ∈ value.exporters, exporter.Steady)
    (views : value.outline.run state = (.ok outline, after))
    : (typeOf logger value).Matches (outline.typed logger) := by
  cases value with
  | tuple items =>
      obtain ⟨outlines, middle, parts, finish⟩ := Run.run_bind_eq_ok.mp views
      cases finish
      rw [typeOf, Outline.typed]
      exact (typesOf_matches_typedAll logger steady parts).next fun _ => intern_matches logger _
  | buffer exporter =>
      have granted := steady exporter List.mem_cons_self
      rw [Shape.outline, Run.run_withView] at views
      cases acquired : exporter.acquire state.host with
      | mk reply host =>
          rw [acquired] at views
          cases reply with
          | error refusal => cases views
          | ok view =>
              cases views
              intro own earlier later
              have replies := granted.acquire earlier state.host
              rw [acquired] at replies
              rw [typeOf, Run.run_bind, Run.run_withView]
              cases there : exporter.acquire earlier with
              | mk reply' host' =>
                  rw [there] at replies
                  cases (show reply' = .ok view from replies)
                  exact intern_matches logger (exporter.node view) own _ later
  | _ =>
      cases views
      exact intern_matches logger _

theorem typesOf_matches_typedAll (logger : Logger) {items : List Shape}
    {state after : Hosted Unit} {outlines : List Outline}
    (steady : ∀ exporter ∈ Shape.exportersAll items, exporter.Steady)
    (views : (Shape.outlines items).run state = (.ok outlines, after))
    : (typesOf logger items).Matches (Outline.typedAll logger outlines) := by
  cases items with
  | nil =>
      cases views
      exact .ofPure _
  | cons item rest =>
      obtain ⟨outline, middle, first, views⟩ := Run.run_bind_eq_ok.mp views
      obtain ⟨others, finish, second, views⟩ := Run.run_bind_eq_ok.mp views
      cases views
      have head := typeOf_matches_typed logger
        (fun exporter member => steady exporter (List.mem_append_left _ member)) first
      have tail := typesOf_matches_typedAll logger
        (fun exporter member => steady exporter (List.mem_append_right _ member)) second
      rw [typesOf, Outline.typedAll]
      exact head.next fun _ => tail.next fun _ => .ofPure _

end

end Registry

end Typecodes
