import Typecodes.Proofs.RegistryGrowth

/-! Full analysis part by part. The type of a value is worked out, from its items or from its view,
and is then stored. A part of a value is reached when everything before it is typed: the elder items
of the enclosing tuples, from the outermost inwards. If the analysis stops, it does so at one part,
and everything is left as that part leaves it.
-/

namespace Typecodes

-----------------------------------------------------------------------------------------
-- Places in a value
-----------------------------------------------------------------------------------------

/-- The surroundings of an item in its tuple: the items before it and those after it. -/
structure Frame where
  elders : List Shape
  juniors : List Shape

namespace Frame

/-- The value in which a part lies, by its surroundings from the outermost tuple inwards. -/
def around : List Frame → Shape → Shape
  | [], part => part
  | frame :: inner, part => .tuple (frame.elders ++ around inner part :: frame.juniors)

/-- What comes before a part: the elder items of each enclosing tuple, from the outermost tuple
inwards.
-/
def before : List Frame → List Shape
  | [] => []
  | frame :: inner => frame.elders ++ before inner

end Frame

namespace Registry

variable {logger : Logger}

-----------------------------------------------------------------------------------------
-- The type of a value, before it is stored
-----------------------------------------------------------------------------------------

/-- The type of a value. The items of a tuple are stored on the way, the type itself is not. -/
def nodeOf (logger : Logger) : Shape → Run Registry TypeNode
  | .none => pure .none
  | .bool => pure .boolean
  | .int => pure (.number .pointerSized)
  | .float => pure (.number .float64)
  | .complex => pure (.number .complex128)
  | .bytes => pure .bytes
  | .byteArray => pure .byteArray
  | .tuple items => .tuple <$> typesOf logger items
  | .scalar element => pure element.singleNode
  | .array shape => pure shape.node
  | .buffer exporter =>
      Run.withView exporter (fun refusal => .resolution refusal.message) fun view =>
        pure (exporter.node view)
  | .descriptor element => pure (.descriptor element)
  | .foreign runtimeType => pure (.foreign runtimeType)

theorem typeOf_eq (logger : Logger) (value : Shape)
    : typeOf logger value = nodeOf logger value >>= intern logger := by
  cases value <;> simp only [typeOf, nodeOf, pure_bind, bind_map_left]

/-- Nothing is stored to work out the type of a leaf, and it is not a tuple type. -/
theorem nodeOf_leaf {value : Shape} (leaf : ∀ items, value ≠ .tuple items)
    {state after : Hosted Registry} {outcome : Except Stop TypeNode}
    (ran : (nodeOf logger value).run state = (outcome, after))
    : after.own = state.own ∧ ∀ items, outcome ≠ .ok (.tuple items) := by
  cases value with
  | tuple items => exact absurd rfl (leaf items)
  | buffer exporter =>
      rw [nodeOf, Run.run_withView] at ran
      cases acquired : exporter.acquire state.host with
      | mk reply host =>
          rw [acquired] at ran
          cases reply <;> cases ran <;> simp [Exporter.node]
  | scalar element =>
      cases ran
      refine ⟨rfl, ?_⟩
      intro items same
      have single := Except.ok.inj same
      cases element with
      | scalar kind => cases kind <;> cases single
      | _ => cases single
  | _ =>
      cases ran
      simp [ArrayShape.node]

theorem nodeOf_evolving (logger : Logger) (value : Shape) : Evolving (nodeOf logger value) := by
  cases value with
  | tuple items => exact (typesOf_evolving logger items).next fun _ => .ofPure _
  | buffer exporter => exact .withView exporter _ fun _ => .ofPure _
  | _ => exact .ofPure _

/-- Items in two rows are typed row by row, by induction over the first. -/
theorem typesOf_append (logger : Logger) (first second : List Shape)
    : typesOf logger (first ++ second)
      = do
          let codes ← typesOf logger first
          let others ← typesOf logger second
          return codes ++ others := by
  induction first with
  | nil => simp [typesOf]
  | cons item rest ih => simp [typesOf, ih]

-----------------------------------------------------------------------------------------
-- Where the analysis stops
-----------------------------------------------------------------------------------------

/-- How the analysis of a part stops by itself: its buffer grants no view, or its type is worked out
and cannot be stored.
-/
inductive StopsAt (logger : Logger) (part : Shape) (state : Hosted Registry)
    : Stop → Hosted Registry → Prop
  | refused {exporter refusal host} (leaf : part = .buffer exporter)
    (asked : exporter.acquire state.host = (.error refusal, host))
    : StopsAt logger part state (.failure (.resolution refusal.message)) ⟨state.own, host⟩
  | unstored {node worked ending after}
    (needed : (nodeOf logger part).run state = (.ok node, worked))
    (stopped : (intern logger node).run worked = (.error ending, after))
    : StopsAt logger part state ending after

mutual

/-- If full analysis stops, it does so at a part, and everything before that part is typed by then.
Witness: structural induction over the shape; the items of a tuple are parts at a deeper place.
-/
theorem typeOf_stops {value : Shape} {state after : Hosted Registry} {ending : Stop}
    (stopped : (typeOf logger value).run state = (.error ending, after))
    : ∃ frames part codes middle,
        value = Frame.around frames part
        ∧ (typesOf logger (Frame.before frames)).run state = (.ok codes, middle)
        ∧ StopsAt logger part middle ending after := by
  have here (stops : StopsAt logger value state ending after)
      : ∃ frames part codes middle,
          value = Frame.around frames part
          ∧ (typesOf logger (Frame.before frames)).run state = (.ok codes, middle)
          ∧ StopsAt logger part middle ending after :=
    ⟨[], value, [], state, rfl, rfl, stops⟩
  rw [typeOf_eq] at stopped
  rcases Run.run_bind_eq_error.mp stopped with early | ⟨node, worked, needed, late⟩
  · cases value with
    | tuple items =>
        rw [nodeOf, Run.run_map_eq_error] at early
        obtain ⟨frame, inner, part, codes, middle, rfl, typed, stops⟩ := typesOf_stops early
        exact ⟨frame :: inner, part, codes, middle, rfl, typed, stops⟩
    | buffer exporter =>
        rw [nodeOf, Run.run_withView] at early
        cases acquired : exporter.acquire state.host with
        | mk reply host =>
            rw [acquired] at early
            cases reply with
            | error refusal =>
                cases early
                exact here (.refused rfl acquired)
            | ok view => cases early
    | _ => cases early
  · exact here (.unstored needed late)

theorem typesOf_stops {items : List Shape} {state after : Hosted Registry} {ending : Stop}
    (stopped : (typesOf logger items).run state = (.error ending, after))
    : ∃ frame inner part codes middle,
        items = frame.elders ++ Frame.around inner part :: frame.juniors
        ∧ (typesOf logger (Frame.before (frame :: inner))).run state = (.ok codes, middle)
        ∧ StopsAt logger part middle ending after := by
  cases items with
  | nil => cases stopped
  | cons item rest =>
      rw [typesOf] at stopped
      rcases Run.run_bind_eq_error.mp stopped with early | ⟨code, middle, first, late⟩
      · obtain ⟨inner, part, codes, reached, rfl, typed, stops⟩ := typeOf_stops early
        exact ⟨⟨[], rest⟩, inner, part, codes, reached, rfl, typed, stops⟩
      · rcases Run.run_bind_eq_error.mp late with early | ⟨_, _, _, done⟩
        · obtain ⟨frame, inner, part, codes, reached, rfl, typed, stops⟩ := typesOf_stops early
          refine ⟨⟨item :: frame.elders, frame.juniors⟩, inner, part, code :: codes, reached, rfl,
            ?_, stops⟩
          rw [Frame.before, List.cons_append, typesOf, Run.run_bind_ok _ first]
          exact Run.run_bind_ok _ typed
        · cases done

end

/-- Where everything before a part and then the part itself is typed, a stop on the way stops the
analysis of the whole value in the same way, by induction over the surroundings.
-/
theorem typeOf_around (frames : List Frame) (part : Shape) {state after : Hosted Registry}
    {ending : Stop}
    (stopped
      : (do
          let _ ← typesOf logger (Frame.before frames)
          typeOf logger part).run state
        = (.error ending, after))
    : (typeOf logger (Frame.around frames part)).run state = (.error ending, after) := by
  induction frames generalizing state with
  | nil => exact stopped
  | cons frame inner ih =>
      have stops
          : (typesOf logger (frame.elders ++ Frame.around inner part :: frame.juniors)).run state
            = (.error ending, after) := by
        rw [Frame.before, typesOf_append] at stopped
        simp only [bind_assoc, pure_bind] at stopped
        rw [typesOf_append]
        apply Run.run_bind_eq_error.mpr
        rcases Run.run_bind_eq_error.mp stopped with early | ⟨codes, middle, typed, late⟩
        · exact .inl early
        · refine .inr ⟨codes, middle, typed, ?_⟩
          rw [typesOf]
          exact Run.run_bind_error _ (Run.run_bind_error _ (ih late))
      rw [Frame.around, typeOf]
      exact Run.run_bind_error _ stops

end Registry

end Typecodes
