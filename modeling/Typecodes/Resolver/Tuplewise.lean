import Typecodes.Resolver

/-! Resolvers that type a tuple by its items. Each item is classified by the calling layer, with the
same resolver, so the types of items are stored in the layer on the way to the type of the tuple.
-/

namespace Typecodes

namespace Resolver

/-- A value together with what a resolver does on it. The behaviour is worked out when it is needed,
so that setting the items of a tuple out costs no work on their own items.
-/
structure Item (ω : Type) where
  value : Shape
  behaviour : Unit → Procedure ω

variable {ω : Type}

mutual

/-- The resolver that acts on a value and, if the value is a tuple, on its items with what the same
resolver does on each. The list is empty for other values.
-/
def overItems (act : Shape → List (Item ω) → Procedure ω) : Resolver ω
  | .tuple items => act (.tuple items) (itemsOf act items)
  | value => act value []

/-- The items of a tuple with what the resolver does on each. -/
def itemsOf (act : Shape → List (Item ω) → Procedure ω) : List Shape → List (Item ω)
  | [] => []
  | value :: rest => ⟨value, fun _ => overItems act value⟩ :: itemsOf act rest

end

/-- Has items classified from left to right, up to the first failure, and goes on from their codes.
An item for which the layer is not meant is analysed in full.
-/
def classifyItems (analyse : Shape → Run ω Typecode) (next : List Typecode → Procedure ω)
    : List (Item ω) → List Typecode → Procedure ω
  | [], codes => next codes.reverse
  | item :: rest, codes =>
      .classify item.value item.behaviour fun
        | .ok (some code) => classifyItems analyse next rest (code :: codes)
        | .ok none =>
            .perform (analyse item.value) fun code =>
              classifyItems analyse next rest (code :: codes)
        | .error cause => .done (.error (.failure cause))

/-- What is done on one value: a tuple's items are classified and its type stored, which counts as
no resolution; any other value is resolved in full. An analyzer is part of the resolver's state.
-/
def typeByItems (logger : Logger) (onAnalyzer : Run Analyzer Typecode → Run ω Typecode)
    (value : Shape) (items : List (Item ω)) : Procedure ω :=
  let analyse (item : Shape) := onAnalyzer (Analyzer.resolve logger item)
  match value with
  | .tuple _ =>
      classifyItems analyse
        (fun codes =>
          .perform (onAnalyzer (Analyzer.onRegistry (Registry.intern logger (.tuple codes))))
            fun code => .done (.ok code))
        items []
  | value => .perform (analyse value) fun code => .done (.ok code)

/-- The resolver that types tuples by their items. -/
def tuplewise (logger : Logger) : Resolver Analyzer :=
  overItems (typeByItems logger id)

end Resolver

end Typecodes
