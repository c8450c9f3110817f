import Mathlib
import Typecodes.Proofs.FaithfulStock
import Typecodes.Proofs.Traversals

/-! Classification through a dispatcher gives what full analysis gives. Where a code is in stock the
registry has typed the same outline before and would answer that code again, so leaving the analysis
out changes neither the answers nor the registry.
-/

namespace Typecodes

/-- An item format is plain if its normal form tells it: it is absent, or not empty and without NUL.
-/
def View.PlainFormat (view : View) : Prop :=
  ∀ text, view.format = some text → text ≠ "" ∧ '\x00' ∉ text.toList

/-- Every view that the exporter may ever grant has a plain item format. -/
def Exporter.PlainFormats (exporter : Exporter) : Prop :=
  ∀ earlier request view, exporter.reply earlier request = .ok view → view.PlainFormat

namespace Outline

mutual

/-- The outline of plain formats with the given normal form. -/
def restored : Outline → Outline
  | .buffer rank layout readOnly format runtimeType =>
      .buffer rank layout readOnly (format.filter (· ≠ "")) runtimeType
  | .tuple items => .tuple (restoredAll items)
  | outline => outline

def restoredAll : List Outline → List Outline
  | [] => []
  | item :: rest => restored item :: restoredAll rest

end

/-- The outline can be read back from its normal form. -/
def Plain (outline : Outline) : Prop :=
  outline.normal.restored = outline

/-- Plain outlines with the same bytes are the same. -/
theorem Plain.eq_of_encoding {first second : Outline} (plain : first.Plain) (plain' : second.Plain)
    (encodable : first.encodable = true) (encodable' : second.encodable = true)
    (same : first.encoding = second.encoding)
    : first = second := by
  have forms := encoding_inj encodable encodable' same
  calc
    first = first.normal.restored := plain.symm
    _ = second.normal.restored := congrArg restored forms
    _ = second := plain'

theorem plain_separated : Separated Plain :=
  fun _ _ plain plain' encodable encodable' same =>
    plain.eq_of_encoding plain' encodable encodable' same

end Outline

/-- The outline of a buffer through a view of plain format is plain. -/
theorem View.PlainFormat.outline {view : View} (plain : view.PlainFormat) (exporter : Exporter)
    : (exporter.outline view).Plain := by
  have kept : (some (Text.beforeNul (view.format.getD ""))).filter (· ≠ "") = view.format := by
    cases given : view.format with
    | none => rfl
    | some text =>
        obtain ⟨filled, noNul⟩ := plain text given
        have whole : Text.beforeNul text = text := by
          have every : ∀ char ∈ text.toList, (char != '\x00') = true := by
            intro char member
            simp only [bne_iff_ne, ne_eq]
            rintro rfl
            exact noNul member
          rw [Text.beforeNul, List.takeWhile_eq_self_iff.mpr every, String.ofList_toList]
        simp [whole, filled]
  simp only [Outline.Plain, Exporter.outline, Outline.normal, Outline.restored, kept]

/-- A granted view is a reply of the exporter. -/
theorem Exporter.reply_of_acquire {exporter : Exporter} {host after : Host} {view : View}
    (granted : exporter.acquire host = (.ok view, after))
    : ∃ earlier request, exporter.reply earlier request = .ok view := by
  unfold Exporter.acquire at granted
  cases asked : exporter.ask .writable host with
  | mk reply middle =>
      rw [asked] at granted
      cases reply with
      | ok first =>
          cases granted
          exact ⟨host.history, .writable, congrArg Prod.fst asked⟩
      | error refusal => exact ⟨middle.history, .readOnly, congrArg Prod.fst granted⟩

namespace Shape

mutual

/-- A value of plain formats has a plain outline, by induction over the shape. -/
theorem outline_plain {value : Shape} {state after : Hosted Unit} {outline : Outline}
    (plain : ∀ exporter ∈ value.exporters, exporter.PlainFormats)
    (views : value.outline.run state = (.ok outline, after))
    : outline.Plain := by
  cases value with
  | tuple items =>
      obtain ⟨outlines, middle, parts, finish⟩ := Run.run_bind_eq_ok.mp views
      cases finish
      exact congrArg Outline.tuple (outlines_plain plain parts)
  | buffer exporter =>
      rw [Shape.outline, Run.run_withView] at views
      cases acquired : exporter.acquire state.host with
      | mk reply host =>
          rw [acquired] at views
          cases reply with
          | error refusal => cases views
          | ok view =>
              cases views
              obtain ⟨earlier, request, replied⟩ := Exporter.reply_of_acquire acquired
              have shown := plain exporter List.mem_cons_self earlier request view replied
              exact shown.outline exporter
  | _ =>
      cases views
      rfl

theorem outlines_plain {items : List Shape} {state after : Hosted Unit} {outlines : List Outline}
    (plain : ∀ exporter ∈ exportersAll items, exporter.PlainFormats)
    (views : (Shape.outlines items).run state = (.ok outlines, after))
    : Outline.restoredAll (Outline.normals outlines) = outlines := by
  cases items with
  | nil =>
      cases views
      rfl
  | cons item rest =>
      obtain ⟨outline, middle, first, views⟩ := Run.run_bind_eq_ok.mp views
      obtain ⟨others, finish, second, views⟩ := Run.run_bind_eq_ok.mp views
      cases views
      have head := outline_plain
        (fun exporter member => plain exporter (List.mem_append_left _ member)) first
      have tail := outlines_plain
        (fun exporter member => plain exporter (List.mem_append_right _ member)) second
      rw [Outline.normals, Outline.restoredAll, head, tail]

end

end Shape

-----------------------------------------------------------------------------------------
-- Codes in stock and the registry
-----------------------------------------------------------------------------------------

variable {logger : Logger}

/-- Every code in stock is the one that the registry gives to the outline of its fingerprint. -/
def Stock.Honest (logger : Logger) (stock : Stock) (registry : Registry) : Prop :=
  stock.Faithful logger Outline.Plain registry

/-- A value whose exporters are steady and give plain item formats. -/
def Shape.Regular (value : Shape) : Prop :=
  ∀ exporter ∈ value.exporters, exporter.Steady ∧ exporter.PlainFormats

theorem Shape.Regular.within {value : Shape} (regular : value.Regular)
    : value.Within Outline.Plain where
  steady exporter member := (regular exporter member).1
  outlined _ _ _ views := outline_plain (fun exporter member => (regular exporter member).2) views

-----------------------------------------------------------------------------------------
-- Dispatcher and full analysis side by side
-----------------------------------------------------------------------------------------

namespace Dispatcher

/-- A new dispatcher comes from naming the elementary numbers, and from that alone. -/
theorem names_of_ofRegistry {state after : Hosted Registry} {dispatcher : Dispatcher}
    (made : (ofRegistry logger).run state = (.ok dispatcher, after))
    : ∃ names elementary,
        (Registry.elementaryNames logger).run state = (.ok names, after)
        ∧ ElementaryCodes.ofNames names = .ok elementary
        ∧ dispatcher = ofCodes elementary := by
  obtain ⟨names, middle, named, made⟩ := Run.run_bind_eq_ok.mp made
  obtain ⟨elementary, finish, found, made⟩ := Run.run_bind_eq_ok.mp made
  cases made
  cases told : ElementaryCodes.ofNames names with
  | error cause =>
      rw [told] at found
      cases found
  | ok table =>
      rw [told] at found
      cases found
      exact ⟨names, elementary, named, told, rfl⟩

/-- A new dispatcher has nothing in stock. -/
theorem ofRegistry_eq_ok {state after : Hosted Registry} {dispatcher : Dispatcher}
    (made : (ofRegistry logger).run state = (.ok dispatcher, after))
    : ∃ elementary, dispatcher = ofCodes elementary := by
  obtain ⟨-, elementary, -, -, same⟩ := names_of_ofRegistry made
  exact ⟨elementary, same⟩

/-- Both sides have the same registry, and the dispatcher's stock is honest about it. -/
def Tracks (logger : Logger) (cached : Hosted (Dispatcher × Analyzer))
    (direct : Hosted Analyzer) : Prop :=
  cached.own.2.registry = direct.own.registry
  ∧ ∃ stock, cached.own.1.Holds stock ∧ stock.Honest logger direct.own.registry

/-- What agrees between a classification and the full analysis of the same value. -/
structure Transparent (cached : Except Stop (Option Typecode) × Hosted (Dispatcher × Analyzer))
    (direct : Except Stop Typecode × Hosted Analyzer) : Prop where
  outcome : cached.1 = direct.1.map some
  registry : cached.2.own.2.registry = direct.2.own.registry

/-- One classification does what full analysis does, and the stock stays honest. -/
theorem Tracks.classify (spares : logger.SparesLayers) {value : Shape} (regular : value.Regular)
    {cached : Hosted (Dispatcher × Analyzer)} {direct : Hosted Analyzer}
    (tracks : Tracks logger cached direct)
    : Transparent ((Resolver.classify logger (.analysis logger) value).run cached)
        ((Analyzer.typeOf logger value).run direct)
      ∧ Tracks logger ((Resolver.classify logger (.analysis logger) value).run cached).2
        ((Analyzer.typeOf logger value).run direct).2 := by
  obtain ⟨⟨dispatcher, own⟩, host⟩ := cached
  obtain ⟨⟨registry, requests⟩, host'⟩ := direct
  obtain ⟨rfl, stock, holding, honest⟩ := tracks
  change stock.Faithful logger Outline.Plain own.registry at honest
  obtain ⟨outcome, registries, later⟩ :=
    (remembers spares).analyses Outline.plain_separated regular.within holding honest host host'
  exact ⟨⟨outcome, registries⟩, registries, later⟩

/-- Classification through a new dispatcher over a registry, with full analysis as the resolver, is
full analysis: on any values whose exporters are steady and give plain item formats, one after the
other, it returns the same codes and the same failures, and the registries stay the same.
-/
theorem transparent (spares : logger.SparesLayers) {registry made : Registry}
    {dispatcher : Dispatcher} {before after : Host}
    (installed : (ofRegistry logger).run ⟨registry, before⟩ = (.ok dispatcher, ⟨made, after⟩))
    {values : List Shape} (regular : ∀ value ∈ values, value.Regular) (host host' : Host)
    (requests requests' : Nat)
    : List.Forall₂ Transparent
        (Run.each (Resolver.classify logger (.analysis logger)) values
          ⟨(dispatcher, ⟨made, requests⟩), host⟩)
        (Run.each (Analyzer.typeOf logger) values ⟨⟨made, requests'⟩, host'⟩) := by
  obtain ⟨elementary, rfl⟩ := ofRegistry_eq_ok installed
  refine Run.each_related (Tracks logger) ?_ ?_
  · intro value member cached direct tracks
    exact tracks.classify spares (regular value member)
  · exact ⟨rfl, .empty, holds_ofCodes elementary, nofun⟩

/-- Arrays and buffers in tuples, met again, over a registry that was empty. -/
theorem transparent_tuples
    : let exporter : Exporter := ⟨0, ⟨9⟩, fun _ _ => .ok ⟨1, ⟨1⟩, false, some "d"⟩⟩
      let array : Shape := .array ⟨2, ⟨1⟩, true, .scalar .float64⟩
      let pair : Shape := .tuple [array, .buffer exporter]
      let values := [array, pair, .foreign ⟨7⟩, pair, array]
      (∀ value ∈ values, value.Regular)
      ∧ ∃ dispatcher after,
          (ofRegistry .steady).run ⟨.empty, .fresh⟩ = (.ok dispatcher, after)
          ∧ List.Forall₂ Transparent
              (Run.each (Resolver.classify .steady (.analysis .steady)) values
                ⟨(dispatcher, ⟨after.own, 0⟩), .fresh⟩)
              (Run.each (Analyzer.typeOf .steady) values ⟨⟨after.own, 0⟩, .fresh⟩) := by
  intro exporter array pair values
  have steady : exporter.Steady := fun _ _ _ => rfl
  have formats : exporter.PlainFormats := by
    intro earlier request view granted text given
    cases granted
    cases given
    decide
  have regular : ∀ value ∈ values, value.Regular := by
    intro value member
    simp only [values, List.mem_cons, List.not_mem_nil, or_false] at member
    rcases member with rfl | rfl | rfl | rfl | rfl
      <;> intro other buffer
      <;> simp only [Shape.exporters, Shape.exportersAll, array, pair, List.nil_append,
        List.append_nil, List.mem_singleton, List.not_mem_nil] at buffer
      <;> exact buffer ▸ ⟨steady, formats⟩
  refine ⟨regular, ?_⟩
  have succeeds : ((ofRegistry .steady).run ⟨.empty, .fresh⟩).1.isOk = true := by cbv
  cases installed : (ofRegistry .steady).run ⟨.empty, .fresh⟩ with
  | mk outcome after =>
      rw [installed] at succeeds
      cases outcome with
      | error ending => cases succeeds
      | ok dispatcher =>
          exact ⟨dispatcher, after, rfl,
            transparent Logger.steady_sparesLayers installed regular .fresh .fresh 0 0⟩

end Dispatcher

end Typecodes
