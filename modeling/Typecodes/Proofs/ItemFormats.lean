import Mathlib
import Typecodes.Proofs.FaithfulStock
import Typecodes.Proofs.StructuralTypes
import Typecodes.Proofs.Traversals

/-! Item formats and fingerprints. A fingerprint has the item format of a buffer up to its first
NUL, and an absent format as an empty one, whereas the type of a buffer has the format as it is
given. Two values with one fingerprint therefore have the same typecode exactly if they have the
same item formats, and the answers of a fingerprint table are exact for values among which the
fingerprints tell the formats.
-/

namespace Typecodes

-----------------------------------------------------------------------------------------
-- What a normal form leaves out
-----------------------------------------------------------------------------------------

namespace Outline

mutual

/-- The item formats of the buffers in an outline, from left to right. -/
def formats : Outline → List (Option String)
  | .buffer _ _ _ format _ => [format]
  | .tuple items => formatsAll items
  | _ => []

/-- The item formats of the buffers in outlines. -/
def formatsAll : List Outline → List (Option String)
  | [] => []
  | item :: rest => formats item ++ formatsAll rest

end

mutual

/-- Normal form and formats determine an outline, also where other formats follow. Witness:
induction over both outlines; the normal form tells how many formats there are.
-/
theorem eq_of_formats_append {first second : Outline} {rest rest' : List (Option String)}
    (forms : first.normal = second.normal)
    (same : first.formats ++ rest = second.formats ++ rest')
    : first = second ∧ rest = rest' := by
  cases first with
  | tuple items =>
      cases second with
      | tuple others =>
          obtain ⟨rfl, left⟩ := eq_of_formatsAll_append (Outline.tuple.inj forms) same
          exact ⟨rfl, left⟩
      | _ => cases forms
  | buffer rank layout readOnly format runtimeType =>
      cases second with
      | buffer rank' layout' readOnly' format' runtimeType' =>
          obtain ⟨rfl, rfl, rfl, -, rfl⟩ := Outline.buffer.inj forms
          obtain ⟨rfl, left⟩ := List.cons.inj same
          exact ⟨rfl, left⟩
      | _ => cases forms
  | _ =>
      cases second <;> cases forms
      exact ⟨rfl, same⟩

theorem eq_of_formatsAll_append {items others : List Outline} {rest rest' : List (Option String)}
    (forms : normals items = normals others)
    (same : formatsAll items ++ rest = formatsAll others ++ rest')
    : items = others ∧ rest = rest' := by
  cases items with
  | nil =>
      cases others with
      | nil => exact ⟨rfl, same⟩
      | cons other remaining => cases forms
  | cons item more =>
      cases others with
      | nil => cases forms
      | cons other remaining =>
          obtain ⟨head, tail⟩ := List.cons.inj forms
          rw [formatsAll, formatsAll, List.append_assoc, List.append_assoc] at same
          obtain ⟨rfl, others⟩ := eq_of_formats_append head same
          obtain ⟨rfl, left⟩ := eq_of_formatsAll_append tail others
          exact ⟨rfl, left⟩

end

theorem eq_of_formats {first second : Outline} (forms : first.normal = second.normal)
    (same : first.formats = second.formats)
    : first = second :=
  (eq_of_formats_append forms (congrArg (· ++ []) same)).1

mutual

/-- The structural type has the formats of the outline. -/
theorem formats_structural (outline : Outline) : outline.structural.formats = outline.formats := by
  cases outline with
  | tuple items => exact formatsAll_structural items
  | _ => rfl

theorem formatsAll_structural (items : List Outline)
    : formatsAll (structuralAll items) = formatsAll items := by
  cases items with
  | nil => rfl
  | cons item rest =>
      rw [structuralAll, formatsAll, formatsAll, formats_structural item,
        formatsAll_structural rest]

end

end Outline

-----------------------------------------------------------------------------------------
-- Values with the same fingerprint
-----------------------------------------------------------------------------------------

namespace Shape

/-- The item formats of the views that are granted for a value, from left to right. -/
def formats (value : Shape) : Run Unit (List (Option String)) :=
  Outline.formats <$> value.outline

/-- Among the values, whatever the views are, the same fingerprint means the same item formats. -/
def FormatsTold (values : List Shape) : Prop :=
  ∀ first ∈ values, ∀ second ∈ values, ∀ host host' : Host, ∀ bytes,
    (first.fingerprint.run (⟨(), host⟩ : Hosted Unit)).1 = .ok bytes
    → (second.fingerprint.run (⟨(), host'⟩ : Hosted Unit)).1 = .ok bytes
    → (first.formats.run ⟨(), host⟩).1 = (second.formats.run ⟨(), host'⟩).1

/-- Outlines of one fingerprint differ in the item formats if they differ at all. -/
theorem outline_eq_iff {first second : Shape} {host host' left left' : Host} {bytes : Bytes}
    (printed : first.fingerprint.run (⟨(), host⟩ : Hosted Unit) = (.ok bytes, ⟨(), left⟩))
    (printed' : second.fingerprint.run (⟨(), host'⟩ : Hosted Unit) = (.ok bytes, ⟨(), left'⟩))
    : ∃ outline outline',
        first.outline.run ⟨(), host⟩ = (.ok outline, ⟨(), left⟩)
        ∧ second.outline.run ⟨(), host'⟩ = (.ok outline', ⟨(), left'⟩)
        ∧ (outline = outline'
          ↔ (first.formats.run ⟨(), host⟩).1 = (second.formats.run ⟨(), host'⟩).1) := by
  obtain ⟨outline, views, encodable, rfl, -⟩ := fingerprint_eq_ok printed
  obtain ⟨outline', views', encodable', same, -⟩ := fingerprint_eq_ok printed'
  refine ⟨outline, outline', views, views', ?_⟩
  rw [formats, formats, Run.run_map, Run.run_map, views, views']
  constructor
  · rintro rfl
    rfl
  · intro shown
    have forms := Outline.encoding_inj encodable encodable' same
    exact Outline.eq_of_formats forms (Except.ok.inj shown)

/-- Two values with one fingerprint, typed one after the other in one registry, get the same code
exactly if they show the same item formats then.
-/
theorem code_eq_iff_formats {logger : Logger} {first second : Shape} {registry later : Registry}
    {host host' : Host} {after after' : Hosted Registry} {code code' : Typecode} {bytes : Bytes}
    (sound : registry.Sound)
    (typed : (Registry.typeOf logger first).run ⟨registry, host⟩ = (.ok code, after))
    (evolves : after.own.Evolves later)
    (typed' : (Registry.typeOf logger second).run ⟨later, host'⟩ = (.ok code', after'))
    (printed : (first.fingerprint.run (⟨(), host⟩ : Hosted Unit)).1 = .ok bytes)
    (printed' : (second.fingerprint.run (⟨(), host'⟩ : Hosted Unit)).1 = .ok bytes)
    : code = code'
      ↔ (first.formats.run ⟨(), host⟩).1 = (second.formats.run ⟨(), host'⟩).1 := by
  obtain ⟨outline, outline', views, views', equal⟩ :=
    outline_eq_iff (Run.run_of_outcome printed) (Run.run_of_outcome printed')
  have middle := evolves.sound (((Registry.typeOf_evolving logger first).ends typed).sound sound)
  have grown := (Registry.typeOf_evolving logger second).ends typed'
  obtain ⟨shown, finish, again, -, denotes⟩ := Registry.typeOf_denotes sound typed rfl
  obtain ⟨shown', finish', again', -, denotes'⟩ := Registry.typeOf_denotes middle typed' rfl
  cases views.symm.trans again
  cases views'.symm.trans again'
  rw [(grown.sound middle).code_eq_iff (denotes.evolves (evolves.trans grown)) denotes', ← equal]
  constructor
  · intro same
    rw [equal, formats, formats, Run.run_map, Run.run_map, views, views']
    have formats := congrArg Outline.formats same
    rw [Outline.formats_structural, Outline.formats_structural] at formats
    exact congrArg Except.ok formats
  · rintro rfl
    rfl

/-- The outlines that some view of one of the values shows. -/
def Shows (values : List Shape) (outline : Outline) : Prop :=
  ∃ value ∈ values, ∃ state after, value.outline.run state = (.ok outline, after)

theorem FormatsTold.separated {values : List Shape} (told : FormatsTold values)
    : Outline.Separated (Shows values) := by
  rintro outline outline' ⟨first, member, ⟨⟨⟩, host⟩, ⟨⟨⟩, left⟩, views⟩
    ⟨second, member', ⟨⟨⟩, host'⟩, ⟨⟨⟩, left'⟩, views'⟩ encodable encodable' same
  have printed
      : first.fingerprint.run (⟨(), host⟩ : Hosted Unit) = (.ok outline.encoding, ⟨(), left⟩) :=
    fingerprint_of_outline views encodable
  have printed'
      : second.fingerprint.run (⟨(), host'⟩ : Hosted Unit) = (.ok outline.encoding, ⟨(), left'⟩) :=
    same ▸ fingerprint_of_outline views' encodable'
  obtain ⟨first', second', again, again', equal⟩ := outline_eq_iff printed printed'
  cases views.symm.trans again
  cases views'.symm.trans again'
  exact equal.mpr (told first member second member' host host' outline.encoding
    (congrArg Prod.fst printed) (congrArg Prod.fst printed'))

theorem within_shows {values : List Shape} {value : Shape} (member : value ∈ values)
    (steady : ∀ exporter ∈ value.exporters, exporter.Steady)
    : value.Within (Shows values) where
  steady := steady
  outlined state _ after views := ⟨value, member, state, after, views⟩

end Shape

-----------------------------------------------------------------------------------------
-- What an answer of the table names
-----------------------------------------------------------------------------------------

/-- The code names the type of the value: full analysis would answer it without storing anything,
and it stands for the value's outline.
-/
structure Registry.Names (logger : Logger) (registry : Registry) (value : Shape) (code : Typecode)
    : Prop where
  answered : ∀ host, ((typeOf logger value).run ⟨registry, host⟩).1 = .ok code
  unchanged : ∀ host, ((typeOf logger value).run ⟨registry, host⟩).2.own = registry
  denotes
    : ∀ host outline,
        (value.outline.run ⟨(), host⟩).1 = .ok outline → registry.Denotes outline code

variable {logger : Logger}

/-- Once full analysis of a value with steady exporters has answered a code, the code names the type
of the value.
-/
theorem Registry.names_of_typeOf {value : Shape} {registry : Registry} {host : Host}
    {after : Hosted Registry} {code : Typecode} (sound : registry.Sound)
    (steady : ∀ exporter ∈ value.exporters, exporter.Steady)
    (ran : (typeOf logger value).run ⟨registry, host⟩ = (.ok code, after))
    : after.own.Names logger value code := by
  obtain ⟨outline, finish, views, -⟩ := typeOf_denotes sound ran rfl
  obtain ⟨outcome, kept⟩ := typeOf_matches_typed logger steady views registry host host
  rw [ran] at outcome kept
  have settled := Outline.settled_of_typed (Run.run_of_outcome outcome.symm)
  rw [← kept] at settled
  have again (host' : Host)
      : ((typeOf logger value).run ⟨after.own, host'⟩).1 = .ok code
        ∧ ((typeOf logger value).run ⟨after.own, host'⟩).2.own = after.own := by
    obtain ⟨outcome', kept'⟩ := typeOf_matches_typed logger steady views after.own host' host'
    rw [settled after.own (.refl _) host'] at outcome' kept'
    exact ⟨outcome', kept'⟩
  refine ⟨fun host' => (again host').1, fun host' => (again host').2, ?_⟩
  intro host' outline' views'
  obtain ⟨answered, unchanged⟩ := again host'
  have grown := ((typeOf_evolving logger value).ends ran).sound sound
  obtain ⟨other, last, others, -, denotes⟩ :=
    typeOf_denotes grown (Run.run_of_outcome answered) rfl
  rw [others] at views'
  cases views'
  rw [unchanged] at denotes
  exact denotes

namespace FingerprintTable

/-- Among values with steady exporters whose fingerprints tell their item formats, values with one
fingerprint have the same type in every registry, and whatever a new table answers for a value over
a registry, with full analysis as the resolver, names the type of that value.
-/
theorem answers_name_types (spares : logger.SparesLayers) {registry : Registry}
    (sound : registry.Sound) {values : List Shape}
    (steady : ∀ value ∈ values, ∀ exporter ∈ value.exporters, exporter.Steady)
    (told : Shape.FormatsTold values) (requests : Nat) (host : Host)
    : (∀ first ∈ values, ∀ second ∈ values, ∀ host host' : Host, ∀ bytes,
          (first.fingerprint.run (⟨(), host⟩ : Hosted Unit)).1 = .ok bytes
          → (second.fingerprint.run (⟨(), host'⟩ : Hosted Unit)).1 = .ok bytes
          → (Registry.typeOf logger first).Matches (Registry.typeOf logger second))
      ∧ List.Forall₂
          (fun value step =>
            ∀ code,
              step.1 = .ok (some code) → step.2.own.2.registry.Names logger value code)
          values
          (Run.each (Resolver.classify logger (.analysis logger)) values
            ⟨(empty, ⟨registry, requests⟩), host⟩) := by
  constructor
  · intro first member second member' early late bytes printed printed'
    obtain ⟨outline, outline', views, views', equal⟩ :=
      Shape.outline_eq_iff (Run.run_of_outcome printed) (Run.run_of_outcome printed')
    cases equal.mpr (told first member second member' early late bytes printed printed')
    have left := Registry.typeOf_matches_typed logger (steady first member) views
    have right := Registry.typeOf_matches_typed logger (steady second member') views'
    intro own here there
    obtain ⟨outcome, kept⟩ := left own here here
    obtain ⟨outcome', kept'⟩ := right own there here
    exact ⟨outcome.trans outcome'.symm, kept.trans kept'.symm⟩
  · refine Run.each_ensures
      (fun state => state.own.2.registry.Sound
        ∧ ∃ stock, state.own.1.Holds stock
          ∧ stock.Faithful logger (Shape.Shows values) state.own.2.registry)
      ?_ ⟨sound, Stock.empty, holds_empty, .ofEmpty registry⟩
    rintro value member ⟨⟨table, own⟩, host⟩ ⟨sound, stock, holding, faithful⟩
    obtain ⟨outcome, registries, later⟩ :=
      (remembers spares).analyses told.separated
        (Shape.within_shows member (steady value member)) holding faithful host host
    have evolves := Registry.typeOf_evolving logger value ⟨own.registry, host⟩
    refine ⟨?_, registries ▸ evolves.sound sound, registries ▸ later⟩
    intro code answered
    rw [registries]
    cases analysed : (Registry.typeOf logger value).run ⟨own.registry, host⟩ with
    | mk ending after =>
        rw [analysed] at outcome
        rw [outcome] at answered
        cases ending with
        | error _ => cases answered
        | ok typed =>
            cases answered
            exact Registry.names_of_typeOf sound (steady value member) analysed

/-- Two buffers that differ in a redundant contiguity flag. Their fingerprints are the same, so are
their types in every registry, and the code that the table answers for both names the type of each.
-/
theorem answers_name_types_twice
    : let first : Shape := .buffer ⟨1, ⟨9⟩, fun _ _ => .ok ⟨1, ⟨1⟩, false, some "d"⟩⟩
      let second : Shape := .buffer ⟨2, ⟨9⟩, fun _ _ => .ok ⟨1, ⟨3⟩, false, some "d"⟩⟩
      let values := [first, second]
      let bytes : Bytes := [66, 1, 0, 0, 0, 67, 87, 100, 0, 9, 0, 0, 0, 0, 0, 0, 0]
      let steps := Run.each (Resolver.classify .steady (.analysis .steady)) values
        ⟨(empty, ⟨.empty, 0⟩), .fresh⟩
      (∀ value ∈ values, ∀ exporter ∈ value.exporters, exporter.Steady)
      ∧ Shape.FormatsTold values
      ∧ (first.fingerprint.run (⟨(), .fresh⟩ : Hosted Unit)).1 = .ok bytes
      ∧ (second.fingerprint.run (⟨(), .fresh⟩ : Hosted Unit)).1 = .ok bytes
      ∧ (Registry.typeOf .steady first).Matches (Registry.typeOf .steady second)
      ∧ steps.map Prod.fst = [.ok (some .zero), .ok (some .zero)]
      ∧ List.Forall₂
          (fun value step =>
            ∀ code,
              step.1 = .ok (some code) → step.2.own.2.registry.Names .steady value code)
          values steps := by
  intro first second values bytes steps
  have steady : ∀ value ∈ values, ∀ exporter ∈ value.exporters, exporter.Steady := by
    intro value member exporter buffer
    rcases List.mem_pair.mp member with rfl | rfl
    all_goals
      cases List.mem_singleton.mp buffer
      exact fun _ _ _ => rfl
  have told : Shape.FormatsTold values := by
    have shown (value : Shape) (member : value ∈ values) (host : Host)
        : (value.formats.run ⟨(), host⟩).1 = .ok [some "d"] := by
      rcases List.mem_pair.mp member with rfl | rfl <;> rfl
    intro left member right member' host host' _ _ _
    rw [shown left member, shown right member']
  have printed : (first.fingerprint.run (⟨(), .fresh⟩ : Hosted Unit)).1 = .ok bytes := by
    decide +kernel
  have printed' : (second.fingerprint.run (⟨(), .fresh⟩ : Hosted Unit)).1 = .ok bytes := by
    decide +kernel
  have answered : steps.map Prod.fst = [.ok (some .zero), .ok (some .zero)] := by
    unfold steps values second first
    cbv
  obtain ⟨alike, named⟩ :=
    answers_name_types Logger.steady_sparesLayers Registry.sound_empty steady told 0 .fresh
  have matching := alike first List.mem_cons_self second
    (List.mem_cons_of_mem _ List.mem_cons_self) .fresh .fresh bytes printed printed'
  exact ⟨steady, told, printed, printed', matching, answered, named⟩

/-- Two buffers, one without an item format and one with an empty one, have the same fingerprint.
The table answers the code of the first for the second, which full analysis tells apart.
-/
theorem answers_absent_for_empty
    : let absent : Exporter := ⟨0, ⟨9⟩, fun _ _ => .ok ⟨1, ⟨1⟩, false, none⟩⟩
      let blank : Exporter := ⟨1, ⟨9⟩, fun _ _ => .ok ⟨1, ⟨1⟩, false, some ""⟩⟩
      let first := (Resolver.classify .steady (.analysis .steady) (.buffer absent)).run
        ⟨(empty, ⟨.empty, 0⟩), .fresh⟩
      let second :=
        (Resolver.classify .steady (.analysis .steady) (.buffer blank)).run first.2
      let registry := second.2.own.2.registry
      absent.Steady
      ∧ blank.Steady
      ∧ (∃ bytes, ∀ host : Host,
          ((Shape.buffer absent).fingerprint.run (⟨(), host⟩ : Hosted Unit)).1 = .ok bytes
          ∧ ((Shape.buffer blank).fingerprint.run (⟨(), host⟩ : Hosted Unit)).1 = .ok bytes)
      ∧ first.1 = .ok (some .zero)
      ∧ second.1 = .ok (some .zero)
      ∧ ((Registry.typeOf .steady (.buffer absent)).run ⟨registry, .fresh⟩).1 = .ok .zero
      ∧ ((Registry.typeOf .steady (.buffer blank)).run ⟨registry, .fresh⟩).1
        = .ok ⟨⟨1, by decide⟩⟩ := by
  intro absent blank first second registry
  have same : (absent.outline ⟨1, ⟨1⟩, false, none⟩).encoding
      = (blank.outline ⟨1, ⟨1⟩, false, some ""⟩).encoding := by
    decide
  have printed {exporter : Exporter} {view : View} {host after : Host}
      (views : (Shape.buffer exporter).outline.run ⟨(), host⟩
        = (.ok (exporter.outline view), ⟨(), after⟩))
      : ((Shape.buffer exporter).fingerprint.run (⟨(), host⟩ : Hosted Unit)).1
        = .ok (exporter.outline view).encoding :=
    congrArg Prod.fst (Shape.fingerprint_of_outline views rfl)
  refine ⟨fun _ _ _ => rfl, fun _ _ _ => rfl, ⟨_, fun host => ⟨printed rfl, ?_⟩⟩, ?_, ?_, ?_, ?_⟩
  · rw [same]
    exact printed rfl
  · unfold first
    cbv
  · unfold second first
    cbv
  · unfold registry second first
    cbv
  · unfold registry second first
    cbv

end FingerprintTable

end Typecodes
