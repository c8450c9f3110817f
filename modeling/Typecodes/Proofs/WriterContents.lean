import Mathlib.Data.List.DropRight
import Typecodes.Fingerprint.WriterStep
import Typecodes.Proofs.FirstOffence

/-! Writers as byte lists with a mark for the greatest length. Whatever is done to a new writer, its
bytes are those that were appended since they were last dropped, also where a shape is written only
up to its first offence. They lie in place exactly as long as no length has been too great.
-/

namespace Typecodes

-----------------------------------------------------------------------------------------
-- Numbers by their digits
-----------------------------------------------------------------------------------------

namespace Bytes

/-- The last digits of a number in base 256, as many as wanted and the lowest one first. -/
def littleEndian : Nat → Nat → Bytes
  | 0, _ => []
  | width + 1, value => UInt8.ofNat value :: littleEndian width (value / 256)

theorem ofUInt32_eq_littleEndian (value : UInt32)
    : ofUInt32 value = littleEndian 4 value.toNat := by
  simp only [ofUInt32, littleEndian, List.cons.injEq, ← UInt8.toNat_inj, UInt32.toNat_toUInt8,
    UInt32.toNat_shiftRight, Nat.shiftRight_eq_div_pow, UInt32.reduceToNat, UInt8.toNat_ofNat',
    Nat.reducePow, Nat.reduceMod, Nat.div_div_eq_div_mul, Nat.reduceMul, and_self]

theorem ofUInt64_eq_littleEndian (value : UInt64)
    : ofUInt64 value = littleEndian 8 value.toNat := by
  simp only [ofUInt64, littleEndian, List.cons.injEq, ← UInt8.toNat_inj, UInt64.toNat_toUInt8,
    UInt64.toNat_shiftRight, Nat.shiftRight_eq_div_pow, UInt64.reduceToNat, UInt8.toNat_ofNat',
    Nat.reducePow, Nat.reduceMod, Nat.div_div_eq_div_mul, Nat.reduceMul, and_self]

theorem terminated_eq_toUTF8 (text : Option String)
    : terminated text = (Text.beforeNul (text.getD "")).toUTF8.data.toList ++ [0] := by
  rw [terminated_eq_uptoNul, uptoNul_eq]

end Bytes

namespace Writer

-----------------------------------------------------------------------------------------
-- What a step appends, and how it ends
-----------------------------------------------------------------------------------------

/-- What a run does to any writer, how it ends and which host it leaves. -/
structure Effect (δ : Type) where
  done : δ
  outcome : Except Stop Unit
  host : Host

/-- The effect of visits in a row: all bytes up to the first offence, and the header of the leaf
there.
-/
def effectOfVisits : List Visit → Host → Effect Bytes
  | [], host => ⟨[], .ok (), host⟩
  | visit :: rest, host =>
      match visit.offence? host with
      | some kind => ⟨visit.header, .error (.failure (.unrecognized kind)), visit.after host⟩
      | none =>
          let later := effectOfVisits rest (visit.after host)
          { later with done := visit.bytes host ++ later.done }

/-- One thing that happens to the bytes of a writer. -/
inductive Change where
  | appended (bytes : Bytes)
  | cleared
  /-- A copy took the writer's place. -/
  | copied
deriving DecidableEq

end Writer

/-- The effect of a step, which is the same on every writer. -/
def WriterStep.effect : WriterStep → Host → Writer.Effect Writer.Change
  | byte value, host => ⟨.appended [value], .ok (), host⟩
  | number value, host => ⟨.appended (Bytes.littleEndian 4 value.toNat), .ok (), host⟩
  | word value, host => ⟨.appended (Bytes.littleEndian 8 value.toNat), .ok (), host⟩
  | text value, host =>
      let kept := Text.beforeNul (value.getD "")
      ⟨.appended (kept.toUTF8.data.toList ++ [0]), .ok (), host⟩
  | bytes values, host => ⟨.appended values, .ok (), host⟩
  | elementType element, host =>
      if element.encodable then ⟨.appended element.bytes, .ok (), host⟩
      else ⟨.appended [], .error (.failure (.unrecognized "dtype")), host⟩
  | shape value, host =>
      let effect := Writer.effectOfVisits value.visits host
      { effect with done := .appended effect.done }
  | clear, host => ⟨.cleared, .ok (), host⟩
  | copy, host => ⟨.copied, .ok (), host⟩

namespace Writer

/-- Carries out a change. -/
def Change.apply : Change → Writer → Writer
  | appended bytes, writer => writer.append bytes
  | cleared, writer => writer.clear
  | copied, writer => writer.copy

-----------------------------------------------------------------------------------------
-- Shapes that are written in part leave the room that their bytes leave
-----------------------------------------------------------------------------------------

/-- A run that does nothing to a sound writer but append some bytes at once. -/
def Grows (work : Run Writer Unit) : Prop :=
  ∀ state : Hosted Writer,
    state.own.Sound → ∃ bytes, (work.run state).2.own = state.own.append bytes

theorem grows_composable : Composable Grows where
  pure _ sound := ⟨[], sound.append_nil.symm⟩
  appends appends := by
    intro state _
    exact ⟨_, by rw [appends state.own state.host]⟩
  fail _ _ sound := ⟨[], sound.append_nil.symm⟩
  next := by
    intro work more first second state sound
    obtain ⟨bytes, grown⟩ := first state sound
    rw [Run.run_bind]
    cases ran : work.run state with
    | mk outcome middle =>
        rw [ran] at grown
        cases outcome with
        | error ending => exact ⟨bytes, grown⟩
        | ok _ =>
            have middleSound : middle.own.Sound := by
              rw [grown]
              exact sound_append _ _
            obtain ⟨others, grown'⟩ := second middle middleSound
            exact ⟨bytes ++ others, by rw [grown', grown, append_append]⟩
  withView exporter use used := by
    intro state sound
    rw [Run.run_withView]
    cases exporter.acquire state.host with
    | mk reply asked =>
        cases reply with
        | error refusal => exact ⟨[], sound.append_nil.symm⟩
        | ok view => exact used view ⟨state.own, asked⟩ sound

/-- A run with the given effect on all sound writers. -/
def HasEffect (work : Run Writer Unit) (host : Host) (effect : Effect Bytes) : Prop :=
  ∀ writer : Writer,
    writer.Sound
    → work.run ⟨writer, host⟩ = (effect.outcome, ⟨writer.append effect.done, effect.host⟩)

/-- Appended bytes are known from the bytes after them, so a run that only appends also leaves the
room in place that they leave.
-/
theorem Writes.hasEffect {work : Run Writer Unit} {host after : Host} {bytes : Bytes}
    {outcome : Except Stop Unit} (writes : Writes work host bytes outcome after)
    (grows : Grows work)
    : HasEffect work host ⟨bytes, outcome, after⟩ := by
  intro writer sound
  obtain ⟨content, ran, written⟩ := writes writer
  obtain ⟨others, grown⟩ := grows ⟨writer, host⟩ sound
  rw [ran] at grown ⊢
  dsimp only at grown
  rw [grown, toList_append] at written
  obtain rfl := List.append_cancel_left written
  rw [grown]

/-- Visits in a row write what their effect says, by induction over them. -/
theorem putVisits_writes (visits : List Visit) (host : Host)
    : Writes (putVisits visits) host (effectOfVisits visits host).done
        (effectOfVisits visits host).outcome (effectOfVisits visits host).host := by
  induction visits generalizing host with
  | nil => exact .ofPure host
  | cons visit rest ih =>
      rw [effectOfVisits]
      cases offence : visit.offence? host with
      | some kind => exact (putVisit_offending offence).stopped
      | none => exact (putVisit_clear offence).next (ih (visit.after host))

/-- A shape has the effect of its visits, whether or not one of them offends. -/
theorem put_hasEffect (value : Shape) (host : Host)
    : HasEffect (put value) host (effectOfVisits value.visits host) := by
  have writes := putVisits_writes value.visits host
  rw [← put_eq_putVisits] at writes
  exact writes.hasEffect (grows_composable.put value)

/-- Every step has its effect, by cases on the step. -/
theorem perform_eq (step : WriterStep) {writer : Writer} (host : Host) (sound : writer.Sound)
    : step.perform.run ⟨writer, host⟩
      = ((step.effect host).outcome,
        ⟨(step.effect host).done.apply writer, (step.effect host).host⟩) := by
  cases step with
  | byte value => exact Appends.ofByte value writer host
  | number value =>
      rw [WriterStep.effect, ← Bytes.ofUInt32_eq_littleEndian]
      rfl
  | word value =>
      rw [WriterStep.effect, ← Bytes.ofUInt64_eq_littleEndian]
      rfl
  | text value =>
      rw [WriterStep.effect, ← Bytes.terminated_eq_toUTF8]
      rfl
  | bytes values => rfl
  | elementType element =>
      rw [WriterStep.perform, WriterStep.effect]
      cases encodable : element.encodable with
      | true => exact putElementType_appends encodable writer host
      | false =>
          rw [putElementType_eq_fail encodable, Run.run_fail, if_neg Bool.false_ne_true,
            Change.apply, sound.append_nil]
  | shape value => exact put_hasEffect value host writer sound
  | clear => rfl
  | copy => rfl

-----------------------------------------------------------------------------------------
-- Changes as a list
-----------------------------------------------------------------------------------------

/-- The bytes that a change adds. -/
def Change.bytes : Change → Bytes
  | appended bytes => bytes
  | cleared | copied => []

/-- All that was appended since the bytes were last dropped. -/
def contents (changes : List Change) : Bytes :=
  (changes.rtakeWhile (· != .cleared)).flatMap Change.bytes

/-- No length was ever too great for the room in place. Where copies were made, that is asked of the
bytes that the last one took over and of all lengths after it.
-/
def Fitted (changes : List Change) : Prop :=
  ∀ earlier later,
    changes = earlier ++ later
    → .copied ∉ later
    → (contents earlier).length ≤ inlineCapacity

theorem contents_cleared (changes : List Change) : contents (changes ++ [.cleared]) = [] := by
  simp [contents]

theorem contents_concat (changes : List Change) {change : Change} (keeps : change ≠ .cleared)
    : contents (changes ++ [change]) = contents changes ++ change.bytes := by
  rw [contents, List.rtakeWhile_concat_pos _ _ _ (by simpa using keeps), List.flatMap_append,
    List.flatMap_singleton, contents]

theorem Fitted.length_le {changes : List Change} (fitted : Fitted changes)
    : (contents changes).length ≤ inlineCapacity :=
  fitted changes [] (List.append_nil _).symm List.not_mem_nil

/-- A copy starts over: only the bytes that it takes over matter. -/
theorem fitted_copied {changes : List Change}
    : Fitted (changes ++ [.copied]) ↔ (contents changes).length ≤ inlineCapacity := by
  have same : contents (changes ++ [.copied]) = contents changes := by
    rw [contents_concat changes (by decide), Change.bytes, List.append_nil]
  constructor
  · intro fitted
    rw [← same]
    exact fitted.length_le
  · intro small earlier later parts uncopied
    rcases List.eq_nil_or_concat later with rfl | ⟨others, last, rfl⟩
    · rwa [← List.append_nil earlier, ← parts, same]
    · rw [List.concat_eq_append, ← List.append_assoc] at parts
      obtain ⟨-, rfl⟩ := List.append_singleton_inj.mp parts
      exact absurd (by simp) uncopied

/-- Any other change adds one length to those that matter. -/
theorem fitted_concat {changes : List Change} {change : Change} (uncopied : change ≠ .copied)
    : Fitted (changes ++ [change])
      ↔ Fitted changes ∧ (contents (changes ++ [change])).length ≤ inlineCapacity := by
  constructor
  · intro fitted
    refine ⟨?_, fitted.length_le⟩
    intro earlier later parts absent
    refine fitted earlier (later ++ [change]) (by rw [parts, List.append_assoc]) ?_
    simpa [absent] using uncopied.symm
  · rintro ⟨fitted, small⟩ earlier later parts absent
    rcases List.eq_nil_or_concat later with rfl | ⟨others, last, rfl⟩
    · rwa [← List.append_nil earlier, ← parts]
    · rw [List.concat_eq_append, ← List.append_assoc] at parts
      obtain ⟨rfl, -⟩ := List.append_singleton_inj.mp parts
      rw [List.concat_eq_append] at absent
      exact fitted earlier others rfl fun member => absent (List.mem_append_left _ member)

-----------------------------------------------------------------------------------------
-- Writers agree with their changes
-----------------------------------------------------------------------------------------

/-- A writer that the given changes account for. -/
structure Agrees (writer : Writer) (changes : List Change) : Prop where
  bytes : writer.bytes.toList = contents changes
  room : writer.isInline = true ↔ Fitted changes

theorem agrees_empty : empty.Agrees [] where
  bytes := rfl
  room := by
    refine ⟨?_, fun _ => rfl⟩
    rintro - earlier later parts -
    obtain ⟨rfl, -⟩ := List.append_eq_nil_iff.mp parts.symm
    exact Nat.zero_le _

namespace Agrees

variable {writer : Writer} {changes : List Change}

theorem size_eq (agrees : writer.Agrees changes)
    : writer.bytes.size = (contents changes).length := by
  rw [← agrees.bytes, Array.length_toList]

theorem sound (agrees : writer.Agrees changes) : writer.Sound := by
  intro large
  by_contra kept
  have fitted := agrees.room.mp (by simpa [isInline] using kept)
  exact absurd fitted.length_le (Nat.not_le.mpr (agrees.size_eq ▸ large))

/-- One more change keeps the agreement, by cases on the change: appended bytes end storage in place
if they do not fit, dropping them does not regain it, and a copy decides it anew.
-/
theorem next (agrees : writer.Agrees changes) (change : Change)
    : (change.apply writer).Agrees (changes ++ [change]) := by
  cases change with
  | appended added =>
      have grown : contents (changes ++ [.appended added]) = contents changes ++ added :=
        contents_concat changes nofun
      have uncopied : Change.appended added ≠ .copied := nofun
      refine ⟨?_, ?_⟩
      · rw [grown, Change.apply, toList_append, agrees.bytes]
      · rw [fitted_concat uncopied, ← agrees.room, grown, List.length_append, ← agrees.size_eq]
        simp [Change.apply, isInline, spilled_append]
  | cleared =>
      refine ⟨(contents_cleared changes).symm, ?_⟩
      rw [fitted_concat (by decide), contents_cleared, Change.apply, ← agrees.room]
      exact (and_iff_left (Nat.zero_le _)).symm
  | copied =>
      refine ⟨?_, ?_⟩
      · rw [contents_concat changes (by decide), Change.bytes, List.append_nil]
        exact agrees.bytes
      · rw [fitted_copied, ← agrees.size_eq]
        simp [Change.apply, isInline, copy]

end Agrees

-----------------------------------------------------------------------------------------
-- Steps in a row
-----------------------------------------------------------------------------------------

/-- Carries out steps in a row. A step that fails does not keep the later ones from being made. -/
def performAll : List WriterStep → Hosted Writer → Hosted Writer
  | [], state => state
  | step :: rest, state => performAll rest (step.perform.run state).2

/-- The changes of steps in a row, each on the host that the earlier ones left. -/
def changesOf : List WriterStep → Host → List Change
  | [], _ => []
  | step :: rest, host => (step.effect host).done :: changesOf rest (step.effect host).host

/-- Steps in a row keep the agreement, by induction over them. -/
theorem Agrees.performAll {writer : Writer} {changes : List Change}
    (agrees : writer.Agrees changes) (steps : List WriterStep) (host : Host)
    : (performAll steps ⟨writer, host⟩).own.Agrees (changes ++ changesOf steps host) := by
  induction steps generalizing writer changes host with
  | nil => simpa only [Writer.performAll, changesOf, List.append_nil] using agrees
  | cons step rest ih =>
      rw [Writer.performAll, perform_eq step host agrees.sound, changesOf,
        List.append_cons]
      exact ih (agrees.next _) _

/-- What is known of a writer that certain changes have led to. -/
structure Accounted (reached : Hosted Writer) (changes : List Change) : Prop where
  /-- Its bytes are what was appended since they were last dropped, in that order. -/
  bytes : reached.own.bytes.toList = contents changes
  /-- They lie in place exactly if no length was too great, since the writer was new or since the
  last copy.
  -/
  room : reached.own.isInline = true ↔ Fitted changes
  /-- Any step from here on ends as its effect says. -/
  ending : ∀ step : WriterStep, (step.perform.run reached).1 = (step.effect reached.host).outcome
  /-- Unless it drops all bytes, a step leaves those that are there as they are and only appends its
  own after them, also if it fails.
  -/
  growth
    : ∀ step : WriterStep,
        step ≠ .clear
        → (step.perform.run reached).2.own.bytes.toList
          = reached.own.bytes.toList ++ (step.effect reached.host).done.bytes

/-- A step other than dropping all bytes changes nothing but by appending to them. -/
theorem effect_ne_cleared {step : WriterStep} (host : Host) (keeps : step ≠ .clear)
    : (step.effect host).done ≠ .cleared := by
  cases step with
  | clear => exact absurd rfl keeps
  | elementType element =>
      rw [WriterStep.effect]
      split <;> exact nofun
  | _ => exact nofun

/-- After any steps from a new writer on, among them shapes that fail halfway, the writer is
accounted for by the changes of the steps. Each step adds one change, so this is said of every
moment between two steps.
-/
theorem accounted_by_changes (steps : List WriterStep) (host : Host)
    : Accounted (performAll steps ⟨empty, host⟩) (changesOf steps host) := by
  have agrees : (performAll steps ⟨empty, host⟩).own.Agrees (changesOf steps host) :=
    agrees_empty.performAll steps host
  generalize performAll steps ⟨empty, host⟩ = reached at agrees ⊢
  refine ⟨agrees.bytes, agrees.room, ?_, ?_⟩
  · intro step
    exact congrArg Prod.fst (perform_eq step reached.host agrees.sound)
  · intro step keeps
    have following := (agrees.next (step.effect reached.host).done).bytes
    rw [contents_concat _ (effect_ne_cleared reached.host keeps), ← agrees.bytes] at following
    rw [perform_eq step reached.host agrees.sound]
    exact following

/-- A text that is cut at its NUL fills the room in place to the last byte. One byte more ends
storage in place; dropping all bytes does not bring it back, but a copy does.
-/
example
    : let text := WriterStep.text (some "abc\x00dropped")
      let steps : List WriterStep := [.bytes (List.replicate 36 7), text, .byte 1, .clear, .copy]
      let reached (made : Nat) := (performAll (steps.take made) ⟨empty, .fresh⟩).own
      (List.range 6).map (fun made => ((reached made).bytes.size, (reached made).isInline))
        = [(0, true), (36, true), (40, true), (41, false), (0, false), (0, true)] := by
  decide

end Writer

end Typecodes
