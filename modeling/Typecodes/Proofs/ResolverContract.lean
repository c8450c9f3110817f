import Mathlib
import Typecodes.Proofs.DispatcherOperations
import Typecodes.Proofs.LayerUnion

/-! Resolvers under a contract: whatever they answer for a value with a fingerprint is determined by
the fingerprint. They may fail, panic, and have the same dispatcher classify further values to any
depth. The grid then keeps the last of several nested answers and the table the first, but all of
them are the same, and so every code that is stored or returned is the one of its fingerprint.
-/

namespace Typecodes

namespace Dispatcher

variable {ω : Type} {logger : Logger} {codeOf : Bytes → Typecode}

/-- The code with which a call ends at a moment, if one does. -/
def answer? (moment : Moment Dispatcher Place ω) : Option Typecode :=
  match moment.stage with
  | .answered _ (.ok code) => some code
  | _ => none

/-- The fingerprint that a value had at its entry, if the value returns at a moment and had one. -/
def printed? (moment : Moment Dispatcher Place ω) : Option Bytes :=
  match moment.stage with
  | .returned value entry _ => (value.fingerprint.run entry).1.toOption
  | _ => none

theorem mem_printed? {value : Shape} {entry after : Hosted (Dispatcher × ω)}
    {outcome : Except Stop (Option Typecode)} {bytes : Bytes}
    : bytes ∈ printed? ⟨.returned value entry outcome, after⟩
      ↔ (value.fingerprint.run entry).1 = .ok bytes := by
  show bytes ∈ (value.fingerprint.run entry).1.toOption ↔ _
  cases (value.fingerprint.run entry).1 <;> simp [Except.toOption]

/-- The contract of resolvers: the answer of every call on a value with a fingerprint is the code of
that fingerprint. The end of a call directly precedes the return of its value.
-/
def Honours (codeOf : Bytes → Typecode) (moments : List (Moment Dispatcher Place ω)) : Prop :=
  moments.IsChain fun ending returning =>
    ∀ code ∈ answer? ending, ∀ bytes ∈ printed? returning, code = codeOf bytes

instance (moments : List (Moment Dispatcher Place ω)) : Decidable (Honours codeOf moments) :=
  inferInstanceAs (Decidable (List.IsChain _ moments))

theorem Honours.parts {first second : List (Moment Dispatcher Place ω)}
    (contract : Honours codeOf (first ++ second))
    : Honours codeOf first ∧ Honours codeOf second :=
  ⟨List.IsChain.left_of_append contract, List.IsChain.right_of_append contract⟩

/-- Every stored code is the one of the fingerprint that its place stands for, and the fingerprint
is one of a value.
-/
def Loyal (codeOf : Bytes → Typecode) (dispatcher : Dispatcher) : Prop :=
  ∀ place code,
    dispatcher.codeAt place = some code
    → code = codeOf (printAt place)
      ∧ ∃ (value : Shape) (state : Hosted Unit),
          (value.fingerprint.run state).1 = .ok (printAt place)

theorem loyal_ofCodes (elementary : ElementaryCodes) : (ofCodes elementary).Loyal codeOf := by
  intro place code stored
  cases place with
  | inl bytes =>
      have vacant : (ofCodes elementary).codeAt (.inl bytes) = none :=
        Std.HashMap.getElem?_empty
      rw [vacant] at stored
      cases stored
  | inr slot =>
      have vacant : (ofCodes elementary).codeAt (.inr slot) = none := ArrayGrid.codeAt_empty slot
      rw [vacant] at stored
      cases stored

theorem Loyal.same {first second : Dispatcher} (loyal : first.Loyal codeOf)
    (same : second.SameContents first)
    : second.Loyal codeOf :=
  fun place code stored => loyal place code ((same.codeAt place).symm.trans stored)

/-- A dispatcher stays loyal if the code of the fingerprint is stored, and the stored code is that
code even if another one was offered first.
-/
theorem Loyal.stored {before after : Dispatcher} {place : Place} {code stored : Typecode}
    (loyal : before.Loyal codeOf) (right : code = codeOf (printAt place))
    (printed : ∃ (value : Shape) (state : Hosted Unit),
      (value.fingerprint.run state).1 = .ok (printAt place))
    (written : before.Stored place code stored after)
    : stored = codeOf (printAt place) ∧ after.Loyal codeOf := by
  have kept : stored = codeOf (printAt place) := by
    rcases written.either with rfl | earlier
    · exact right
    · exact (loyal place stored earlier).1
  refine ⟨kept, ?_⟩
  intro other found content
  by_cases same : other = place
  · subst same
    rw [written.here] at content
    cases content
    exact ⟨kept, printed⟩
  · rw [written.elsewhere other same] at content
    exact loyal other found content

/-- What is right throughout a stretch of a run, and after it. -/
structure Kept (codeOf : Bytes → Typecode) (moments : List (Moment Dispatcher Place ω))
    (after : Dispatcher) : Prop where
  layers : ∀ moment ∈ moments, moment.layer.Loyal codeOf
  returned
    : ∀ moment ∈ moments, ∀ value entry answer bytes,
        moment.stage = .returned value entry (.ok answer)
        → (value.fingerprint.run entry).1 = .ok bytes
        → answer = some (codeOf bytes)
  final : after.Loyal codeOf

theorem Kept.append {first second : List (Moment Dispatcher Place ω)} {middle after : Dispatcher}
    (left : Kept codeOf first middle) (right : Kept codeOf second after)
    : Kept codeOf (first ++ second) after where
  layers := List.forall_mem_append.mpr ⟨left.layers, right.layers⟩
  returned := List.forall_mem_append.mpr ⟨left.returned, right.returned⟩
  final := right.final

/-- A moment at which nothing returns. -/
theorem Kept.point {stage : Stage Dispatcher Place ω} {state : Hosted (Dispatcher × ω)}
    (loyal : state.own.1.Loyal codeOf)
    (nothing : ∀ value entry outcome, stage ≠ .returned value entry outcome)
    : Kept codeOf [⟨stage, state⟩] state.own.1 where
  layers := List.forall_mem_singleton.mpr loyal
  returned := List.forall_mem_singleton.mpr fun _ _ _ _ same => absurd same (nothing _ _ _)
  final := loyal

/-- A moment at which a value returns with the code of its fingerprint, or without an answer. -/
theorem Kept.return {value : Shape} {entry : Hosted (Dispatcher × ω)}
    {finish : Except Stop (Option Typecode) × Hosted (Dispatcher × ω)}
    (loyal : finish.2.own.1.Loyal codeOf)
    (right
      : ∀ answer bytes,
          finish.1 = .ok answer
          → (value.fingerprint.run entry).1 = .ok bytes
          → answer = some (codeOf bytes))
    : Kept codeOf [⟨.returned value entry finish.1, finish.2⟩] finish.2.own.1 where
  layers := List.forall_mem_singleton.mpr loyal
  returned := by
    refine List.forall_mem_singleton.mpr ?_
    intro value' entry' answer bytes same printed
    obtain ⟨rfl, rfl, ends⟩ := Stage.returned.inj same
    exact right answer bytes ends printed
  final := loyal

-----------------------------------------------------------------------------------------
-- One classification
-----------------------------------------------------------------------------------------

/-- What follows a call that honoured the contract returns the code of the fingerprint, and leaves
the dispatcher loyal. The stored code may be an earlier one, which is then the same.
-/
theorem kept_conclusion {value : Shape} {entry answered : Hosted (Dispatcher × ω)}
    {key : Option Place} {answer : Except Stop Typecode} (loyal : answered.own.1.Loyal codeOf)
    (told : entry.own.1.Tells (value.fingerprint.run entry).1 (.awaiting key))
    (honoured
      : ∀ code bytes,
          answer = .ok code → (value.fingerprint.run entry).1 = .ok bytes → code = codeOf bytes)
    : let finish := (Run.ofExcept answer >>= Layer.keep logger key).run answered
      Kept codeOf [⟨.returned value entry finish.1, finish.2⟩] finish.2.own.1 := by
  intro finish
  cases answer with
  | error ending =>
      have ends : finish = (.error ending, answered) := rfl
      rw [ends]
      exact .return loyal nofun
  | ok code =>
      have ends : finish = (Layer.keep logger key code).run answered := rfl
      rcases keep_cases logger key code answered with
        ⟨rfl, ran⟩ | ⟨place, stored, after, rfl, ran, written⟩ | ⟨after, ran, same⟩
      · rw [ends, ran]
        refine .return loyal ?_
        intro answer bytes same printed
        cases same
        rw [honoured code bytes rfl printed]
      · generalize printed : (value.fingerprint.run entry).1 = outcome at told honoured
        cases told with
        | missing place vacant =>
            rw [ends, ran]
            have right := honoured code (printAt place) rfl rfl
            have shown := (Shape.fingerprint_outcome value () entry).symm.trans printed
            obtain ⟨stored, final⟩ := loyal.stored right ⟨value, _, shown⟩ written
            refine .return final ?_
            intro answer bytes same printed'
            cases same
            cases printed.symm.trans printed'
            rw [stored]
      · rw [ends, ran]
        exact .return (loyal.same same) nofun

/-- A classification whose resolver's work keeps a dispatcher loyal keeps it loyal, by cases on the
course that it takes.
-/
theorem kept_classify {value : Shape} {resolve : Run (Dispatcher × ω) Typecode}
    {inside : Hosted (Dispatcher × ω) → List (Moment Dispatcher Place ω)}
    (work
      : ∀ state : Hosted (Dispatcher × ω),
          Honours codeOf (inside state)
          → state.own.1.Loyal codeOf
          → Kept codeOf (inside state) (resolve.run state).2.own.1)
    {state : Hosted (Dispatcher × ω)}
    (contract : Honours codeOf (Layer.moments logger value resolve inside state))
    (loyal : state.own.1.Loyal codeOf)
    : Kept codeOf (Layer.moments logger value resolve inside state)
        ((Layer.classify logger value resolve).run state).2.own.1 := by
  have entered : Kept codeOf [⟨.entered value, state⟩] state.own.1 := .point loyal nofun
  have course := Layer.classify_course logger value resolve state
  unfold Layer.moments at contract ⊢
  generalize (Layer.classify logger value resolve).run state = finish at course contract ⊢
  dsimp only at contract ⊢
  cases course with
  | stopped ending probed looked silent ends =>
      rw [silent, ends]
      have kept : probed.own = state.own := (looked_cases looked).1
      exact entered.append (.return (kept ▸ loyal) nofun)
  | told answer probed looked silent ends =>
      rw [silent, ends]
      obtain ⟨kept, stops | ⟨said, answers, told⟩⟩ := looked_cases looked
      · cases stops
      · cases answers
        refine entered.append (.return (kept ▸ loyal) ?_)
        intro answer bytes same printed
        cases same
        rw [printed] at told
        cases answer with
        | none => nomatch told
        | some code =>
            cases told with
            | known place stored => rw [(loyal place code stored).1]
  | called key probed answer worked looked works calls ends =>
      have stretches : (⟨.entered value, state⟩ : Moment Dispatcher Place ω)
          :: (Layer.momentsWithin logger value resolve inside state
            ++ [⟨.returned value state finish.1, finish.2⟩])
          = [⟨.entered value, state⟩]
            ++ ([⟨.called key value, Layer.calling key value probed⟩]
              ++ (inside (Layer.calling key value probed)
                ++ ([⟨.answered key answer, Layer.answering key answer worked⟩]
                  ++ [⟨.returned value state finish.1, finish.2⟩]))) := by
        simp [calls]
      rw [stretches] at contract ⊢
      obtain ⟨kept, stops | ⟨said, answers, told⟩⟩ := looked_cases looked
      · cases stops
      · cases answers
        have following := contract.parts.2.parts.2
        have inner := work (Layer.calling key value probed) following.parts.1 (kept ▸ loyal)
        rw [works] at inner
        have honoured code bytes (same : answer = .ok code)
            (printed : (value.fingerprint.run state).1 = .ok bytes)
            : code = codeOf bytes :=
          (List.isChain_cons_cons.mp following.parts.2).1
            code (by rw [same]; rfl) bytes (mem_printed?.mpr printed)
        have final : (Layer.answering key answer worked).own.1.Loyal codeOf := inner.final
        have answered : Kept codeOf [⟨.answered key answer, Layer.answering key answer worked⟩]
            (Layer.answering key answer worked).own.1 :=
          .point final nofun
        have called : Kept codeOf [⟨.called key value, Layer.calling key value probed⟩]
            (Layer.calling key value probed).own.1 :=
          .point (kept ▸ loyal) nofun
        rw [ends]
        exact entered.append
          (called.append
            (inner.append (answered.append (kept_conclusion final told honoured))))

/-- Under the contract, every stretch of a run that begins loyal is right throughout. -/
theorem kept_account (logger : Logger) (codeOf : Bytes → Typecode)
    : Procedure.Account logger fun before (moments : List (Moment Dispatcher Place ω)) after =>
        Honours codeOf moments → before.Loyal codeOf → Kept codeOf moments after where
  idle _ _ loyal := { layers := by simp, returned := by simp, final := loyal }
  append _ _ _ _ _ left right contract loyal :=
    have first := left contract.parts.1 loyal
    first.append (right contract.parts.2 first.final)
  classify _ _ _ work _ contract loyal := kept_classify work contract loyal

-----------------------------------------------------------------------------------------
-- Whole runs
-----------------------------------------------------------------------------------------

/-- What holds of the moments of a run under the contract, and of the dispatcher after it. -/
structure Stable (codeOf : Bytes → Typecode) (moments : List (Moment Dispatcher Place ω))
    (final : Dispatcher)
    : Prop where
  /-- A value with a fingerprint that returns at all, at whatever depth and not by a stop, returns
  with the code of its fingerprint.
  -/
  returned
    : ∀ moment ∈ moments, ∀ value entry answer bytes,
        moment.stage = .returned value entry (.ok answer)
        → (value.fingerprint.run entry).1 = .ok bytes
        → answer = some (codeOf bytes)
  /-- The table only ever has fingerprints of values, each with its own code. -/
  table
    : ∀ dispatcher ∈ moments.map Moment.layer ++ [final], ∀ bytes code,
        dispatcher.table.get? bytes = some code
        → code = codeOf bytes
          ∧ ∃ (value : Shape) (state : Hosted Unit), (value.fingerprint.run state).1 = .ok bytes
  /-- A code in the grid is the one of the fingerprint that all arrays of its position share. -/
  grid
    : ∀ dispatcher ∈ moments.map Moment.layer ++ [final], ∀ slot code,
        dispatcher.grid.get slot = .ok (some code)
        → ∃ bytes,
            code = codeOf bytes
            ∧ Represents slot bytes
            ∧ ∀ array,
                GridSlot.ofArray? array = some slot
                → ∀ state : Hosted Unit, ((Shape.array array).fingerprint.run state).1 = .ok bytes
  /-- The grid and the table never have different codes for one fingerprint. -/
  agree
    : ∀ first ∈ moments.map Moment.layer ++ [final],
        ∀ second ∈ moments.map Moment.layer ++ [final], ∀ slot bytes code code',
          Represents slot bytes
          → first.grid.get slot = .ok (some code)
          → second.table.get? bytes = some code'
          → code = code'

/-- What the grid reads at a position is stored there, and the position is a served one. -/
theorem Loyal.grid {dispatcher : Dispatcher} (loyal : dispatcher.Loyal codeOf) {slot : GridSlot}
    {code : Typecode} (read : dispatcher.grid.get slot = .ok (some code))
    : slot.Served ∧ code = codeOf slot.fingerprint := by
  refine ⟨?_, (loyal (.inr slot) code (ArrayGrid.codeAt_of_get read)).1⟩
  unfold ArrayGrid.get at read
  split at read
  · exact GridSlot.served_of_index? ‹_›
  · cases read

/-- A stretch that is right throughout has all these properties. -/
theorem Kept.stable {moments : List (Moment Dispatcher Place ω)} {final : Dispatcher}
    (kept : Kept codeOf moments final)
    : Stable codeOf moments final := by
  have loyal : ∀ dispatcher ∈ moments.map Moment.layer ++ [final], dispatcher.Loyal codeOf := by
    simp only [List.forall_mem_append, List.forall_mem_map, List.forall_mem_singleton]
    exact ⟨kept.layers, kept.final⟩
  refine ⟨kept.returned, ?_, ?_, ?_⟩
  · intro dispatcher member bytes code stored
    exact loyal dispatcher member (.inl bytes) code stored
  · intro dispatcher member slot code read
    obtain ⟨served, right⟩ := (loyal dispatcher member).grid read
    refine ⟨slot.fingerprint, right, represents_iff.mpr ⟨served, rfl⟩, ?_⟩
    intro array belongs state
    have position : (Shape.array array).slot? = some slot := belongs
    exact congrArg Prod.fst (Shape.fingerprint_of_slot position state)
  · intro first member second member' slot bytes code code' represents read stored
    obtain ⟨-, rfl⟩ := represents_iff.mp represents
    rw [((loyal first member).grid read).2]
    exact (loyal second member' (.inl slot.fingerprint) code' stored).1.symm

/-- Under the contract a dispatcher is stable even if it is entered again from inside a call. On a
new dispatcher any number of programs may be carried out, whose resolvers answer by fingerprints or
fail as they like, may panic, and may have the same dispatcher classify further values. A
fingerprint is taken where its value enters, so that buffers need not be steady.
-/
theorem stable_of_contract (logger : Logger) (codeOf : Bytes → Typecode)
    (elementary : ElementaryCodes) (programs : List (Procedure ω)) (resolver : ω) (host : Host)
    (contract
      : Honours codeOf
          (Procedure.momentsAll logger programs ⟨(ofCodes elementary, resolver), host⟩))
    : Stable codeOf (Procedure.momentsAll logger programs ⟨(ofCodes elementary, resolver), host⟩)
        (Procedure.runAll logger programs ⟨(ofCodes elementary, resolver), host⟩).own.1 :=
  ((kept_account logger codeOf).procedures programs ⟨(ofCodes elementary, resolver), host⟩ contract
    (loyal_ofCodes elementary)).stable

/-- An array met again inside its own call, a call that fails, one for an object without a
fingerprint, and a panic. Codes are lengths of fingerprints.
-/
theorem stable_of_contract_nested
    : let codeOf (bytes : Bytes) : Typecode := ⟨Fin.ofNat _ bytes.length⟩
      let array : Shape := .array ⟨1, ⟨1⟩, true, .scalar .float64⟩
      let twice (answer : Typecode) (value : Shape) : Procedure Unit :=
        .classify value (fun _ => .done (.ok answer)) fun _ => .done (.ok answer)
      let onPair : Procedure Unit :=
        .classify array (fun _ => twice ⟨8⟩ array) fun _ =>
          .classify (.foreign ⟨7⟩) (fun _ => .done (.ok ⟨99⟩)) fun _ =>
            .classify .int (fun _ => .done (.error (.failure (.resolution "refused")))) fun _ =>
              .classify .int (fun _ => twice ⟨1⟩ .int) fun _ => .done (.ok ⟨11⟩)
      let programs : List (Procedure Unit) :=
        [.classify (.tuple [.int, array]) (fun _ => onPair) fun _ => .done (.ok ⟨0⟩),
          .classify .none (fun _ => .done (.error .panic)) fun _ => .done (.ok ⟨0⟩)]
      let elementary : ElementaryCodes := ⟨Vector.replicate _ .zero, .zero⟩
      Honours codeOf (Procedure.momentsAll .steady programs ⟨(ofCodes elementary, ()), .fresh⟩)
        ∧ Stable codeOf
            (Procedure.momentsAll .steady programs ⟨(ofCodes elementary, ()), .fresh⟩)
            (Procedure.runAll .steady programs ⟨(ofCodes elementary, ()), .fresh⟩).own.1 := by
  intro codeOf array twice onPair programs elementary
  have computed : decide (Honours codeOf
      (Procedure.momentsAll .steady programs ⟨(ofCodes elementary, ()), .fresh⟩)) = true := by
    revert codeOf array twice elementary
    cbv
  have contract := of_decide_eq_true computed
  exact ⟨contract, stable_of_contract .steady codeOf elementary programs () .fresh contract⟩

end Dispatcher

end Typecodes
