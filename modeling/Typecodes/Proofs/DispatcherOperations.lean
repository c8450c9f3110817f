import Typecodes.Proofs.ClassificationCourse
import Typecodes.Proofs.RememberingLayers

/-! What the dispatcher does in one operation, under any logger. A code has its place in the grid or
in the table, and each place stands for one fingerprint. Looking a value up changes nothing and can
fail in no other way than by a panic; storing a code changes what is stored at its place and nowhere
else, and changes nothing at all if a panic cuts it short.
-/

namespace Typecodes

variable {logger : Logger}

/-- A position that lies somewhere in the grid is a served one. -/
theorem GridSlot.served_of_index? {slot : GridSlot} {index : Fin count}
    (found : slot.index? = some index)
    : slot.Served := by
  obtain ⟨positive, place⟩ := index?_eq_some.mp found
  have inside := index.isLt
  simp only [count, maxRank, Layout.count, ElementaryKind.count] at place inside
  refine ⟨positive, ?_⟩
  simp only [maxRank]
  omega

namespace ArrayGrid

/-- What a reading of a position answers is stored there. -/
theorem codeAt_of_get {grid : ArrayGrid} {slot : GridSlot} {content : Option Typecode}
    (read : grid.get slot = .ok content)
    : grid.codeAt slot = content := by
  rw [codeAt, read]
  rfl

/-- A position is either read or a panic. -/
theorem get_eq_error {grid : ArrayGrid} {slot : GridSlot} {ending : Stop}
    (stopped : grid.get slot = .error ending)
    : ending = .panic := by
  unfold get decode at stopped
  split at stopped
  · split at stopped
    · cases stopped
    · split at stopped <;> cases stopped
      rfl
  · cases stopped
    rfl

/-- Looking a value up in the grid changes nothing and can fail in no other way than by a panic.
What it says about an array with a position is what is stored there.
-/
theorem probe_cases (value : Shape) (state : Hosted ArrayGrid)
    : (value.slot? = none ∧ (probe value).run state = (.ok .unserved, state))
      ∨ ∃ slot,
          value.slot? = some slot
          ∧ ((probe value).run state = (.error .panic, state)
            ∨ (∃ code,
                state.own.codeAt slot = some code
                ∧ (probe value).run state = (.ok (.known code), state))
            ∨ (state.own.codeAt slot = none
              ∧ (probe value).run state = (.ok (.missing slot), state))) := by
  cases position : value.slot? with
  | none => exact .inl ⟨rfl, probe_elsewhere position state⟩
  | some slot =>
      right
      refine ⟨slot, rfl, ?_⟩
      cases value with
      | array shape =>
          have found : GridSlot.ofArray? shape = some slot := position
          have looked : (probe (.array shape)).run state
              = match state.own.get slot with
                | .ok (some code) => (.ok (.known code), state)
                | .ok none => (.ok (.missing slot), state)
                | .error ending => (.error ending, state) := by
            simp only [probe, found, lookup, bind_assoc, Run.run_bind, Run.run_own]
            cases state.own.get slot with
            | error ending => rfl
            | ok content => cases content <;> rfl
          cases read : state.own.get slot with
          | ok content =>
              have stored := codeAt_of_get read
              rw [read] at looked
              cases content with
              | some code => exact .inr (.inl ⟨code, stored, looked⟩)
              | none => exact .inr (.inr ⟨stored, looked⟩)
          | error ending =>
              rw [read] at looked
              obtain rfl := get_eq_error read
              exact .inl looked
      | _ => cases position

/-- A position is written under any logger or, if the logger panics, left as it was. -/
theorem fill_cases (logger : Logger) (slot : GridSlot) (code : Typecode)
    (state : Hosted ArrayGrid)
    : (∃ after,
          (fill logger slot code).run state = (.ok code, after)
          ∧ state.own.Written slot code after.own)
      ∨ ∃ after,
          (fill logger slot code).run state = (.error .panic, after) ∧ after.own = state.own := by
  cases panics : logger.panicsAfter (.slotFilled slot code) with
  | true =>
      right
      refine ⟨⟨state.own, state.host.note (.line (.slotFilled slot code))⟩, ?_, rfl⟩
      rw [fill, Run.run_bind, Run.run_log, if_pos panics]
  | false =>
      have told : (Run.log logger (.slotFilled slot code)).run state
          = (.ok (), ⟨state.own, state.host.note (.line (.slotFilled slot code))⟩) := by
        rw [Run.run_log, panics]
        rfl
      rw [fill, Run.run_bind_ok _ told, Run.run_bind_ok _ (Run.run_own _)]
      cases located : slot.index? with
      | none =>
          right
          refine ⟨⟨state.own, state.host.note (.line (.slotFilled slot code))⟩, ?_, rfl⟩
          simp only [set?, located, Option.map_none]
          exact Run.run_unwind _
      | some index =>
          left
          obtain ⟨next, set, written⟩ :=
            set?_eq_some state.own (GridSlot.served_of_index? located) code
          refine ⟨⟨next, state.host.note (.line (.slotFilled slot code))⟩, ?_, written⟩
          simp only [set]
          rfl

end ArrayGrid

namespace FingerprintTable

/-- Only a panic of the logger keeps the table from being taken in use. -/
theorem lock_eq_error {state after : Hosted FingerprintTable} {ending : Stop}
    (stopped : (lock logger).run state = (.error ending, after))
    : ending = .panic := by
  rw [lock, Run.run_bind_ok _ (Run.run_own state)] at stopped
  split at stopped
  · rw [Run.run_log] at stopped
    split at stopped <;> cases stopped
    rfl
  · cases stopped

/-- Only a panic of the logger interrupts a change. -/
theorem logInside_eq_error {line : LogLine} {state after : Hosted FingerprintTable} {ending : Stop}
    (stopped : (logInside logger line).run state = (.error ending, after))
    : ending = .panic := by
  simp only [logInside, Run.onStop, Run.run_log] at stopped
  cases panics : logger.panicsAfter line <;> simp [panics] at stopped
  exact stopped.1.symm

/-- Only a panic of the logger keeps a code from being stored. -/
theorem insert_panics {bytes : Bytes} {code : Typecode} {state after : Hosted FingerprintTable}
    {ending : Stop} (stopped : (insert logger bytes code).run state = (.error ending, after))
    : ending = .panic := by
  rcases Run.run_bind_eq_error.mp stopped with early | ⟨_, locked, -, late⟩
  · exact lock_eq_error early
  · rw [Run.run_bind_ok _ (Run.run_own locked)] at late
    split at late
    · split at late
      · rcases Run.run_bind_eq_error.mp late with line | ⟨_, told, -, done⟩
        · exact logInside_eq_error line
        · cases done
      · cases late
    · rcases Run.run_bind_eq_error.mp late with line | ⟨_, told, -, done⟩
      · exact logInside_eq_error line
      · cases done

/-- Looking a value up in the table changes nothing and can fail in no other way than by a panic.
What it says about a value with a fingerprint is the table's verdict.
-/
theorem probe_cases (logger : Logger) (value : Shape) (state : Hosted FingerprintTable)
    : (∃ after,
          (probe logger value).run state = (.error .panic, after) ∧ after.own = state.own)
      ∨ ∃ said after,
          (probe logger value).run state = (.ok said, after)
          ∧ after.own = state.own
          ∧ ((∃ bytes, (value.fingerprint.run state).1 = .ok bytes ∧ said = state.own.verdict bytes)
            ∨ ((∀ bytes, (value.fingerprint.run state).1 ≠ .ok bytes) ∧ said = .uncached)) := by
  have own := probe_own logger value state
  cases looked : (probe logger value).run state with
  | mk outcome after =>
      rw [looked] at own
      cases outcome with
      | ok said => exact .inr ⟨said, after, rfl, own, probe_eq_ok looked⟩
      | error ending =>
          left
          refine ⟨after, ?_, own⟩
          suffices panics : ending = .panic by rw [panics]
          rw [run_probe] at looked
          cases printed : value.fingerprint.run state with
          | mk outcome middle =>
              rw [printed] at looked
              cases outcome with
              | ok bytes =>
                  cases locked : (lock logger).run middle with
                  | mk outcome finish =>
                      dsimp only at looked
                      rw [locked] at looked
                      cases outcome with
                      | ok _ => cases looked
                      | error early =>
                          cases looked
                          exact lock_eq_error locked
              | error early =>
                  obtain ⟨⟨kind, rfl⟩, -⟩ := Shape.fingerprint_eq_error printed
                  dsimp only at looked
                  split at looked <;> cases looked
                  rfl

end FingerprintTable

namespace Dispatcher

/-- The fingerprint that a place stands for. -/
def printAt : Place → Bytes
  | .inl bytes => bytes
  | .inr slot => slot.fingerprint

/-- What is stored at a place. -/
def codeAt (dispatcher : Dispatcher) : Place → Option Typecode
  | .inl bytes => dispatcher.table.get? bytes
  | .inr slot => dispatcher.grid.codeAt slot

/-- Both layers have the same contents. -/
structure SameContents (first second : Dispatcher) : Prop where
  elementary : first.elementary = second.elementary
  entries : first.table.entries = second.table.entries
  grid : first.grid = second.grid

theorem SameContents.codeAt {first second : Dispatcher} (same : first.SameContents second)
    (place : Place)
    : first.codeAt place = second.codeAt place := by
  cases place with
  | inl bytes => exact congrArg (·[bytes]?) same.entries
  | inr slot => exact congrArg (ArrayGrid.codeAt · slot) same.grid

/-- What a dispatcher may say about a value, given the value's fingerprint. -/
inductive Tells (dispatcher : Dispatcher) : Except Stop Bytes → Verdict Place → Prop
  | known (place : Place) {code} (stored : dispatcher.codeAt place = some code)
    : Tells dispatcher (.ok (printAt place)) (.known code)
  | missing (place : Place) (vacant : dispatcher.codeAt place = none)
    : Tells dispatcher (.ok (printAt place)) (.missing place)
  | uncached {ending} : Tells dispatcher (.error ending) .uncached

/-- Looking a value up changes nothing and can fail in no other way than by a panic. What it says
about a value with a fingerprint is what is stored at a place of that fingerprint.
-/
theorem probe_cases (logger : Logger) (value : Shape) (state : Hosted Dispatcher)
    : (∃ after, (probe logger value).run state = (.error .panic, after) ∧ after.own = state.own)
      ∨ ∃ said after,
          (probe logger value).run state = (.ok said, after)
          ∧ after.own = state.own
          ∧ state.own.Tells (value.fingerprint.run state).1 said := by
  obtain ⟨dispatcher, host⟩ := state
  rcases ArrayGrid.probe_cases value ⟨dispatcher.grid, host⟩ with
    ⟨elsewhere, -⟩ | ⟨slot, position, looked⟩
  · rw [Shape.fingerprint_outcome value dispatcher.table]
    have passed := ArrayGrid.probe_elsewhere elsewhere ⟨dispatcher.grid, host⟩
    rcases FingerprintTable.probe_cases logger value ⟨dispatcher.table, host⟩ with
      ⟨⟨table, after⟩, looked, own⟩ | ⟨said, ⟨table, after⟩, looked, own, told⟩
    · left
      cases (show table = dispatcher.table from own)
      refine ⟨⟨dispatcher, after⟩, ?_, rfl⟩
      rw [probe, Run.run_bind, onGrid, Run.run_within, passed]
      dsimp only
      rw [Run.run_bind, onTable, Run.run_within, looked]
    · right
      cases (show table = dispatcher.table from own)
      refine ⟨fromTable said, ⟨dispatcher, after⟩, probe_elsewhere elsewhere looked, rfl, ?_⟩
      rcases told with ⟨bytes, printed, rfl⟩ | ⟨unprinted, rfl⟩
      · rw [printed, FingerprintTable.verdict]
        cases found : dispatcher.table.get? bytes with
        | some code => exact .known (.inl bytes) found
        | none => exact .missing (.inl bytes) found
      · cases printed : (value.fingerprint.run ⟨dispatcher.table, host⟩).1 with
        | ok bytes => exact absurd printed (unprinted bytes)
        | error ending => exact .uncached
  · rw [Shape.fingerprint_of_slot position, probe, Run.run_bind, onGrid, Run.run_within]
    rcases looked with looked | ⟨code, stored, looked⟩ | ⟨vacant, looked⟩
    · rw [looked]
      exact .inl ⟨_, rfl, rfl⟩
    · rw [looked]
      exact .inr ⟨_, _, rfl, rfl, .known (.inr slot) stored⟩
    · rw [looked]
      exact .inr ⟨_, _, rfl, rfl, .missing (.inr slot) vacant⟩

/-- What storing a code at a place does to the contents. The stored code is the new one or the one
that was there.
-/
structure Stored (before : Dispatcher) (place : Place) (code stored : Typecode) (after : Dispatcher)
    : Prop where
  here : after.codeAt place = some stored
  either : stored = code ∨ before.codeAt place = some stored
  elsewhere : ∀ other, other ≠ place → after.codeAt other = before.codeAt other

/-- Storing a code ends with the code that is stored then, or with a panic that leaves the contents
as they were.
-/
theorem store_cases (logger : Logger) (place : Place) (code : Typecode)
    (state : Hosted Dispatcher)
    : (∃ stored after,
          (store logger place code).run state = (.ok stored, after)
          ∧ state.own.Stored place code stored after.own)
      ∨ ∃ after,
          (store logger place code).run state = (.error .panic, after)
          ∧ after.own.SameContents state.own := by
  obtain ⟨dispatcher, host⟩ := state
  cases place with
  | inl bytes =>
      rw [store, onTable, Run.run_within]
      cases ran : (FingerprintTable.insert logger bytes code).run ⟨dispatcher.table, host⟩ with
      | mk outcome after =>
          cases outcome with
          | error ending =>
              right
              obtain rfl := FingerprintTable.insert_panics ran
              exact ⟨_, rfl, rfl, FingerprintTable.insert_eq_error ran, rfl⟩
          | ok stored =>
              left
              refine ⟨stored, _, rfl, ?_, ?_, ?_⟩
              · rcases FingerprintTable.insert_eq_ok ran with ⟨found, kept⟩ | ⟨-, rfl, grown⟩
                · show after.own.entries[bytes]? = some stored
                  rw [kept]
                  exact found
                · show after.own.entries[bytes]? = some stored
                  rw [grown, Std.HashMap.getElem?_insert_self]
              · rcases FingerprintTable.insert_eq_ok ran with ⟨found, -⟩ | ⟨-, same, -⟩
                · exact .inr found
                · exact .inl same
              · rintro (other | slot) different
                · show after.own.entries[other]? = dispatcher.table.entries[other]?
                  rcases FingerprintTable.insert_eq_ok ran with ⟨-, kept⟩ | ⟨-, -, grown⟩
                  · rw [kept]
                  · have apart : bytes ≠ other :=
                      fun same => different (congrArg Sum.inl same.symm)
                    rw [grown, Std.HashMap.getElem?_insert]
                    simp [apart]
                · rfl
  | inr slot =>
      rw [store, onGrid, Run.run_within]
      rcases ArrayGrid.fill_cases logger slot code ⟨dispatcher.grid, host⟩ with
        ⟨after, ran, written⟩ | ⟨after, ran, kept⟩
      · left
        rw [ran]
        refine ⟨code, _, rfl, written.here, .inl rfl, ?_⟩
        rintro (bytes | other) different
        · rfl
        · exact written.elsewhere other fun same => different (congrArg Sum.inr same)
      · right
        rw [ran]
        exact ⟨_, rfl, rfl, rfl, kept⟩

-----------------------------------------------------------------------------------------
-- Beside a resolver's state
-----------------------------------------------------------------------------------------

variable {ω : Type}

/-- A look-up leaves the resolver's state alone as well. -/
theorem looked_cases {value : Shape} {state probed : Hosted (Dispatcher × ω)}
    {outcome : Except Stop (Verdict Place)}
    (looked : (Run.onFirst (Layer.probe logger value)).run state = (outcome, probed))
    : probed.own = state.own
      ∧ (outcome = .error .panic
        ∨ ∃ said, outcome = .ok said ∧ state.own.1.Tells (value.fingerprint.run state).1 said) := by
  obtain ⟨⟨dispatcher, resolver⟩, host⟩ := state
  rw [Run.run_onFirst] at looked
  rw [Shape.fingerprint_outcome value dispatcher]
  rcases probe_cases logger value ⟨dispatcher, host⟩ with
    ⟨after, ran, kept⟩ | ⟨said, after, ran, kept, told⟩
  · rw [show Layer.probe logger value = probe logger value from rfl, ran] at looked
    cases looked
    exact ⟨congrArg (·, resolver) kept, .inl rfl⟩
  · rw [show Layer.probe logger value = probe logger value from rfl, ran] at looked
    cases looked
    exact ⟨congrArg (·, resolver) kept, .inr ⟨said, rfl, told⟩⟩

/-- What is done with an answer never fails. It ends with the answer where that is not to be stored,
and otherwise with what is stored, or with a panic that leaves the contents as they were.
-/
theorem keep_cases (logger : Logger) (key : Option Place) (code : Typecode)
    (state : Hosted (Dispatcher × ω))
    : (key = none ∧ (Layer.keep logger key code).run state = (.ok (some code), state))
      ∨ (∃ place stored after,
          key = some place
          ∧ (Layer.keep logger key code).run state = (.ok (some stored), after)
          ∧ state.own.1.Stored place code stored after.own.1)
      ∨ ∃ after,
          (Layer.keep logger key code).run state = (.error .panic, after)
          ∧ after.own.1.SameContents state.own.1 := by
  cases key with
  | none => exact .inl ⟨rfl, rfl⟩
  | some place =>
      right
      rw [Layer.run_keep, show Layer.store logger place code = store logger place code from rfl]
      rcases store_cases logger place code ⟨state.own.1, state.host⟩ with
        ⟨stored, after, ran, written⟩ | ⟨after, ran, same⟩
      · rw [ran]
        exact .inl ⟨place, stored, _, rfl, rfl, written⟩
      · rw [ran]
        exact .inr ⟨_, rfl, same⟩

end Dispatcher

end Typecodes
