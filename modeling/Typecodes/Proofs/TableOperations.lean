import Typecodes.FingerprintTable
import Typecodes.Proofs.HostLikeness

/-! What the fingerprint table does in one operation. Looking a value up never changes the table;
storing a code changes it only where nothing is stored under the key, and a panic on the way leaves
every entry as it was.
-/

namespace Typecodes

/-- A logger spares the layers if it panics at no line of theirs. At lines about new types, which
resolvers write, it may panic.
-/
def Logger.SparesLayers (logger : Logger) : Prop :=
  ∀ line, (∀ code node, line ≠ .registered code node) → logger.panicsAfter line = false

theorem Logger.steady_sparesLayers : Logger.steady.SparesLayers :=
  fun _ _ => rfl

namespace FingerprintTable

variable {logger : Logger}

/-- What the table says about a fingerprint. -/
def verdict (table : FingerprintTable) (bytes : Bytes) : Verdict Bytes :=
  match table.get? bytes with
  | some code => .known code
  | none => .missing bytes

/-- Taking the table in use changes nothing of it, however that ends. -/
theorem lock_own (logger : Logger) (state : Hosted FingerprintTable)
    : ((lock logger).run state).2.own = state.own := by
  rw [lock, Run.run_bind_ok _ (Run.run_own state)]
  cases poisoned : state.own.poisoned with
  | true =>
      simp only [if_pos]
      rw [Run.run_log]
  | false => simp

/-- A look-up is a fingerprint, then a look into the table that is taken in use; without a
fingerprint it is a line in the log.
-/
theorem run_probe (value : Shape) (state : Hosted FingerprintTable)
    : (probe logger value).run state
      = match value.fingerprint.run state with
        | (.ok bytes, printed) =>
            match (lock logger).run printed with
            | (.ok _, locked) => (.ok (state.own.verdict bytes), locked)
            | (.error ending, locked) => (.error ending, locked)
        | (.error (.failure cause), printed) =>
            (if logger.panicsAfter (.uncached cause) then .error .panic else .ok .uncached,
              ⟨printed.own, printed.host.note (.line (.uncached cause))⟩)
        | (.error .panic, printed) => (.error .panic, printed) := by
  rw [probe, Run.run_bind, Run.run_attempt]
  cases printed : value.fingerprint.run state with
  | mk outcome after =>
      cases outcome with
      | ok bytes =>
          obtain ⟨-, -, -, -, own⟩ := Shape.fingerprint_eq_ok printed
          have kept := lock_own logger after
          dsimp only [lookup]
          rw [Run.run_bind, Run.run_bind]
          cases locked : (lock logger).run after with
          | mk ending middle =>
              rw [locked] at kept
              cases ending with
              | error _ => rfl
              | ok _ =>
                  have same : middle.own = state.own := kept.trans own
                  simp only [Run.run_bind, Run.run_own, Run.run_pure, same, verdict]
                  cases state.own.get? bytes <;> rfl
      | error ending =>
          obtain ⟨⟨kind, rfl⟩, -⟩ := Shape.fingerprint_eq_error printed
          simp only [Failure.isUnrecognized, if_true, Run.run_bind, Run.run_log]
          cases logger.panicsAfter (.uncached (.unrecognized kind)) <;> rfl

/-- Looking a value up changes nothing of the table, however that ends. -/
theorem probe_own (logger : Logger) (value : Shape) (state : Hosted FingerprintTable)
    : ((probe logger value).run state).2.own = state.own := by
  rw [run_probe]
  cases printed : value.fingerprint.run state with
  | mk outcome after =>
      cases outcome with
      | ok bytes =>
          obtain ⟨-, -, -, -, own⟩ := Shape.fingerprint_eq_ok printed
          have kept := lock_own logger after
          cases locked : (lock logger).run after with
          | mk ending middle =>
              rw [locked] at kept
              dsimp only
              rw [locked]
              cases ending <;> exact kept.trans own
      | error ending =>
          obtain ⟨⟨kind, rfl⟩, own⟩ := Shape.fingerprint_eq_error printed
          exact own

/-- What an answered look-up says is the table's verdict on the fingerprint, if there is one. -/
theorem probe_eq_ok {value : Shape} {state after : Hosted FingerprintTable}
    {said : Verdict Bytes} (answered : (probe logger value).run state = (.ok said, after))
    : (∃ bytes, (value.fingerprint.run state).1 = .ok bytes ∧ said = state.own.verdict bytes)
      ∨ ((∀ bytes, (value.fingerprint.run state).1 ≠ .ok bytes) ∧ said = .uncached) := by
  rw [run_probe] at answered
  cases printed : value.fingerprint.run state with
  | mk outcome middle =>
      rw [printed] at answered
      cases outcome with
      | ok bytes =>
          left
          refine ⟨bytes, rfl, ?_⟩
          cases locked : (lock logger).run middle with
          | mk ending finish =>
              dsimp only at answered
              rw [locked] at answered
              cases ending with
              | ok _ => exact (Except.ok.inj (Prod.mk.inj answered).1).symm
              | error _ => cases answered
      | error ending =>
          right
          refine ⟨fun bytes => nofun, ?_⟩
          obtain ⟨⟨kind, rfl⟩, -⟩ := Shape.fingerprint_eq_error printed
          cases panics : logger.panicsAfter (.uncached (.unrecognized kind)) with
          | true => simp [panics] at answered
          | false =>
              simp only [panics, Bool.false_eq_true, if_false, Prod.mk.injEq, Except.ok.injEq]
                at answered
              exact answered.1.symm

/-- A line in the middle of a change leaves every entry as it is, however that ends. -/
theorem logInside_entries (logger : Logger) (line : LogLine) (state : Hosted FingerprintTable)
    : ((logInside logger line).run state).2.own.entries = state.own.entries := by
  simp only [logInside, Run.onStop, Run.run_log]
  cases logger.panicsAfter line <;> rfl

/-- A stored code is the one that was stored before, and otherwise the new one, which is then the
one change of the entries.
-/
theorem insert_eq_ok {bytes : Bytes} {code stored : Typecode}
    {state after : Hosted FingerprintTable}
    (answered : (insert logger bytes code).run state = (.ok stored, after))
    : (state.own.get? bytes = some stored ∧ after.own.entries = state.own.entries)
      ∨ (state.own.get? bytes = none ∧ stored = code
        ∧ after.own.entries = state.own.entries.insert bytes code) := by
  obtain ⟨_, locked, taken, answered⟩ := Run.run_bind_eq_ok.mp answered
  have kept : locked.own = state.own := by
    have same := lock_own logger state
    rw [taken] at same
    exact same
  rw [Run.run_bind_ok _ (Run.run_own locked), kept] at answered
  cases found : state.own.get? bytes with
  | some earlier =>
      left
      rw [found] at answered
      by_cases agrees : earlier = code
      · simp only [agrees, ne_eq, not_true_eq_false, if_false, Run.run_pure]
          at answered
        cases answered
        exact ⟨congrArg some agrees, congrArg entries kept⟩
      · have logged := logInside_entries logger (.conflict bytes earlier code) locked
        simp only [ne_eq, agrees, not_false_eq_true, if_true] at answered
        obtain ⟨_, told, line, answered⟩ := Run.run_bind_eq_ok.mp answered
        rw [line] at logged
        cases answered
        exact ⟨rfl, logged.trans (congrArg entries kept)⟩
  | none =>
      right
      rw [found] at answered
      have logged := logInside_entries logger (.caching bytes code) locked
      obtain ⟨_, told, line, answered⟩ := Run.run_bind_eq_ok.mp answered
      rw [line] at logged
      cases answered
      refine ⟨rfl, rfl, ?_⟩
      show told.own.entries.insert bytes code = state.own.entries.insert bytes code
      rw [logged, kept]

/-- An insertion that a panicking logger cuts short leaves every entry as it was. -/
theorem insert_eq_error {bytes : Bytes} {code : Typecode} {ending : Stop}
    {state after : Hosted FingerprintTable}
    (stopped : (insert logger bytes code).run state = (.error ending, after))
    : after.own.entries = state.own.entries := by
  have kept := lock_own logger state
  rcases Run.run_bind_eq_error.mp stopped with early | ⟨_, locked, taken, late⟩
  · rw [early] at kept
    exact congrArg entries kept
  · rw [taken] at kept
    rw [Run.run_bind_ok _ (Run.run_own locked), show locked.own = state.own from kept] at late
    cases found : state.own.get? bytes with
    | some earlier =>
        rw [found] at late
        by_cases agrees : earlier = code
        · simp [agrees] at late
        · have logged := logInside_entries logger (.conflict bytes earlier code) locked
          simp only [ne_eq, agrees, not_false_eq_true, if_true] at late
          rcases Run.run_bind_eq_error.mp late with line | ⟨_, told, line, done⟩
          · rw [line] at logged
            exact logged.trans (congrArg entries kept)
          · cases done
    | none =>
        rw [found] at late
        have logged := logInside_entries logger (.caching bytes code) locked
        rcases Run.run_bind_eq_error.mp late with line | ⟨_, told, line, done⟩
        · rw [line] at logged
          exact logged.trans (congrArg entries kept)
        · cases done

-----------------------------------------------------------------------------------------
-- Operations under a logger that spares the layers
-----------------------------------------------------------------------------------------

theorem lock_spared (spares : logger.SparesLayers) (state : Hosted FingerprintTable)
    : ∃ host,
        (lock logger).run state = (.ok (), ⟨state.own, host⟩) ∧ host.Alike state.host := by
  rw [lock, Run.run_bind_ok _ (Run.run_own state)]
  cases state.own.poisoned with
  | true =>
      refine ⟨state.host.note (.line .recovered), ?_, .note rfl rfl _⟩
      simp only [if_true, Run.run_log, spares .recovered nofun, Bool.false_eq_true, if_false]
  | false => exact ⟨state.host, rfl, .refl _⟩

theorem logInside_spared {line : LogLine} (silent : logger.panicsAfter line = false)
    (state : Hosted FingerprintTable)
    : (logInside logger line).run state
      = (.ok (), ⟨state.own, state.host.note (.line line)⟩) := by
  simp only [logInside, Run.onStop, Run.run_log, silent, Bool.false_eq_true, if_false]

/-- A look-up ends with what the table says, and all that it does besides is to compute the
fingerprint and to write lines.
-/
theorem probe_spared (spares : logger.SparesLayers) (value : Shape)
    (state : Hosted FingerprintTable)
    : ∃ said host,
        (probe logger value).run state = (.ok said, ⟨state.own, host⟩)
        ∧ host.Alike (value.fingerprint.run state).2.host := by
  have own := probe_own logger value state
  rw [run_probe] at own ⊢
  cases printed : value.fingerprint.run state with
  | mk outcome middle =>
      rw [printed] at own
      cases outcome with
      | ok bytes =>
          obtain ⟨host, taken, alike⟩ := lock_spared spares middle
          dsimp only at own ⊢
          rw [taken] at own ⊢
          exact ⟨_, host, Prod.ext rfl (congrArg (Hosted.mk · host) own), alike⟩
      | error ending =>
          obtain ⟨⟨kind, rfl⟩, -⟩ := Shape.fingerprint_eq_error printed
          have silent := spares (.uncached (.unrecognized kind)) nofun
          simp only [silent, Bool.false_eq_true, if_false]
          exact ⟨_, _, Prod.ext rfl (congrArg (Hosted.mk · _) own), .note rfl rfl _⟩

/-- An insertion ends with an answer, and all that it does besides is to write lines. -/
theorem insert_spared (spares : logger.SparesLayers) (bytes : Bytes) (code : Typecode)
    (state : Hosted FingerprintTable)
    : ∃ stored after,
        (insert logger bytes code).run state = (.ok stored, after)
        ∧ after.host.Alike state.host := by
  obtain ⟨host, taken, alike⟩ := lock_spared spares state
  rw [insert, Run.run_bind_ok _ taken, Run.run_bind_ok _ (Run.run_own _)]
  cases state.own.get? bytes with
  | some stored =>
      by_cases agrees : stored = code
      · exact ⟨stored, ⟨state.own, host⟩, by simp [agrees], alike⟩
      · simp only [ne_eq, agrees, not_false_eq_true, if_true]
        rw [Run.run_bind_ok _ (logInside_spared (spares (.conflict bytes stored code) nofun) _)]
        exact ⟨stored, _, rfl, (Host.Alike.note rfl rfl host).trans alike⟩
  | none =>
      dsimp only
      rw [Run.run_bind_ok _ (logInside_spared (spares (.caching bytes code) nofun) _)]
      exact ⟨code, _, rfl, (Host.Alike.note rfl rfl host).trans alike⟩

/-- Storing under a byte string that is not in use adds one entry. -/
theorem insert_vacant (spares : logger.SparesLayers) {table : FingerprintTable} {bytes : Bytes}
    (vacant : table.get? bytes = none) (code : Typecode) (host : Host)
    : ∃ next after,
        (insert logger bytes code).run ⟨table, host⟩ = (.ok code, ⟨next, after⟩)
        ∧ after.Alike host
        ∧ (∀ other, next.get? other = if other = bytes then some code else table.get? other)
        ∧ next.size = table.size + 1 := by
  obtain ⟨stored, ⟨next, after⟩, ran, alike⟩ := insert_spared spares bytes code ⟨table, host⟩
  rcases insert_eq_ok ran with ⟨found, -⟩ | ⟨-, rfl, grown⟩
  · cases found.symm.trans vacant
  · have absent : bytes ∉ table.entries := by
      intro member
      have present := Std.HashMap.getElem?_eq_some_getElem member
      cases present.symm.trans vacant
    refine ⟨next, after, ran, alike, ?_, ?_⟩
    · intro other
      simp only [get?] at grown ⊢
      rw [grown, Std.HashMap.getElem?_insert]
      by_cases same : other = bytes
      · simp [same]
      · simp [same, Ne.symm same]
    · simp only [size] at grown ⊢
      rw [grown, Std.HashMap.size_insert, if_neg absent]

end FingerprintTable

end Typecodes
