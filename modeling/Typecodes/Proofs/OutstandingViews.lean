import Mathlib
import Typecodes.Proofs.DispatcherOperations
import Typecodes.Proofs.HostFrames
import Typecodes.Proofs.PairedViews

/-! Which views are out at a time. A layer takes views only while it looks a value up, and gives
each back before it asks for the next. So at most one is out at any time, and none while a resolver
works or after a value has returned, however deeply classifications nest and in whatever way they
end.
-/

namespace Typecodes

namespace BufferEvent

/-- The granted views that are not given back, after one more event. -/
def hold (held : List (Nat × Identity × View)) : BufferEvent → List (Nat × Identity × View)
  | asked handle runtimeType _ (.ok view) => (handle, runtimeType, view) :: held
  | asked _ _ _ (.error _) => held
  | released handle runtimeType view => held.erase (handle, runtimeType, view)

/-- The views that are granted by some events, in the order of time, and not given back. -/
def held (events : List BufferEvent) : List (Nat × Identity × View) :=
  events.foldl hold []

/-- Events that are blocks in a row. -/
def Paired (events : List BufferEvent) : Prop :=
  ∃ blocks : List ViewBlock, events = blocks.flatMap ViewBlock.events

theorem Paired.append {first second : List BufferEvent} (left : Paired first)
    (right : Paired second)
    : Paired (first ++ second) := by
  obtain ⟨blocks, rfl⟩ := left
  obtain ⟨others, rfl⟩ := right
  exact ⟨blocks ++ others, by simp⟩

/-- Whatever is held before a block is held after it. -/
theorem foldl_hold_block (held : List (Nat × Identity × View)) (block : ViewBlock)
    : block.events.foldl hold held = held := by
  cases block <;> simp [ViewBlock.events, hold]

/-- Within a block at most one view is held. -/
theorem held_of_prefix_block {block : ViewBlock} {past : List BufferEvent}
    (early : past <+: block.events)
    : (held past).length ≤ 1 := by
  cases block with
  | writable exporter view | refused exporter first second =>
      simp only [ViewBlock.events, List.prefix_cons_iff, List.prefix_nil] at early
      rcases early with rfl | ⟨_, rfl, rfl | ⟨_, rfl, rfl⟩⟩ <;> simp [held, hold]
  | readOnly exporter refusal view =>
      simp only [ViewBlock.events, List.prefix_cons_iff, List.prefix_nil] at early
      rcases early with rfl | ⟨_, rfl, rfl | ⟨_, rfl, rfl | ⟨_, rfl, rfl⟩⟩⟩ <;> simp [held, hold]

/-- After whole blocks nothing is held, by induction over the blocks. -/
theorem Paired.held_eq_nil {events : List BufferEvent} (paired : Paired events)
    : held events = [] := by
  obtain ⟨blocks, rfl⟩ := paired
  induction blocks with
  | nil => rfl
  | cons block rest ih =>
      rw [List.flatMap_cons, held, List.foldl_append, foldl_hold_block]
      exact ih

/-- In the middle of blocks at most one view is held, by induction over the blocks. -/
theorem Paired.held_length_le {past future : List BufferEvent} (paired : Paired (past ++ future))
    : (held past).length ≤ 1 := by
  obtain ⟨blocks, same⟩ := paired
  induction blocks generalizing past with
  | nil =>
      obtain ⟨rfl, -⟩ := List.append_eq_nil_iff.mp same
      exact Nat.zero_le _
  | cons block rest ih =>
      rw [List.flatMap_cons] at same
      rcases List.append_eq_append_iff.mp same with ⟨left, within, -⟩ | ⟨left, beyond, others⟩
      · exact held_of_prefix_block ⟨left, within.symm⟩
      · rw [beyond, held, List.foldl_append, foldl_hold_block]
        exact ih others.symm

end BufferEvent

/-- What happened to exporters from one host to a later one, in the order of time. -/
def Host.eventsUntil (before after : Host) : List BufferEvent :=
  (after.history.take (after.history.length - before.history.length)).reverse

theorem Host.eventsUntil_eq {before after : Host} {events : List BufferEvent}
    (grown : after.history = events.reverse ++ before.history)
    : before.eventsUntil after = events := by
  simp [eventsUntil, grown]

/-- Whole blocks happened from one host to the other. -/
def Host.PairedUntil (before after : Host) : Prop :=
  ∃ events, BufferEvent.Paired events ∧ after.history = events.reverse ++ before.history

namespace Host.PairedUntil

theorem ofSame {before after : Host} (same : after.history = before.history)
    : before.PairedUntil after :=
  ⟨[], ⟨[], rfl⟩, same⟩

theorem trans {first second third : Host} (left : first.PairedUntil second)
    (right : second.PairedUntil third)
    : first.PairedUntil third := by
  obtain ⟨events, paired, grown⟩ := left
  obtain ⟨others, paired', grown'⟩ := right
  exact ⟨events ++ others, paired.append paired', by simp [grown', grown]⟩

theorem paired {before after : Host} (leads : before.PairedUntil after)
    : BufferEvent.Paired (before.eventsUntil after) := by
  obtain ⟨events, paired, grown⟩ := leads
  rwa [eventsUntil_eq grown]

end Host.PairedUntil

/-- A run whose buffer events are whole blocks, however it ends. -/
def Run.Tidy {σ α : Type} (work : Run σ α) : Prop :=
  ∀ state : Hosted σ, state.host.PairedUntil (work.run state).2.host

theorem Run.Inspects.tidy {σ α : Type} {work : Run σ α} {exporters : List Exporter}
    {answers : Bool} {excused : Stop → Prop} (inspects : work.Inspects exporters answers excused)
    : work.Tidy := by
  intro state
  obtain ⟨blocks, inspected⟩ := inspects state
  exact ⟨_, ⟨blocks, rfl⟩, inspected.history⟩

-----------------------------------------------------------------------------------------
-- What layers do to exporters
-----------------------------------------------------------------------------------------

/-- Which buffer events a fingerprint causes is a matter of the host alone. -/
theorem Shape.fingerprint_host {σ τ : Type} (value : Shape) (own : τ) (state : Hosted σ)
    : (value.fingerprint.run state).2.host
      = (value.fingerprint.run (⟨own, state.host⟩ : Hosted τ)).2.host := by
  rw [run_fingerprint, run_fingerprint]
  cases (Writer.put value).run ⟨.empty, state.host⟩ with
  | mk outcome after => cases outcome <;> rfl

/-- A run that leaves exporters alone, however it ends. -/
def Run.LeavesExporters {σ α : Type} (work : Run σ α) : Prop :=
  ∀ state, (work.run state).2.host.history = state.host.history

theorem Host.unlogged_history : Host.Unlogged Host.history :=
  fun _ _ => rfl

/-- A layer that does to exporters what a fingerprint does where it looks a value up, and nothing
where it stores a code.
-/
structure Layer.Discreet (logger : Logger) (σ : Type) {κ : Type} [Layer σ κ] : Prop where
  probe
    : ∀ value (state : Hosted σ),
        ((Layer.probe logger value).run state).2.host.history
        = (value.fingerprint.run state).2.host.history
  store : ∀ key code, (Layer.store logger key code : Run σ Typecode).LeavesExporters

namespace FingerprintTable

variable (logger : Logger)

theorem discreet : Layer.Discreet logger FingerprintTable where
  probe value state := by
    show ((probe logger value).run state).2.host.history = _
    rw [run_probe]
    cases value.fingerprint.run state with
    | mk outcome printed =>
        rcases outcome with (cause | _) | bytes
        · rfl
        · rfl
        · have locked := @lock_leaves _ _ logger Host.unlogged_history printed
          dsimp only
          cases ran : (lock logger).run printed with
          | mk outcome after =>
              rw [ran] at locked
              cases outcome <;> exact locked
  store := insert_leaves Host.unlogged_history

end FingerprintTable

namespace Dispatcher

theorem discreet (logger : Logger) : Layer.Discreet logger Dispatcher where
  probe value state := by
    obtain ⟨dispatcher, host⟩ := state
    show ((probe logger value).run ⟨dispatcher, host⟩).2.host.history = _
    rw [probe, Run.run_bind, onGrid, Run.run_within]
    rcases ArrayGrid.probe_cases value ⟨dispatcher.grid, host⟩ with
      ⟨-, passed⟩ | ⟨slot, position, looked⟩
    · have printed := (FingerprintTable.discreet logger).probe value ⟨dispatcher.table, host⟩
      change ((FingerprintTable.probe logger value).run _).2.host.history = _ at printed
      rw [passed]
      dsimp only
      rw [Run.run_bind, onTable, Run.run_within, Shape.fingerprint_host value dispatcher.table,
        ← printed]
      cases (FingerprintTable.probe logger value).run ⟨dispatcher.table, host⟩ with
      | mk outcome after =>
          rcases outcome with ending | (_ | _ | _ | _) <;> rfl
    · rw [Shape.fingerprint_of_slot position]
      rcases looked with looked | ⟨code, -, looked⟩ | ⟨-, looked⟩ <;> rw [looked] <;> rfl
  store := store_leaves Host.unlogged_history

end Dispatcher

-----------------------------------------------------------------------------------------
-- From one moment to the next
-----------------------------------------------------------------------------------------

section Moments

variable {σ κ ω : Type}

/-- What happens to exporters from one moment to the next where no resolver is at work. The look-up
of a value that entered does what its fingerprint does, and after a call nothing happens.
-/
def Moment.LeadsTo (first second : Moment σ κ ω) : Prop :=
  match first.stage with
  | .entered value =>
      second.state.host.history = (value.fingerprint.run first.state).2.host.history
  | .answered _ _ => second.state.host.history = first.state.host.history
  | .called _ _ | .returned _ _ _ => True

/-- Moments that lead to each other, the last of which is a return. -/
structure Connected (moments : List (Moment σ κ ω)) : Prop where
  chain : moments.IsChain Moment.LeadsTo
  closed
    : ∀ moment ∈ moments.getLast?, ∃ value entry outcome,
        moment.stage = .returned value entry outcome

/-- After a return a resolver or the host is at work. -/
theorem Connected.leadsTo {moments : List (Moment σ κ ω)} (connected : Connected moments)
    (next : Moment σ κ ω)
    : ∀ last ∈ moments.getLast?, last.LeadsTo next := by
  intro last member
  obtain ⟨value, entry, outcome, stage⟩ := connected.closed last member
  rw [Moment.LeadsTo, stage]
  trivial

theorem Connected.append {first second : List (Moment σ κ ω)} (left : Connected first)
    (right : Connected second)
    : Connected (first ++ second) where
  chain := left.chain.append right.chain fun last member next _ => left.leadsTo next last member
  closed := by
    intro moment member
    rw [List.getLast?_append, Option.mem_def, Option.or_eq_some_iff] at member
    rcases member with late | ⟨-, early⟩
    · exact right.closed moment late
    · exact left.closed moment early

/-- Whether it is neither a resolver nor the host that works from a moment on. -/
def Moment.inLibrary (moment : Moment σ κ ω) : Bool :=
  match moment.stage with
  | .entered _ | .answered _ _ => true
  | .called _ _ | .returned _ _ _ => false

/-- What happens to exporters, in the order of time, while neither a resolver nor the host works. -/
def libraryEvents : List (Moment σ κ ω) → List BufferEvent
  | first :: second :: rest =>
      (if first.inLibrary then first.state.host.eventsUntil second.state.host else [])
      ++ libraryEvents (second :: rest)
  | [_] | [] => []

theorem Moment.LeadsTo.pairedUntil {first second : Moment σ κ ω} (leads : first.LeadsTo second)
    (library : first.inLibrary = true)
    : first.state.host.PairedUntil second.state.host := by
  unfold LeadsTo at leads
  unfold inLibrary at library
  cases stage : first.stage with
  | entered value =>
      rw [stage] at leads
      obtain ⟨events, paired, grown⟩ := value.fingerprint_inspects.tidy first.state
      exact ⟨events, paired, leads.trans grown⟩
  | answered key answer =>
      rw [stage] at leads
      exact .ofSame leads
  | called _ _ | returned _ _ _ => simp [stage] at library

/-- The library's events are whole blocks, by induction over the moments. -/
theorem libraryEvents_paired {moments : List (Moment σ κ ω)}
    (chain : moments.IsChain Moment.LeadsTo)
    : BufferEvent.Paired (libraryEvents moments) := by
  induction moments with
  | nil => exact ⟨[], rfl⟩
  | cons first rest ih =>
      cases rest with
      | nil => exact ⟨[], rfl⟩
      | cons second rest =>
          obtain ⟨leads, others⟩ := List.isChain_cons_cons.mp chain
          refine BufferEvent.Paired.append ?_ (ih others)
          split
          · exact (leads.pairedUntil ‹_›).paired
          · exact ⟨[], rfl⟩

/-- What can be said about the views that are out during a run. -/
structure NeverHeld (moments : List (Moment σ κ ω)) : Prop where
  /-- The library touches exporters only to look a value up, and then as the value's fingerprint
  does.
  -/
  stretches : moments.IsChain Moment.LeadsTo
  /-- At no time more than one view is out that the library was granted. -/
  atMostOne
    : ∀ past future,
        libraryEvents moments = past ++ future → (BufferEvent.held past).length ≤ 1
  /-- None is out when a value enters or returns or when a resolver is called or ends. -/
  noneOut
    : ∀ past moment future,
        moments = past ++ moment :: future
        → BufferEvent.held (libraryEvents (past ++ [moment])) = []

theorem Connected.neverHeld {moments : List (Moment σ κ ω)} (connected : Connected moments)
    : NeverHeld moments where
  stretches := connected.chain
  atMostOne past future split := by
    have paired := libraryEvents_paired connected.chain
    rw [split] at paired
    exact paired.held_length_le
  noneOut past moment future split := by
    have chain := connected.chain
    rw [split, List.append_cons] at chain
    exact (libraryEvents_paired chain.left_of_append).held_eq_nil

/-- Buffer events of a stretch of a run are whole blocks, from its start to each of its moments and
to its end.
-/
structure TidyStretch (start : Host) (moments : List (Moment σ κ ω)) (final : Host) : Prop where
  moments : ∀ moment ∈ moments, start.PairedUntil moment.state.host
  final : start.PairedUntil final

/-- A stretch without moments. -/
theorem TidyStretch.between {start final : Host} (leads : start.PairedUntil final)
    : TidyStretch start ([] : List (Moment σ κ ω)) final :=
  ⟨List.forall_mem_nil _, leads⟩

theorem TidyStretch.append {start middle final : Host} {first second : List (Moment σ κ ω)}
    (left : TidyStretch start first middle) (right : TidyStretch middle second final)
    : TidyStretch start (first ++ second) final where
  moments :=
    List.forall_mem_append.mpr
      ⟨left.moments, fun moment member => left.final.trans (right.moments moment member)⟩
  final := left.final.trans right.final

theorem TidyStretch.point {start : Host} {moment : Moment σ κ ω}
    (leads : start.PairedUntil moment.state.host)
    : TidyStretch start [moment] moment.state.host :=
  ⟨List.forall_mem_singleton.mpr leads, leads⟩

/-- What can be said about all views that are out during a run, whoever was granted them. -/
structure NeverHeldByAny (start : Host) (moments : List (Moment σ κ ω)) (final : Host) : Prop where
  atMostOne
    : ∀ past future,
        start.eventsUntil final = past ++ future → (BufferEvent.held past).length ≤ 1
  noneOut : ∀ moment ∈ moments, BufferEvent.held (start.eventsUntil moment.state.host) = []
  noneLeft : BufferEvent.held (start.eventsUntil final) = []

theorem TidyStretch.neverHeldByAny {start final : Host} {moments : List (Moment σ κ ω)}
    (tidy : TidyStretch start moments final)
    : NeverHeldByAny start moments final where
  atMostOne past future split := by
    have paired := tidy.final.paired
    rw [split] at paired
    exact paired.held_length_le
  noneOut moment member := (tidy.moments moment member).paired.held_eq_nil
  noneLeft := tidy.final.paired.held_eq_nil

-----------------------------------------------------------------------------------------
-- Runs
-----------------------------------------------------------------------------------------

variable [Layer σ κ] {logger : Logger}

/-- What follows a call does nothing to exporters. -/
theorem Layer.Discreet.conclusion_leavesExporters (discreet : Layer.Discreet logger σ)
    (key : Option κ) (answer : Except Stop Typecode)
    : (Run.ofExcept answer >>= Layer.keep logger key
        : Run (σ × ω) (Option Typecode)).LeavesExporters :=
  Layer.conclusion_leaves discreet.store key answer

/-- A look-up does to exporters what a fingerprint does, also beside a resolver's state. -/
theorem Layer.Discreet.looked (discreet : Layer.Discreet logger σ) {value : Shape}
    {state probed : Hosted (σ × ω)} {outcome : Except Stop (Verdict κ)}
    (looked : (Run.onFirst (Layer.probe logger value)).run state = (outcome, probed))
    : probed.host.history = (value.fingerprint.run state).2.host.history := by
  have same := discreet.probe value ⟨state.own.1, state.host⟩
  rw [Run.run_onFirst] at looked
  rw [Shape.fingerprint_host value state.own.1 state, ← same]
  exact congrArg (fun finish => finish.2.host.history) looked.symm

/-- A classification is connected if its resolver's work is, by cases on its course. -/
theorem Layer.Discreet.connected (discreet : Layer.Discreet logger σ) (value : Shape)
    {resolve : Run (σ × ω) Typecode} {inside : Hosted (σ × ω) → List (Moment σ κ ω)}
    (work : ∀ state, Connected (inside state)) (state : Hosted (σ × ω))
    : Connected (Layer.moments logger value resolve inside state) := by
  have course := Layer.classify_course logger value resolve state
  unfold Layer.moments
  generalize (Layer.classify logger value resolve).run state = finish at course ⊢
  dsimp only
  refine ⟨?_, ?closed⟩
  case closed =>
    rw [← List.cons_append, List.getLast?_concat]
    rintro _ ⟨⟩
    exact ⟨value, state, finish.1, rfl⟩
  cases course with
  | stopped ending probed looked silent ends =>
      rw [silent, ends]
      exact List.isChain_pair.mpr (discreet.looked looked)
  | told answer probed looked silent ends =>
      rw [silent, ends]
      exact List.isChain_pair.mpr (discreet.looked looked)
  | called key probed answer worked looked works calls ends =>
      have kept :=
        discreet.conclusion_leavesExporters key answer (Layer.answering key answer worked)
      rw [← ends] at kept
      have concluded : [⟨.answered key answer, Layer.answering key answer worked⟩,
          (⟨.returned value state finish.1, finish.2⟩ : Moment σ κ ω)].IsChain Moment.LeadsTo :=
        List.isChain_pair.mpr kept
      have entering := discreet.looked looked
      have before := work (Layer.calling key value probed)
      rw [calls, List.cons_append, List.append_assoc]
      refine List.isChain_cons_cons.mpr ⟨entering, ?_⟩
      refine List.IsChain.cons ?_ fun _ _ => trivial
      exact before.chain.append concluded fun last member next _ => before.leadsTo next last member

theorem Layer.Discreet.account (discreet : Layer.Discreet logger σ)
    : Procedure.Account logger fun _ (moments : List (Moment σ κ ω)) _ => Connected moments where
  idle _ := ⟨.nil, nofun⟩
  append _ _ _ _ _ := Connected.append
  classify value _ _ work state := discreet.connected value work state

/-- A classification is tidy if its resolver's work is, by cases on its course. -/
theorem Layer.Discreet.tidy (discreet : Layer.Discreet logger σ) (value : Shape)
    {resolve : Run (σ × ω) Typecode} {inside : Hosted (σ × ω) → List (Moment σ κ ω)}
    (work
      : ∀ state, TidyStretch state.host (inside state) (resolve.run state).2.host)
    (state : Hosted (σ × ω))
    : TidyStretch state.host (Layer.moments logger value resolve inside state)
        ((Layer.classify logger value resolve).run state).2.host := by
  have course := Layer.classify_course logger value resolve state
  have entered : TidyStretch state.host [(⟨.entered value, state⟩ : Moment σ κ ω)] state.host :=
    .point (.ofSame rfl)
  have probes {outcome : Except Stop (Verdict κ)} {probed : Hosted (σ × ω)}
      (looked : (Run.onFirst (Layer.probe logger value)).run state = (outcome, probed))
      : state.host.PairedUntil probed.host := by
    obtain ⟨events, paired, grown⟩ := value.fingerprint_inspects.tidy state
    exact ⟨events, paired, (discreet.looked looked).trans grown⟩
  unfold Layer.moments
  generalize (Layer.classify logger value resolve).run state = finish at course ⊢
  dsimp only
  cases course with
  | stopped ending probed looked silent ends =>
      rw [silent, ends]
      exact entered.append (.point (probes looked))
  | told answer probed looked silent ends =>
      rw [silent, ends]
      exact entered.append (.point (probes looked))
  | called key probed answer worked looked works calls ends =>
      have leads := probes looked
      have called : TidyStretch state.host
          [(⟨.called key value, Layer.calling key value probed⟩ : Moment σ κ ω)]
          (Layer.calling key value probed).host :=
        .point leads
      have inner := work (Layer.calling key value probed)
      rw [works] at inner
      have answered : TidyStretch worked.host
          [(⟨.answered key answer, Layer.answering key answer worked⟩ : Moment σ κ ω)]
          (Layer.answering key answer worked).host :=
        .point (.ofSame rfl)
      have kept :=
        discreet.conclusion_leavesExporters key answer (Layer.answering key answer worked)
      rw [← ends] at kept
      have returned : TidyStretch (Layer.answering key answer worked).host
          [(⟨.returned value state finish.1, finish.2⟩ : Moment σ κ ω)] finish.2.host :=
        .point (.ofSame kept)
      rw [calls, List.cons_append, List.append_assoc]
      exact entered.append (called.append (inner.append (answered.append returned)))

/-- A procedure whose work of its own is tidy, and so are the resolvers that it has used. -/
def Procedure.Tidy : Procedure ω → Prop
  | done _ => True
  | perform work next => work.Tidy ∧ ∀ answer, (next answer).Tidy
  | classify _ inner next => (inner ()).Tidy ∧ ∀ outcome, (next outcome).Tidy

/-- What a tidy procedure does is tidy, by induction over it. -/
theorem Layer.Discreet.tidy_procedure (discreet : Layer.Discreet logger σ)
    {procedure : Procedure ω} (tidy : procedure.Tidy) (state : Hosted (σ × ω))
    : TidyStretch state.host (procedure.moments logger state : List (Moment σ κ ω))
        ((procedure.run logger).run state).2.host := by
  induction procedure generalizing state with
  | done answer => cases answer <;> exact .between (.ofSame rfl)
  | perform work next ih =>
      have worked : state.host.PairedUntil ((Run.onSecond work).run state).2.host :=
        tidy.1 ⟨state.own.2, state.host.rested⟩
      rw [Procedure.moments, Procedure.run, Run.run_bind]
      cases ran : (Run.onSecond work).run state with
      | mk outcome after =>
          rw [ran] at worked
          cases outcome with
          | ok answer => exact (TidyStretch.between worked).append (ih answer (tidy.2 answer) after)
          | error ending => exact .between worked
  | classify value inner next ihInner ihNext =>
      have stretch := discreet.tidy value (ihInner () tidy.1) state
      rw [Procedure.moments, Procedure.run, Run.run_bind]
      refine stretch.append ?_
      rw [Run.run_attempt]
      cases (Layer.classify logger value ((inner ()).run logger)).run state with
      | mk outcome after =>
          rcases outcome with (cause | _) | answer
          · exact ihNext _ (tidy.2 _) after
          · exact .between (.ofSame rfl)
          · exact ihNext _ (tidy.2 _) after

/-- What tidy procedures in a row do is tidy, by induction over them. -/
theorem Layer.Discreet.tidy_procedures (discreet : Layer.Discreet logger σ)
    {programs : List (Procedure ω)} (tidy : ∀ program ∈ programs, program.Tidy)
    (state : Hosted (σ × ω))
    : TidyStretch state.host (Procedure.momentsAll logger programs state : List (Moment σ κ ω))
        (Procedure.runAll logger programs state).host := by
  induction programs generalizing state with
  | nil => exact .between (.ofSame rfl)
  | cons program rest ih =>
      obtain ⟨first, others⟩ := List.forall_mem_cons.mp tidy
      exact (discreet.tidy_procedure first state).append (ih others _)

end Moments

/-- Full analysis by a resolver is tidy. -/
theorem Resolver.analysis_tidy (logger : Logger) (value : Shape)
    : (Resolver.analysis logger value).Tidy := by
  refine ⟨?_, fun _ => trivial⟩
  intro state
  exact (Analyzer.typeOf_inspects logger value).tidy
    ⟨{ state.own with resolutions := state.own.resolutions + 1 }, state.host⟩

/-- How views are paired and given back. -/
structure ViewsGivenBack (logger : Logger) : Prop where
  /-- Fingerprints take views in blocks, one for each buffer up to the first leaf without a
  fingerprint, from left to right; a buffer that grants no view is the last one.
  -/
  fingerprint
    : ∀ {σ : Type} (value : Shape),
        (value.fingerprint : Run σ Bytes).Inspects value.reached value.encodable fun _ => False
  reached : ∀ value : Shape, value.reached <+: value.exporters
  /-- This stays so where bytes are written by other means that may stop at any point. -/
  encoding
    : ∀ {σ : Type} (write : Bytes → Run σ Unit) (excused : Stop → Prop),
        (∀ bytes, (write bytes).Inspects [] true excused)
        → ∀ value : Shape,
            (value.encodeTo write).Inspects value.reached value.encodable excused
  /-- Full analysis takes views in blocks, one for each buffer from left to right; it stops early
  only at a buffer that grants no view, in a full registry or by a panic.
  -/
  analysis
    : ∀ value, (Analyzer.typeOf logger value).Inspects value.exporters true Registry.Excused
  /-- Whatever resolvers do, the library holds at most one view at a time and none while they work
  or after a return.
  -/
  table
    : ∀ {ω : Type} (programs : List (Procedure ω)) (start : Hosted (FingerprintTable × ω)),
        NeverHeld (Procedure.momentsAll logger programs start)
  dispatcher
    : ∀ {ω : Type} (programs : List (Procedure ω)) (start : Hosted (Dispatcher × ω)),
        NeverHeld (Procedure.momentsAll logger programs start)
  /-- If resolvers give back what they take, as full analysis does, the same holds of all views. -/
  tableTidy
    : ∀ {ω : Type} (programs : List (Procedure ω)) (start : Hosted (FingerprintTable × ω)),
        (∀ program ∈ programs, program.Tidy)
        → NeverHeldByAny start.host (Procedure.momentsAll logger programs start)
            (Procedure.runAll logger programs start).host
  dispatcherTidy
    : ∀ {ω : Type} (programs : List (Procedure ω)) (start : Hosted (Dispatcher × ω)),
        (∀ program ∈ programs, program.Tidy)
        → NeverHeldByAny start.host (Procedure.momentsAll logger programs start)
            (Procedure.runAll logger programs start).host
  analysisTidy : ∀ value, (Resolver.analysis logger value).Tidy

/-- Views of buffers are always paired and never held. -/
theorem views_given_back (logger : Logger) : ViewsGivenBack logger where
  fingerprint value := value.fingerprint_inspects
  reached value := value.reached_exporters
  encoding _ _ writes value := value.encodeTo_inspects writes
  analysis value := Analyzer.typeOf_inspects logger value
  table programs start :=
    ((FingerprintTable.discreet logger).account.procedures programs start).neverHeld
  dispatcher programs start :=
    ((Dispatcher.discreet logger).account.procedures programs start).neverHeld
  tableTidy _ start tidy :=
    ((FingerprintTable.discreet logger).tidy_procedures tidy start).neverHeldByAny
  dispatcherTidy _ start tidy :=
    ((Dispatcher.discreet logger).tidy_procedures tidy start).neverHeldByAny
  analysisTidy value := Resolver.analysis_tidy logger value

end Typecodes
