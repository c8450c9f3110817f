import Typecodes.Proofs.DispatcherOperations
import Typecodes.Proofs.LayerEmbeddings
import Typecodes.Proofs.Spelling

/-! Invariants of layers. What looking values up and storing answers keep is kept by whole runs, at
every moment and however deeply classifications nest. One such invariant is that tables have codes
under fingerprints only.
-/

namespace Typecodes

/-- A run that keeps an invariant, however it ends, and answers as expected. -/
def Run.Keeps {σ α : Type} (holds : σ → Prop) (expected : α → Prop) (work : Run σ α) : Prop :=
  ∀ state,
    holds state.own
    → holds (work.run state).2.own ∧ ∀ answer, (work.run state).1 = .ok answer → expected answer

namespace Run.Keeps

variable {σ τ α β : Type} {holds : σ → Prop} {inner : τ → Prop} {expected : α → Prop}
  {wanted : β → Prop}

/-- A run that leaves the state alone and answers as expected. -/
theorem ofUnchanged {work : Run σ α} (unchanged : ∀ state, (work.run state).2.own = state.own)
    (answers : ∀ state answer, (work.run state).1 = .ok answer → expected answer)
    : Keeps holds expected work := by
  intro state holding
  rw [unchanged state]
  exact ⟨holding, answers state⟩

theorem ofPure {answer : α} (expects : expected answer)
    : Keeps holds expected (pure answer : Run σ α) :=
  ofUnchanged (fun _ => rfl) (by rintro _ _ ⟨⟩; exact expects)

theorem ofFail (cause : Failure) : Keeps holds expected (Run.fail cause : Run σ α) :=
  ofUnchanged (fun _ => rfl) nofun

theorem ofLog (logger : Logger) (line : LogLine)
    : Keeps holds (fun _ => True) (Run.log logger line : Run σ Unit) :=
  ofUnchanged (fun state => by rw [run_log]) fun _ _ _ => trivial

/-- The state itself is an answer, and the invariant holds of it. -/
theorem ofOwn : Keeps holds holds (Run.own : Run σ σ) := by
  rintro state holding
  refine ⟨holding, ?_⟩
  rintro _ ⟨⟩
  exact holding

theorem ofChange {step : σ → σ} (changes : ∀ own, holds own → holds (step own))
    : Keeps holds (fun _ => True) (Run.change step) :=
  fun _ holding => ⟨changes _ holding, fun _ _ => trivial⟩

theorem next {work : Run σ α} {more : α → Run σ β} (first : Keeps holds expected work)
    (second : ∀ answer, expected answer → Keeps holds wanted (more answer))
    : Keeps holds wanted (work >>= more) := by
  intro state holding
  have early := first state holding
  rw [run_bind]
  cases ran : work.run state with
  | mk outcome middle =>
      rw [ran] at early
      cases outcome with
      | ok answer => exact second answer (early.2 answer rfl) middle early.1
      | error ending => exact ⟨early.1, nofun⟩

theorem attempt {work : Run σ α} (inside : Keeps holds expected work)
    : Keeps holds (fun outcome => ∀ answer, outcome = .ok answer → expected answer)
        (Run.attempt work) := by
  intro state holding
  have kept := inside state holding
  rw [run_attempt]
  cases ran : work.run state with
  | mk outcome after =>
      rw [ran] at kept
      rcases outcome with (cause | _) | answer
      · refine ⟨kept.1, ?_⟩
        rintro _ ⟨⟩ _ ⟨⟩
      · exact ⟨kept.1, nofun⟩
      · refine ⟨kept.1, ?_⟩
        rintro _ ⟨⟩ _ ⟨⟩
        exact kept.2 answer rfl

theorem onStop {change : σ → σ} {work : Run σ α} (inside : Keeps holds expected work)
    (changes : ∀ own, holds own → holds (change own))
    : Keeps holds expected (Run.onStop change work) := by
  intro state holding
  have kept := inside state holding
  cases ran : work.run state with
  | mk outcome after =>
      rw [ran] at kept
      simp only [Run.onStop, ran]
      cases outcome with
      | ok answer => exact kept
      | error ending => exact ⟨changes _ kept.1, nofun⟩

/-- A run on a part of the state, if the invariant is one of this part. -/
theorem within {part : σ → τ} {put : σ → τ → σ} {work : Run τ α}
    (inside : Keeps inner expected work) (enters : ∀ own, holds own → inner (part own))
    (leaves : ∀ own next, holds own → inner next → holds (put own next))
    : Keeps holds expected (Run.within part put work) := by
  intro state holding
  have kept := inside ⟨part state.own, state.host⟩ (enters _ holding)
  exact ⟨leaves _ _ holding kept.1, kept.2⟩

end Run.Keeps

-----------------------------------------------------------------------------------------
-- Layers that keep an invariant
-----------------------------------------------------------------------------------------

/-- If the verdict is that a key is missing, it is a wanted one. -/
def Verdict.Within {κ : Type} (wanted : κ → Prop) : Verdict κ → Prop
  | missing key => wanted key
  | unserved | known _ | uncached => True

namespace Layer

variable {σ κ ω : Type} [Layer σ κ] {logger : Logger} {wanted : κ → Prop} {holds : σ → Prop}

/-- A layer maintains an invariant if looking values up and storing under wanted keys keep it, where
every key that a look-up misses is a wanted one.
-/
structure Maintains (logger : Logger) (wanted : κ → Prop) (holds : σ → Prop) : Prop where
  probes : ∀ value, Run.Keeps holds (Verdict.Within wanted) (probe logger value)
  stores : ∀ key code, wanted key → Run.Keeps holds (fun _ => True) (store logger key code)

/-- What another layer maintains is maintained by the components that stand for it there. -/
theorem Embeds.maintains {τ : Type} [Layer τ κ] {put : τ → σ} (embeds : Embeds logger put)
    (maintains : Maintains logger wanted holds)
    : Maintains logger wanted fun own : τ => holds (put own) where
  probes value := by
    intro state holding
    have kept := maintains.probes value (state.embed put) holding
    rw [embeds.probe value state] at kept
    exact kept
  stores key code wants := by
    intro state holding
    have kept := maintains.stores key code wants (state.embed put) holding
    rw [embeds.store key code state] at kept
    exact kept

/-- What follows a call keeps the invariant, as the answer is stored under a wanted key if at all.
-/
theorem Maintains.conclusion (maintains : Maintains logger wanted holds) {key : Option κ}
    (wants : ∀ entry, key = some entry → wanted entry) (answer : Except Stop Typecode)
    {answered : Hosted (σ × ω)} (kept : holds answered.own.1)
    : holds ((Run.ofExcept answer >>= keep logger key).run answered).2.own.1 := by
  cases answer with
  | error ending => exact kept
  | ok code =>
      cases key with
      | none => exact kept
      | some entry =>
          show holds ((keep logger (some entry) code).run answered).2.own.1
          rw [run_keep]
          exact (maintains.stores entry code (wants entry rfl) ⟨answered.own.1, _⟩ kept).1

/-- A classification keeps the invariant at all its moments if its resolver's work does, by cases on
the course that it takes.
-/
theorem Maintains.classify (maintains : Maintains logger wanted holds) {value : Shape}
    {resolve : Run (σ × ω) Typecode} {inside : Hosted (σ × ω) → List (Moment σ κ ω)}
    (work
      : ∀ state : Hosted (σ × ω),
          holds state.own.1
          → (∀ moment ∈ inside state, holds moment.layer) ∧ holds (resolve.run state).2.own.1)
    {state : Hosted (σ × ω)} (holding : holds state.own.1)
    : (∀ moment ∈ moments logger value resolve inside state, holds moment.layer)
      ∧ holds ((Layer.classify logger value resolve).run state).2.own.1 := by
  obtain ⟨looked, missed⟩ := maintains.probes value ⟨state.own.1, state.host⟩ holding
  have beside := Run.run_onFirst (probe logger value) state
  have course := classify_course logger value resolve state
  unfold moments
  generalize (Layer.classify logger value resolve).run state = finish at course ⊢
  cases course with
  | stopped ending probed found silent ends | told answer probed found silent ends =>
      have own : holds probed.own.1 := by
        rw [found] at beside
        rw [(Prod.mk.inj beside).2]
        exact looked
      simp only [silent, ends, List.nil_append, List.forall_mem_cons]
      exact ⟨⟨holding, own, List.forall_mem_nil _⟩, own⟩
  | called key probed answer worked found works calls ends =>
      rw [found] at beside
      obtain ⟨said, reached⟩ := Prod.mk.inj beside
      have own : holds probed.own.1 := by
        rw [reached]
        exact looked
      have wants entry (same : key = some entry) : wanted entry := by
        subst same
        exact missed _ said.symm
      obtain ⟨inner, after⟩ := work (calling key value probed) own
      rw [works] at after
      have final : holds finish.2.own.1 := by
        rw [ends]
        exact maintains.conclusion wants answer after
      simp only [calls, List.cons_append, List.append_assoc, List.nil_append,
        List.forall_mem_cons, List.forall_mem_append]
      exact ⟨⟨holding, own, inner, after, final, List.forall_mem_nil _⟩, final⟩

/-- Every stretch of a run that begins with the invariant keeps it throughout. -/
theorem Maintains.account (maintains : Maintains logger wanted holds)
    : Procedure.Account logger fun before (moments : List (Moment σ κ ω)) after =>
        holds before → (∀ moment ∈ moments, holds moment.layer) ∧ holds after where
  idle _ holding := ⟨List.forall_mem_nil _, holding⟩
  append _ _ _ _ _ left right holding :=
    have first := left holding
    have second := right first.2
    ⟨List.forall_mem_append.mpr ⟨first.1, second.1⟩, second.2⟩
  classify _ _ _ work _ holding := maintains.classify work holding

/-- The layer's states at all moments of programs that are carried out one after the other, and the
state after them.
-/
def statesOf (logger : Logger) (programs : List (Procedure ω)) (start : Hosted (σ × ω)) : List σ :=
  (Procedure.momentsAll logger programs start).map Moment.layer
    ++ [(Procedure.runAll logger programs start).own.1]

theorem Maintains.statesOf (maintains : Maintains logger wanted holds)
    (programs : List (Procedure ω)) {start : Hosted (σ × ω)} (holding : holds start.own.1)
    : ∀ state ∈ statesOf logger programs start, holds state := by
  obtain ⟨inside, final⟩ := maintains.account.procedures programs start holding
  simp only [Layer.statesOf, List.forall_mem_append, List.forall_mem_map,
    List.forall_mem_singleton]
  exact ⟨inside, final⟩

end Layer

-----------------------------------------------------------------------------------------
-- Tables have codes under fingerprints only
-----------------------------------------------------------------------------------------

namespace FingerprintTable

/-- Whatever has a code in the table is the text of an outline. -/
def Printed (table : FingerprintTable) : Prop :=
  ∀ bytes code, table.get? bytes = some code → bytes ∈ Outline.texts

theorem printed_empty : empty.Printed := by
  intro bytes code stored
  cases Std.HashMap.getElem?_empty.symm.trans stored

/-- One more code under a text. -/
theorem Printed.insert {table : FingerprintTable} (printed : table.Printed) {bytes : Bytes}
    (member : bytes ∈ Outline.texts) (code : Typecode)
    : Printed { table with entries := table.entries.insert bytes code } := by
  intro other stored found
  by_cases same : other = bytes
  · exact same ▸ member
  · have elsewhere : (table.entries.insert bytes code)[other]? = table.entries[other]? := by
      rw [Std.HashMap.getElem?_insert]
      simp [Ne.symm same]
    exact printed other stored (elsewhere.symm.trans found)

theorem lock_keeps {holds : FingerprintTable → Prop} (logger : Logger)
    : Run.Keeps holds (fun _ => True) (lock logger) :=
  .ofUnchanged (lock_own logger) fun _ _ _ => trivial

theorem lookup_keeps {holds : FingerprintTable → Prop} (logger : Logger) (bytes : Bytes)
    : Run.Keeps holds (fun _ => True) (lookup logger bytes) :=
  (lock_keeps logger).next fun _ _ => Run.Keeps.ofOwn.next fun _ _ => .ofPure trivial

theorem logInside_keeps (logger : Logger) (line : LogLine)
    : Run.Keeps Printed (fun _ => True) (logInside logger line) :=
  (Run.Keeps.ofLog logger line).onStop fun _ printed => printed

/-- The bytes have no code in the table, and looking them up answers so. -/
def Lacks (table : FingerprintTable) (bytes : Bytes) : Prop :=
  table.get? bytes = none
  ∧ ∀ (logger : Logger) (host : Host),
      logger.panicsAfter .recovered = false
      → ((lookup logger bytes).run ⟨table, host⟩).1 = .ok none

theorem Printed.lacks {table : FingerprintTable} (printed : table.Printed) {bytes : Bytes}
    (foreign : bytes ∉ Outline.texts)
    : table.Lacks bytes := by
  have vacant : table.get? bytes = none := by
    cases stored : table.get? bytes with
    | none => rfl
    | some code => exact absurd (printed bytes code stored) foreign
  refine ⟨vacant, ?_⟩
  intro logger host silent
  have locked : ((lock logger).run ⟨table, host⟩).1 = .ok () := by
    rw [lock, Run.run_bind_ok _ (Run.run_own _)]
    cases table.poisoned <;> simp [Run.run_log, silent]
  have kept := lock_own logger ⟨table, host⟩
  rw [lookup, Run.run_bind_ok _ (Run.run_of_outcome locked)]
  simp only [Run.run_bind, Run.run_own, Run.run_pure, kept, vacant]

end FingerprintTable

namespace Dispatcher

/-- A place that may be stored at: one in the grid, or one in the table under a text. -/
def Printable : Place → Prop :=
  Sum.elim (· ∈ Outline.texts) fun _ => True

theorem onGrid_keeps {α : Type} (work : Run ArrayGrid α)
    : Run.Keeps (fun dispatcher : Dispatcher => dispatcher.table.Printed) (fun _ => True)
        (onGrid work) :=
  fun _ printed => ⟨printed, fun _ _ => trivial⟩

end Dispatcher

end Typecodes
