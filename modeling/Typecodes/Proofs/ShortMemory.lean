import Typecodes.Proofs.LayerInvariants

/-! Fingerprints, tables and dispatchers where memory may run short. Every step for which memory is
asked can be refused it, and then the run fails there. With memory for all requests everything goes
as without this; and whatever the refusals, tables have codes under fingerprints only.
-/

namespace Typecodes

variable {σ α : Type}

-----------------------------------------------------------------------------------------
-- Memory by requests
-----------------------------------------------------------------------------------------

/-- A component together with whether memory is granted, for every request to come. -/
structure Rationed (σ : Type) where
  own : σ
  grants : Nat → Bool

namespace Rationed

/-- A component with memory for all requests. -/
def ample (own : σ) : Rationed σ :=
  ⟨own, fun _ => true⟩

/-- Asks for memory, for the work that the context names. -/
def request (context : String) : Run (Rationed σ) Unit := do
  let state ← Run.own
  Run.setOwn ⟨state.own, fun later => state.grants (later + 1)⟩
  unless state.grants 0 do Run.fail (.outOfMemory context)

/-- Runs on the component, without a request. -/
def onOwn (work : Run σ α) : Run (Rationed σ) α :=
  Run.within own (fun state next => ⟨next, state.grants⟩) work

/-- Appends bytes once there is room for them. Where the room in place is enough, the request is one
of those that are granted.
-/
def append (bytes : Bytes) : Run (Rationed Writer) Unit := do
  request "growing a fingerprint buffer"
  onOwn (Run.change fun writer => writer.append bytes)

/-- The fingerprint of a shape, if there is room for all of it. -/
def fingerprint (value : Shape) : Run (Rationed σ) Bytes :=
  Run.within (fun state => ⟨Writer.empty, state.grants⟩)
    (fun state written => ⟨state.own, written.grants⟩) do
      value.encodeTo append
      return (← Run.own).own.bytes.toList

-----------------------------------------------------------------------------------------
-- Tables and dispatchers
-----------------------------------------------------------------------------------------

/-- Looks a value up by its fingerprint. -/
def probe (logger : Logger) (value : Shape) : Run (Rationed FingerprintTable) (Verdict Bytes) := do
  match ← Run.attempt (fingerprint value) with
  | .ok bytes =>
      match ← onOwn (FingerprintTable.lookup logger bytes) with
      | some code => return .known code
      | none => return .missing bytes
  | .error cause => do
      if cause.isUnrecognized then
        Run.log logger (.uncached cause)
        return .uncached
      else
        Run.fail cause

/-- Stores a code under a byte string, of which a copy is made first, unless one is stored there
already, and returns the code stored in the end. Another entry needs memory once more.
-/
def insert (logger : Logger) (bytes : Bytes) (code : Typecode)
    : Run (Rationed FingerprintTable) Typecode := do
  request "inserting into the fingerprint cache"
  onOwn (FingerprintTable.lock logger)
  match (← Run.own).own.get? bytes with
  | some stored => do
      if stored ≠ code then
        onOwn (FingerprintTable.logInside logger (.conflict bytes stored code))
      return stored
  | none => do
      request "inserting into the fingerprint cache"
      onOwn (FingerprintTable.logInside logger (.caching bytes code))
      onOwn (Run.change fun table => { table with entries := table.entries.insert bytes code })
      return code

instance : Layer (Rationed FingerprintTable) Bytes where
  key := Key.fingerprint
  probe
  store := insert

/-- Runs on the fingerprint table of a dispatcher. -/
def onTable (run : Run (Rationed FingerprintTable) α) : Run (Rationed Dispatcher) α :=
  Run.within (fun state => ⟨state.own.table, state.grants⟩)
    (fun state next => ⟨{ state.own with table := next.own }, next.grants⟩) run

instance : Layer (Rationed Dispatcher) Dispatcher.Place where
  key := Sum.elim Key.fingerprint Key.slot
  probe logger value := do
    match ← onOwn (Dispatcher.onGrid (ArrayGrid.probe value)) with
    | .known code => return .known code
    | .uncached => return .uncached
    | .missing slot => return .missing (.inr slot)
    | .unserved =>
        match ← onTable (probe logger value) with
        | .known code => return .known code
        | .uncached => return .uncached
        | .missing bytes => return .missing (.inl bytes)
        | .unserved => return .unserved
  store logger place code :=
    match place with
    | .inl bytes => onTable (insert logger bytes code)
    | .inr slot => onOwn (Dispatcher.onGrid (ArrayGrid.fill logger slot code))

end Rationed

-----------------------------------------------------------------------------------------
-- With memory for all requests
-----------------------------------------------------------------------------------------

section Writing

variable {τ : Type} {put : σ → τ} {write : Bytes → Run τ Unit} {writeOn : Bytes → Run σ Unit}

theorem ElementType.encodeTo_lifts (writes : ∀ bytes, Run.Lifts put (write bytes) (writeOn bytes))
    (element : ElementType)
    : Run.Lifts put (element.encodeTo write) (element.encodeTo writeOn) := by
  cases element with
  | scalar kind => exact writes _
  | structured layout => exact (writes _).next fun _ => writes _
  | datetime step | timedelta step =>
      exact (writes _).next fun _ => (writes _).next fun _ => writes _
  | object | string | unicode => exact .ofStop _

namespace Shape

mutual

/-- If single writes go as on the component itself, so does the writing of a shape, by structural
induction over it.
-/
theorem encodeTo_lifts (writes : ∀ bytes, Run.Lifts put (write bytes) (writeOn bytes))
    (value : Shape)
    : Run.Lifts put (value.encodeTo write) (value.encodeTo writeOn) := by
  cases value with
  | none | bool | int | float | complex | bytes | byteArray => exact writes _
  | tuple items =>
      exact (writes _).next fun _ => (encodeAllTo_lifts writes items).next fun _ => writes _
  | scalar element | descriptor element =>
      exact (writes _).next fun _ => element.encodeTo_lifts writes
  | array shape =>
      exact (writes _).next fun _ => (writes _).next fun _ => (writes _).next fun _ =>
        (writes _).next fun _ => shape.element.encodeTo_lifts writes
  | buffer exporter =>
      exact .withView fun view =>
        (writes _).next fun _ => (writes _).next fun _ => (writes _).next fun _ =>
          (writes _).next fun _ => (writes _).next fun _ => writes _
  | foreign runtimeType => exact .ofStop _

theorem encodeAllTo_lifts (writes : ∀ bytes, Run.Lifts put (write bytes) (writeOn bytes))
    (items : List Shape)
    : Run.Lifts put (encodeAllTo write items) (encodeAllTo writeOn items) := by
  cases items with
  | nil => exact .ofPure _
  | cons item rest =>
      exact (encodeTo_lifts writes item).next fun _ => encodeAllTo_lifts writes rest

end

end Shape

end Writing

namespace Rationed

theorem run_request (context : String) (state : Hosted (Rationed σ))
    : (request context).run state
      = (if state.own.grants 0 then .ok () else .error (.failure (.outOfMemory context)),
        ⟨⟨state.own.own, fun later => state.own.grants (later + 1)⟩, state.host⟩) := by
  cases granted : state.own.grants 0 <;> simp [request, Run.run_bind, granted]

/-- A request that is granted is nothing more. -/
theorem request_lifts (context : String) {work : Run (Rationed σ) α} {on : Run σ α}
    (lifts : Run.Lifts ample work on)
    : Run.Lifts ample (do request context; work) on :=
  fun state => lifts state

theorem onOwn_lifts (work : Run σ α) : Run.Lifts ample (onOwn work) work :=
  fun _ => rfl

theorem append_lifts (bytes : Bytes)
    : Run.Lifts ample (append bytes) (Run.change fun writer => writer.append bytes) :=
  request_lifts _ (onOwn_lifts _)

/-- With memory for all requests, the fingerprint is what it is without them. -/
theorem fingerprint_lifts (value : Shape)
    : Run.Lifts (ample (σ := σ)) (fingerprint value) value.fingerprint := by
  intro state
  have written
      : Run.Lifts ample
          (do
            value.encodeTo append
            return (← Run.own).own.bytes.toList)
          (do
            Writer.put value
            return (← Run.own).bytes.toList) := by
    rw [Writer.put_eq_encodeTo]
    exact (value.encodeTo_lifts append_lifts).next fun _ => .withOwn fun _ => .ofPure _
  let kept (finish : Except Stop Bytes × Hosted (Rationed Writer)) :=
    (finish.1, Hosted.mk (Rationed.mk state.own finish.2.own.grants) finish.2.host)
  exact congrArg kept (written ⟨Writer.empty, state.host⟩)

/-- With memory for all requests, a table works as it does without them. -/
theorem table_embeds (logger : Logger)
    : Layer.Embeds logger (ample (σ := FingerprintTable)) where
  key _ := rfl
  probe value := by
    refine (fingerprint_lifts value).attempt.next fun shown => ?_
    cases shown with
    | ok bytes =>
        refine (onOwn_lifts _).next fun found => ?_
        cases found with
        | some code => exact .ofPure _
        | none => exact .ofPure _
    | error cause =>
        dsimp only
        split
        · exact (Run.Lifts.ofLog logger _).next fun _ => .ofPure _
        · exact .ofStop _
  store bytes code := by
    refine request_lifts _ ((onOwn_lifts _).next fun _ => .withOwn fun table => ?_)
    dsimp only [ample]
    cases table.get? bytes with
    | some stored =>
        dsimp only
        split
        · exact (onOwn_lifts _).next fun _ => .ofPure _
        · exact .ofPure _
    | none =>
        exact request_lifts _ ((onOwn_lifts _).next fun _ => (onOwn_lifts _).next fun _ =>
          .ofPure _)

theorem onTable_lifts {work : Run (Rationed FingerprintTable) α} {on : Run FingerprintTable α}
    (lifts : Run.Lifts ample work on)
    : Run.Lifts ample (onTable work) (Dispatcher.onTable on) := by
  intro state
  let kept (finish : Except Stop α × Hosted (Rationed FingerprintTable)) :=
    (finish.1, Hosted.mk
      (Rationed.mk { state.own with table := finish.2.own.own } finish.2.own.grants) finish.2.host)
  exact congrArg kept (lifts ⟨state.own.table, state.host⟩)

/-- With memory for all requests, a dispatcher works as it does without them. -/
theorem dispatcher_embeds (logger : Logger)
    : Layer.Embeds logger (ample (σ := Dispatcher)) where
  key _ := rfl
  probe value := by
    refine (onOwn_lifts (Dispatcher.onGrid (ArrayGrid.probe value))).next fun verdict => ?_
    cases verdict with
    | known _ | uncached | missing _ => exact .ofPure _
    | unserved =>
        refine (onTable_lifts ((table_embeds logger).probe value)).next fun verdict => ?_
        cases verdict <;> exact .ofPure _
  store place code := by
    cases place with
    | inl bytes => exact onTable_lifts ((table_embeds logger).store bytes code)
    | inr slot => exact onOwn_lifts (Dispatcher.onGrid (ArrayGrid.fill logger slot code))

-----------------------------------------------------------------------------------------
-- Whatever the refusals
-----------------------------------------------------------------------------------------

/-- Room is made for all of the bytes before the first one is appended. -/
theorem run_append (bytes : Bytes) (state : Hosted (Rationed Writer))
    : (append bytes).run state
      = if state.own.grants 0 then
          (.ok (),
            ⟨⟨state.own.own.append bytes, fun later => state.own.grants (later + 1)⟩, state.host⟩)
        else
          (.error (.failure (.outOfMemory "growing a fingerprint buffer")),
            ⟨⟨state.own.own, fun later => state.own.grants (later + 1)⟩, state.host⟩) := by
  rw [append, Run.run_bind, run_request]
  cases state.own.grants 0 <;> rfl

theorem append_wholeOrNothing
    : WholeOrNothing (fun state : Rationed Writer => state.own.bytes.toList) append where
  appended := by
    intro bytes state after written
    rw [run_append] at written
    split at written <;> cases written
    exact Writer.toList_append _ _
  withheld := by
    intro bytes state ending after stopped
    rw [run_append] at stopped
    split at stopped <;> cases stopped
    rfl

variable {holds : σ → Prop} {expected : α → Prop}

theorem request_keeps (context : String)
    : Run.Keeps (fun state : Rationed σ => holds state.own) (fun _ => True) (request context) := by
  intro state holding
  rw [run_request]
  exact ⟨holding, fun _ _ => trivial⟩

theorem onOwn_keeps {work : Run σ α} (inside : Run.Keeps holds expected work)
    : Run.Keeps (fun state : Rationed σ => holds state.own) expected (onOwn work) :=
  inside.within (fun _ holding => holding) fun _ _ _ holding => holding

/-- Where there is room for all of it, a fingerprint is a text. -/
theorem fingerprint_keeps (value : Shape)
    : Run.Keeps (fun state : Rationed σ => holds state.own) (· ∈ Outline.texts)
        (fingerprint value) := by
  intro state holding
  refine ⟨holding, ?_⟩
  intro bytes printed
  rw [fingerprint, Run.run_within, Run.run_bind] at printed
  cases written : (value.encodeTo append).run ⟨⟨Writer.empty, state.own.grants⟩, state.host⟩ with
  | mk outcome after =>
      rw [written] at printed
      cases outcome with
      | error ending => cases printed
      | ok _ =>
          cases printed
          exact Shape.mem_texts_of_written append_wholeOrNothing rfl written

/-- Tables have codes under fingerprints only. -/
theorem table_maintains_printed (logger : Logger)
    : Layer.Maintains logger (· ∈ Outline.texts) fun state : Rationed FingerprintTable =>
        state.own.Printed where
  probes value := by
    refine (fingerprint_keeps value).attempt.next fun shown member => ?_
    cases shown with
    | ok bytes =>
        refine (onOwn_keeps (FingerprintTable.lookup_keeps logger bytes)).next fun found _ => ?_
        cases found with
        | some code => exact .ofPure trivial
        | none => exact .ofPure (member bytes rfl)
    | error cause =>
        dsimp only
        split
        · exact (Run.Keeps.ofLog logger _).next fun _ _ => .ofPure trivial
        · exact .ofFail cause
  stores bytes code member := by
    refine (request_keeps _).next fun _ _ =>
      (onOwn_keeps (FingerprintTable.lock_keeps logger)).next fun _ _ =>
        Run.Keeps.ofOwn.next fun state printed => ?_
    cases state.own.get? bytes with
    | some stored =>
        dsimp only
        split
        · exact (onOwn_keeps (FingerprintTable.logInside_keeps logger _)).next fun _ _ =>
            .ofPure trivial
        · exact .ofPure trivial
    | none =>
        have entered := Run.Keeps.ofChange fun table (printed : FingerprintTable.Printed table) =>
          printed.insert member code
        exact (request_keeps _).next fun _ _ =>
          (onOwn_keeps (FingerprintTable.logInside_keeps logger _)).next fun _ _ =>
            (onOwn_keeps entered).next fun _ _ => .ofPure trivial

theorem onTable_keeps {work : Run (Rationed FingerprintTable) α}
    (inside
      : Run.Keeps (fun state : Rationed FingerprintTable => state.own.Printed) expected work)
    : Run.Keeps (fun state : Rationed Dispatcher => state.own.table.Printed) expected
        (onTable work) :=
  inside.within (fun _ printed => printed) fun _ _ _ printed => printed

theorem dispatcher_maintains_printed (logger : Logger)
    : Layer.Maintains logger Dispatcher.Printable fun state : Rationed Dispatcher =>
        state.own.table.Printed where
  probes value := by
    have inTable := (table_maintains_printed logger).probes value
    refine (onOwn_keeps (Dispatcher.onGrid_keeps (ArrayGrid.probe value))).next
      fun verdict _ => ?_
    cases verdict with
    | known _ | uncached | missing _ => exact .ofPure trivial
    | unserved =>
        refine (onTable_keeps inTable).next fun verdict member => ?_
        cases verdict with
        | known _ | uncached | unserved => exact .ofPure trivial
        | missing bytes => exact .ofPure member
  stores place code printable := by
    cases place with
    | inl bytes =>
        exact onTable_keeps ((table_maintains_printed logger).stores bytes code printable)
    | inr slot => exact onOwn_keeps (Dispatcher.onGrid_keeps (ArrayGrid.fill logger slot code))

end Rationed

/-- Tables with memory for all requests have codes under fingerprints only, as those without it. -/
theorem FingerprintTable.maintains_printed (logger : Logger)
    : Layer.Maintains logger (· ∈ Outline.texts) FingerprintTable.Printed :=
  (Rationed.table_embeds logger).maintains (Rationed.table_maintains_printed logger)

theorem Dispatcher.maintains_printed (logger : Logger)
    : Layer.Maintains logger Printable fun dispatcher : Dispatcher => dispatcher.table.Printed :=
  (Rationed.dispatcher_embeds logger).maintains (Rationed.dispatcher_maintains_printed logger)

end Typecodes
