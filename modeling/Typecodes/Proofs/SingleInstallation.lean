import Typecodes.Dispatcher.Installation
import Typecodes.Proofs.ElementaryTable
import Typecodes.Proofs.LayerEmbeddings

/-! The life of the process-wide dispatcher. Until a complete list of names is announced, every use
is refused and nothing happens. The first complete list puts a new dispatcher in place, and from
then on everything goes as on that one dispatcher, which no later list touches.
-/

namespace Typecodes

namespace ElementaryCodes

-----------------------------------------------------------------------------------------
-- Complete lists of names
-----------------------------------------------------------------------------------------

/-- Every elementary name stands for a typecode. -/
def Complete (names : List (String × Typecode)) : Prop :=
  ∀ kind : ElementaryKind, ∃ code, named? names kind.name = some code

/-- The first kind, in table order, whose name stands for nothing. -/
def firstMissing? (names : List (String × Typecode)) : Option ElementaryKind :=
  ElementaryKind.all.find? fun kind => (named? names kind.name).isNone

theorem firstMissing?_eq_none {names : List (String × Typecode)}
    : firstMissing? names = none ↔ Complete names := by
  simp [firstMissing?, Complete, List.find?_eq_none, ElementaryKind.mem_all,
    Option.ne_none_iff_exists']

/-- The table is filled unless a name stands for nothing; then the first such name is the failure.
Witness: induction over the kinds, as each is asked for only after those before it.
-/
theorem fill_cases (lookup : String → Option Typecode) (kinds : List ElementaryKind)
    (table : Vector Typecode ElementaryKind.count)
    : (∀ kind,
        kinds.find? (fun kind => (lookup kind.name).isNone) = some kind
        → fill (m := Id) (fun name => pure (lookup name)) kinds table
          = .error (.missingElementary kind.name))
      ∧ (kinds.find? (fun kind => (lookup kind.name).isNone) = none
        → ∃ filled, fill (m := Id) (fun name => pure (lookup name)) kinds table = .ok filled) := by
  induction kinds generalizing table with
  | nil => exact ⟨nofun, fun _ => ⟨table, rfl⟩⟩
  | cons first rest ih =>
      cases found : lookup first.name with
      | none =>
          have stopped : fill (m := Id) (fun name => pure (lookup name)) (first :: rest) table
              = .error (.missingElementary first.name) := by
            simp only [fill, found]
            rfl
          simp [found, stopped]
      | some code =>
          have entered : fill (m := Id) (fun name => pure (lookup name)) (first :: rest) table
              = fill (m := Id) (fun name => pure (lookup name)) rest
                (table.set first.index code) := by
            simp only [fill, found]
            rfl
          simpa [found, entered] using ih (table.set first.index code)

theorem ofNames_of_missing {names : List (String × Typecode)} {kind : ElementaryKind}
    (missing : firstMissing? names = some kind)
    : ofNames names = .error (.missingElementary kind.name) :=
  congrArg (Except.map _) ((fill_cases (named? names) _ _).1 kind missing)

theorem Complete.ofNames {names : List (String × Typecode)} (complete : Complete names)
    : ∃ elementary, ofNames names = .ok elementary := by
  obtain ⟨filled, entered⟩ := (fill_cases (named? names) _ (Vector.replicate _ .zero)).2
    (firstMissing?_eq_none.mpr complete)
  exact ⟨_, congrArg (Except.map _) entered⟩

end ElementaryCodes

namespace Installation

open ElementaryCodes

variable {ω : Type} {logger : Logger}

-----------------------------------------------------------------------------------------
-- Uses of the process-wide dispatcher
-----------------------------------------------------------------------------------------

/-- What may be done at the place of the process-wide dispatcher. -/
inductive Use (ω : Type) : Type 1 where
  /-- Names are announced, to put a dispatcher in place. -/
  | install (names : List (String × Typecode))
  /-- The dispatcher in place is asked for. -/
  | dispatcher
  /-- A value is classified by the dispatcher in place, with a resolver that may have the same
  dispatcher classify further values.
  -/
  | classify (value : Shape) (resolver : Resolver ω)

/-- What a use that succeeds answers. -/
inductive Answer where
  | dispatcher (current : Dispatcher)
  | code (code : Option Typecode)

/-- Why announced names are refused: for the first name that they lack, and if they lack none,
because a dispatcher is in place.
-/
def refusal (names : List (String × Typecode)) : Failure :=
  match firstMissing? names with
  | some kind => .missingElementary kind.name
  | none => .alreadyInitialized

namespace Use

/-- Carries a use out. -/
def perform (logger : Logger) : Use ω → Run (Installation × ω) Answer
  | install names => .dispatcher <$> Run.onFirst (Installation.install names)
  | dispatcher => .dispatcher <$> Run.onFirst Installation.dispatcher
  | classify value resolver => .code <$> resolver.classify logger value

/-- Whether a use announces a complete list of names. -/
def Completes : Use ω → Prop
  | install names => Complete names
  | dispatcher | classify _ _ => False

/-- Why a use fails where no dispatcher is in place and none is put there. -/
def failureBefore : Use ω → Failure
  | install names => refusal names
  | dispatcher | classify _ _ => .notInitialized

/-- What a use comes to once a dispatcher is in place. Names are refused and change nothing. -/
def performOn (logger : Logger) : Use ω → Run (Dispatcher × ω) Answer
  | install names => Run.fail (refusal names)
  | dispatcher => return .dispatcher (← Run.own).1
  | classify value resolver => .code <$> resolver.classify logger value

/-- Carries uses out one after the other, whatever the outcomes, and lists the outcome and the state
after each.
-/
def performAll (logger : Logger) (uses : List (Use ω)) (start : Hosted (Installation × ω))
    : List (Except Stop Answer × Hosted (Installation × ω)) :=
  Run.each id (uses.map (perform logger)) start

/-- The same on a dispatcher. -/
def performAllOn (logger : Logger) (uses : List (Use ω)) (start : Hosted (Dispatcher × ω))
    : List (Except Stop Answer × Hosted (Dispatcher × ω)) :=
  Run.each id (uses.map (performOn logger)) start

end Use

-----------------------------------------------------------------------------------------
-- A dispatcher in place works as it would on its own
-----------------------------------------------------------------------------------------

/-- A state with the dispatcher put in place. -/
def installed (state : Hosted (Dispatcher × ω)) : Hosted (Installation × ω) :=
  ⟨(⟨some state.own.1⟩, state.own.2), state.host⟩

/-- Look-ups and stores at the place go as on the dispatcher that is there. -/
theorem embeds (logger : Logger)
    : Layer.Embeds logger (fun dispatcher : Dispatcher => Installation.mk (some dispatcher)) where
  key _ := rfl
  probe _ _ := rfl
  store _ _ _ := rfl

-----------------------------------------------------------------------------------------
-- One use
-----------------------------------------------------------------------------------------

/-- Incomplete names are refused for the first one that is missing, whatever is in place. -/
theorem run_install_of_missing {names : List (String × Typecode)} {kind : ElementaryKind}
    (missing : firstMissing? names = some kind) (state : Hosted Installation)
    : (install names).run state = (.error (.failure (.missingElementary kind.name)), state) := by
  rw [install, ofNames_of_missing missing]
  rfl

/-- Where a dispatcher is in place, every list of names is refused and nothing changes. -/
theorem run_install_of_installed (names : List (String × Typecode)) (current : Dispatcher)
    (host : Host)
    : (install names).run ⟨⟨some current⟩, host⟩
      = (.error (.failure (refusal names)), ⟨⟨some current⟩, host⟩) := by
  rw [refusal]
  cases missing : firstMissing? names with
  | some kind => exact run_install_of_missing missing _
  | none =>
      obtain ⟨elementary, made⟩ := (firstMissing?_eq_none.mp missing).ofNames
      rw [install, made]
      rfl

/-- The first complete names put a new dispatcher in place, which holds under each kind what its
name stands for.
-/
theorem run_install_of_complete {names : List (String × Typecode)} (complete : Complete names)
    (host : Host)
    : ∃ elementary,
        ofNames names = .ok elementary
        ∧ (install names).run ⟨vacant, host⟩
          = (.ok (.ofCodes elementary), ⟨⟨some (.ofCodes elementary)⟩, host⟩) := by
  obtain ⟨elementary, made⟩ := complete.ofNames
  refine ⟨elementary, made, ?_⟩
  rw [install, made]
  rfl

namespace Use

/-- Once a dispatcher is in place, a use comes to what it is on that dispatcher. -/
theorem perform_installed (logger : Logger) (use : Use ω) (state : Hosted (Dispatcher × ω))
    : (use.perform logger).run (installed state)
      = (((use.performOn logger).run state).1, installed ((use.performOn logger).run state).2) := by
  cases use with
  | install names =>
      rw [perform, Run.run_map, Run.run_onFirst]
      dsimp only [installed]
      rw [run_install_of_installed]
      rfl
  | dispatcher => rfl
  | classify value resolver =>
      exact (((embeds logger).classify value ((embeds logger).procedure (resolver value))).map _)
        state

/-- Where no dispatcher is in place, a use that puts none there fails and does nothing at all. -/
theorem perform_before (logger : Logger) {use : Use ω} (early : ¬use.Completes) (resolver : ω)
    (host : Host)
    : (use.perform logger).run ⟨(vacant, resolver), host⟩
      = (.error (.failure use.failureBefore), ⟨(vacant, resolver), host⟩) := by
  cases use with
  | install names =>
      rw [perform, Run.run_map, Run.run_onFirst, failureBefore, refusal]
      cases missing : firstMissing? names with
      | some kind =>
          rw [run_install_of_missing missing]
          rfl
      | none => exact absurd (firstMissing?_eq_none.mp missing) early
  | dispatcher => rfl
  | classify value resolver => rfl

-----------------------------------------------------------------------------------------
-- Uses in a row
-----------------------------------------------------------------------------------------

/-- Uses that put no dispatcher in place fail one after the other, by induction over them, and those
after them find everything as it was.
-/
theorem performAll_before (logger : Logger) {early : List (Use ω)}
    (incomplete : ∀ use ∈ early, ¬use.Completes) (later : List (Use ω)) (resolver : ω) (host : Host)
    : performAll logger (early ++ later) ⟨(vacant, resolver), host⟩
      = early.map (fun use =>
          (.error (.failure use.failureBefore), ⟨(vacant, resolver), host⟩))
        ++ performAll logger later ⟨(vacant, resolver), host⟩ := by
  induction early with
  | nil => rfl
  | cons use rest ih =>
      obtain ⟨here, others⟩ := List.forall_mem_cons.mp incomplete
      have failed := perform_before logger here resolver host
      have following := ih others
      simp only [performAll, List.cons_append, List.map_cons, Run.each, id_eq] at following ⊢
      rw [failed, following]

/-- Once a dispatcher is in place, uses come to what they are on it, by induction over them. -/
theorem performAll_installed (logger : Logger) (uses : List (Use ω))
    (state : Hosted (Dispatcher × ω))
    : performAll logger uses (installed state)
      = (performAllOn logger uses state).map fun finish => (finish.1, installed finish.2) := by
  induction uses generalizing state with
  | nil => rfl
  | cons use rest ih =>
      have lifted := perform_installed logger use state
      have following := ih ((use.performOn logger).run state).2
      simp only [performAll, performAllOn, List.map_cons, Run.each, id_eq] at following ⊢
      rw [lifted, following]

end Use

/-- How uses go on from where no dispatcher is in place. -/
structure Lifetime (logger : Logger) (uses : List (Use ω)) (resolver : ω) (host : Host) : Prop where
  /-- Unless a complete list of names is announced, every use fails: an announcement for the first
  name that it lacks and any other use because no dispatcher is in place. Nothing happens to the
  host, no resolver is called, and no dispatcher is ever in place.
  -/
  before
    : (∀ use ∈ uses, ¬use.Completes)
      → Use.performAll logger uses ⟨(vacant, resolver), host⟩
        = uses.map fun use => (.error (.failure use.failureBefore), ⟨(vacant, resolver), host⟩)
  /-- The first complete list succeeds. It puts a dispatcher in place that has nothing stored and
  holds under each kind what its name stands for, and for pointer-sized integers what `int64` stands
  for. Whatever comes later goes as on this one dispatcher, where all announcements are refused.
  -/
  since
    : ∀ early names later,
        uses = early ++ .install names :: later
        → (∀ use ∈ early, ¬use.Completes)
        → Complete names
        → ∃ elementary,
            (∀ kind : ElementaryKind, named? names kind.name = some (elementary.get kind))
            ∧ named? names "int64" = some elementary.pointerSized
            ∧ let current : Dispatcher := ⟨elementary, .empty, .empty⟩
              let start : Hosted (Dispatcher × ω) := ⟨(current, resolver), host⟩
              Use.performAll logger uses ⟨(vacant, resolver), host⟩
                = early.map (fun use =>
                    (.error (.failure use.failureBefore), ⟨(vacant, resolver), host⟩))
                  ++ (.ok (.dispatcher current), installed start)
                  :: (Use.performAllOn logger later start).map fun finish =>
                      (finish.1, installed finish.2)

/-- The process-wide dispatcher is put in place exactly once, by the first complete list of names,
whatever is done before and after and in whatever order.
-/
theorem installed_once (logger : Logger) (uses : List (Use ω)) (resolver : ω) (host : Host)
    : Lifetime logger uses resolver host where
  before incomplete := by
    have failed := Use.performAll_before logger incomplete [] resolver host
    rw [List.append_nil] at failed
    rw [failed]
    exact List.append_nil _
  since early names later same incomplete complete := by
    obtain ⟨elementary, made, ran⟩ := run_install_of_complete complete host
    obtain ⟨entered, pointerSized⟩ := ofNames_eq_ok made
    refine ⟨elementary, entered, ?_, ?_⟩
    · rw [pointerSized]
      exact entered .int64
    · intro current start
      have put : ((Use.install names : Use ω).perform logger).run ⟨(vacant, resolver), host⟩
          = (.ok (.dispatcher current), installed start) := by
        rw [Use.perform, Run.run_map, Run.run_onFirst, ran]
        rfl
      rw [same, Use.performAll_before logger incomplete, ← Use.performAll_installed]
      simp only [Use.performAll, List.map_cons, Run.each, id_eq, put]

/-- A list without `complex64` is refused before and after a whole one comes, a second whole one for
another reason, and the value that is classified in between keeps its code.
-/
example
    : let names : List (String × Typecode) :=
        ElementaryKind.all.map fun kind => (kind.name, ⟨Fin.ofNat _ kind.index.val⟩)
      let lacking := names.filter fun entry => entry.1 ≠ "complex64"
      let float (code : Typecode) : Use Unit := .classify .float fun _ => .done (.ok code)
      let uses :=
        [float ⟨7⟩, .install lacking, .install names, float ⟨8⟩, .install names, .install lacking,
          float ⟨9⟩]
      (Use.performAll .steady uses ⟨(vacant, ()), .fresh⟩).map
          (fun finish => finish.1.map fun answer =>
            match answer with
            | .code code => code
            | .dispatcher _ => none)
        = [.error (.failure .notInitialized), .error (.failure (.missingElementary "complex64")),
          .ok none, .ok (some ⟨8⟩), .error (.failure .alreadyInitialized),
          .error (.failure (.missingElementary "complex64")), .ok (some ⟨8⟩)] := by
  cbv

end Installation

end Typecodes
