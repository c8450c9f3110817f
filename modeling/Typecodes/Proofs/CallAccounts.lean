import Mathlib
import Typecodes.Proofs.CallMarks

/-! The accounts of the resolver calls that a dispatcher makes, one classification after the other.
For each fingerprint the resolver succeeds at most once, and it is not called again after that. The
codes that are stored are as many as the fingerprints that were classified, in both layers together.
-/

namespace Typecodes

namespace Dispatcher

variable {ω : Type} {logger : Logger}

-----------------------------------------------------------------------------------------
-- The ledger
-----------------------------------------------------------------------------------------

/-- The number of codes that are stored in both layers together. -/
def stored (dispatcher : Dispatcher) : Nat :=
  dispatcher.table.size + dispatcher.grid.populated

/-- One classification in a ledger. Its host had no notes before it, so the notes after it are its
own.
-/
structure Entry (ω : Type) where
  value : Shape
  before : Hosted (Dispatcher × ω)
  finish : Except Stop (Option Typecode) × Hosted (Dispatcher × ω)

namespace Entry

/-- What the classification returned. -/
abbrev outcome (entry : Entry ω) : Except Stop (Option Typecode) :=
  entry.finish.1

/-- The state after the classification. -/
abbrev after (entry : Entry ω) : Hosted (Dispatcher × ω) :=
  entry.finish.2

/-- The fingerprint that the value had when it was classified. -/
def fingerprint? (entry : Entry ω) : Option Bytes :=
  (entry.value.fingerprint.run entry.before).1.toOption

/-- The values on which the resolver was called. -/
def calls (entry : Entry ω) : List Shape :=
  entry.after.host.calls

/-- What the resolver answered to the calls. -/
def answers (entry : Entry ω) : List (Except Stop Typecode) :=
  entry.after.host.answers

/-- The fingerprint that was classified, unless the classification stopped. -/
def classified? (entry : Entry ω) : Option Bytes :=
  if entry.outcome.isOk then entry.fingerprint? else none

end Entry

/-- The classifications of values one after the other. -/
def ledger (logger : Logger) (answer : Shape → Run ω Typecode)
    : List Shape → Hosted (Dispatcher × ω) → List (Entry ω)
  | [], _ => []
  | value :: rest, state =>
      let before : Hosted (Dispatcher × ω) := ⟨state.own, state.host.rested⟩
      let finish := (Resolver.classify logger (.ofRun answer) value).run before
      ⟨value, before, finish⟩ :: ledger logger answer rest finish.2

/-- What the resolver answered to the calls for values of one fingerprint, in order. -/
def answersTo (bytes : Bytes) (entries : List (Entry ω)) : List (Except Stop Typecode) :=
  (entries.filter fun entry => entry.fingerprint? = some bytes).flatMap Entry.answers

/-- The distinct fingerprints that were classified. -/
def classified (entries : List (Entry ω)) : Finset Bytes :=
  (entries.filterMap Entry.classified?).toFinset

-----------------------------------------------------------------------------------------
-- One classification
-----------------------------------------------------------------------------------------

/-- What a classification does, given the codes in stock before and after it. -/
inductive Entry.Books (entry : Entry ω) (stock : Stock) : Stock → Prop
  /-- The code in stock is returned without a call. -/
  | found {bytes code} (printed : entry.fingerprint? = some bytes)
    (known : stock.code? bytes = some code) (uncalled : entry.calls = [])
    (unanswered : entry.answers = []) (returned : entry.outcome = .ok (some code))
    : Books entry stock stock
  /-- The answer of a call is returned and learnt. -/
  | learnt {bytes answer} (printed : entry.fingerprint? = some bytes)
    (vacant : stock.code? bytes = none) (called : entry.calls = [entry.value])
    (answered : entry.answers = [answer]) (returned : entry.outcome = answer.map some)
    : Books entry stock (stock.learn (.ok bytes) answer)
  /-- The answer of a call is returned, and that is all. -/
  | passed {answer} (unprinted : entry.fingerprint? = none) (called : entry.calls = [entry.value])
    (answered : entry.answers = [answer]) (returned : entry.outcome = answer.map some)
    (unchanged : entry.after.own.1 = entry.before.own.1)
    : Books entry stock stock

/-- A call leaves its two marks, whatever the resolver does, and the layers alone. -/
theorem marks_of_call {value : Shape} {answer : Run ω Typecode} {key : Option Place}
    {probed worked : Hosted (Dispatcher × ω)} {reply : Except Stop Typecode}
    (works
      : (Run.onSecond answer).run (Layer.calling key value probed) = (reply, worked))
    : (Layer.answering key reply worked).own.1 = probed.own.1
      ∧ (Layer.answering key reply worked).host.marks
        = probed.host.marks
          ++ [.called (key.map (Layer.key Dispatcher)) value,
            .answered (key.map (Layer.key Dispatcher)) reply] := by
  have unmarked := Run.onSecond_unmarked answer (Layer.calling key value probed)
  have kept : ((Run.onSecond answer).run (Layer.calling key value probed)).2.own.1 = probed.own.1 :=
    rfl
  rw [works] at unmarked kept
  refine ⟨kept, ?_⟩
  rw [Layer.marks_answering, unmarked, Layer.marks_calling, List.append_assoc]
  rfl

/-- An answer that is wanted under the key of a vacant fingerprint is returned and learnt. -/
theorem Holds.concluded {state : Hosted (Dispatcher × ω)} {stock : Stock}
    (holding : state.own.1.Holds stock) {place : Place} {bytes : Bytes}
    (vacant : stock.code? bytes = none) (stores : Layer.StoresUnder logger Holds place bytes)
    (reply : Except Stop Typecode)
    : let finish := (Run.ofExcept reply >>= Layer.keep logger (some place)).run state
      finish.1 = reply.map some ∧ finish.2.own.1.Holds (stock.learn (.ok bytes) reply) := by
  cases reply with
  | error ending => exact ⟨rfl, holding⟩
  | ok code =>
      obtain ⟨next, after, ran, -, held⟩ := stores holding vacant code state.host
      have kept := Layer.run_keep logger place code state
      rw [ran] at kept
      have ends : (Run.ofExcept (.ok code) >>= Layer.keep logger (some place)).run state = _ := kept
      rw [ends]
      exact ⟨rfl, held⟩

/-- What the look-up tells is what is in stock, and no call is made. -/
theorem Entry.books_of_told {entry : Entry ω} {stock : Stock} {reply : Option Typecode}
    (speaks
      : Layer.Speaks logger Holds stock (entry.value.fingerprint.run entry.before).1
        (.ofCode? reply))
    (unmarked : entry.after.host.marks = []) (returned : entry.outcome = .ok reply)
    : entry.Books stock stock := by
  generalize printed : (entry.value.fingerprint.run entry.before).1 = outcome at speaks
  cases reply with
  | none => cases speaks
  | some code =>
      cases speaks with
      | known known =>
          refine .found ?_ known ?_ ?_ returned
          · simp [fingerprint?, printed, Except.toOption]
          · simp [calls, Host.calls_eq, unmarked]
          · simp [answers, Host.answers_eq, unmarked]

/-- The answer of a call is returned and, if there is a fingerprint, learnt. -/
theorem Entry.books_of_called {entry : Entry ω} {stock : Stock} {key : Option Place}
    {reply : Except Stop Typecode} {worked : Hosted (Dispatcher × ω)} {known : Option Key}
    (speaks
      : Layer.Speaks logger Holds stock (entry.value.fingerprint.run entry.before).1
        (.awaiting key))
    (marks : entry.after.host.marks = [.called known entry.value, .answered known reply])
    (holding : worked.own.1.Holds stock) (kept : worked.own.1 = entry.before.own.1)
    (ends : entry.finish = (Run.ofExcept reply >>= Layer.keep logger key).run worked)
    : ∃ next, entry.after.own.1.Holds next ∧ entry.Books stock next := by
  have called : entry.calls = [entry.value] := by
    rw [calls, Host.calls_eq, marks]
    rfl
  have answered : entry.answers = [reply] := by
    rw [answers, Host.answers_eq, marks]
    rfl
  generalize printed : (entry.value.fingerprint.run entry.before).1 = outcome at speaks
  cases key with
  | none =>
      cases speaks with
      | uncached =>
          have passed : entry.finish = (reply.map some, worked) := by
            rw [ends]
            cases reply <;> rfl
          refine ⟨stock, ?_, .passed ?_ called answered ?_ ?_⟩
          · rwa [after, passed]
          · simp [fingerprint?, printed, Except.toOption]
          · rw [outcome, passed]
          · rw [after, passed, kept]
  | some place =>
      cases speaks with
      | missing vacant stores =>
          obtain ⟨returned, learnt⟩ := holding.concluded vacant stores reply
          rw [← ends] at returned learnt
          refine ⟨_, learnt, .learnt ?_ vacant called answered returned⟩
          simp [fingerprint?, printed, Except.toOption]

/-- Every classification keeps the books, whichever course it takes. -/
theorem Holds.books (spares : logger.SparesLayers) (answer : Shape → Run ω Typecode)
    (value : Shape) {before : Hosted (Dispatcher × ω)} {stock : Stock}
    (holding : before.own.1.Holds stock) (blank : before.host.notes = [])
    : let entry : Entry ω :=
        ⟨value, before, (Resolver.classify logger (.ofRun answer) value).run before⟩
      ∃ next, entry.after.own.1.Holds next ∧ entry.Books stock next := by
  obtain ⟨⟨layer, resolver⟩, host⟩ := before
  obtain ⟨said, after, looked, -, speaks⟩ := remembers spares holding value host
  have beside
      : (Run.onFirst (Layer.probe logger value)).run ⟨(layer, resolver), host⟩
        = (.ok said, ⟨(layer, resolver), after⟩) := by
    rw [Run.run_onFirst, looked]
  have unmarked : after.marks = [] := by
    have same := @probe_unmarked logger value ⟨layer, host⟩
    rw [show probe logger value = Layer.probe logger value from rfl, looked] at same
    simpa [Host.marks, show host.notes = [] from blank] using same
  have alone
      : ((Resolver.ofRun answer value).run logger : Run (Dispatcher × ω) Typecode)
        = Run.onSecond (answer value) :=
    bind_pure _
  rw [← Shape.fingerprint_outcome value () ⟨(layer, resolver), host⟩] at speaks
  intro entry
  have course
      : Layer.Course logger value ((Resolver.ofRun answer value).run logger) entry.before
        entry.finish :=
    Layer.classify_course _ _ _ _
  cases course with
  | stopped ending probed looked silent ends => cases beside.symm.trans looked
  | told reply probed looked silent ends =>
      cases beside.symm.trans looked
      refine ⟨stock, ?_, Entry.books_of_told speaks ?_ (congrArg Prod.fst ends)⟩
      · rw [Entry.after, ends]
        exact holding
      · rw [Entry.after, ends]
        exact unmarked
  | called key probed reply worked looked works calls ends =>
      cases beside.symm.trans looked
      rw [alone] at works
      obtain ⟨kept, marks⟩ := marks_of_call works
      have quiet :=
        @conclusion_unmarked logger _ key reply (Layer.answering key reply worked)
      rw [← ends] at quiet
      rw [unmarked, List.nil_append, ← quiet] at marks
      have held : (Layer.answering key reply worked).own.1.Holds stock := by
        rw [kept]
        exact holding
      exact Entry.books_of_called speaks marks held kept ends

-----------------------------------------------------------------------------------------
-- Classifications one after the other
-----------------------------------------------------------------------------------------

/-- The books are kept in every entry, each with the codes that are in stock before and after it. -/
inductive Booked : Stock → List (Entry ω) → Stock → Prop
  | nil {stock} : Booked stock [] stock
  | cons {stock middle final entry rest} (holding : entry.before.own.1.Holds stock)
    (books : entry.Books stock middle) (held : entry.after.own.1.Holds middle)
    (further : Booked middle rest final)
    : Booked stock (entry :: rest) final

/-- The books of a ledger are kept, by induction over the values. -/
theorem Holds.ledger (spares : logger.SparesLayers) (answer : Shape → Run ω Typecode)
    (values : List Shape) {state : Hosted (Dispatcher × ω)} {stock : Stock}
    (holding : state.own.1.Holds stock)
    : ∃ final, Booked stock (ledger logger answer values state) final := by
  induction values generalizing state stock with
  | nil => exact ⟨stock, .nil⟩
  | cons value rest ih =>
      have before : (⟨state.own, state.host.rested⟩ : Hosted (Dispatcher × ω)).own.1.Holds stock :=
        holding
      obtain ⟨middle, held, books⟩ := before.books spares answer value rfl
      obtain ⟨final, further⟩ := ih held
      exact ⟨final, .cons holding books held further⟩

theorem Booked.split {start final : Stock} {past future : List (Entry ω)} {entry : Entry ω}
    (kept : Booked start (past ++ entry :: future) final)
    : ∃ stock next,
        Booked start past stock
        ∧ entry.before.own.1.Holds stock
        ∧ entry.Books stock next
        ∧ entry.after.own.1.Holds next := by
  induction past generalizing start with
  | nil =>
      cases kept with
      | cons holding books held further => exact ⟨start, _, .nil, holding, books, held⟩
  | cons earlier rest ih =>
      cases kept with
      | cons holding books held further =>
          obtain ⟨stock, next, left, right⟩ := ih further
          exact ⟨stock, next, .cons holding books held left, right⟩

/-- The codes in stock are what the entries so far amount to. -/
structure Tally (past : List (Entry ω)) (stock : Stock) : Prop where
  /-- All answers but the last are failures; the last one is a success exactly if it is in stock. -/
  answers
    : ∀ bytes, ∃ failing : List Stop,
        answersTo bytes past
        = failing.map .error ++ ((stock.code? bytes).map .ok).toList
  stocked : ∀ bytes, bytes ∈ classified past ↔ (stock.code? bytes).isSome
  size : stock.size = (classified past).card

theorem tally_nil : Tally ([] : List (Entry ω)) .empty where
  answers bytes := ⟨[], rfl⟩
  stocked bytes := by simp [classified, Stock.empty]
  size := rfl

theorem answersTo_append (bytes : Bytes) (past : List (Entry ω)) (entry : Entry ω)
    : answersTo bytes (past ++ [entry])
      = answersTo bytes past
        ++ if entry.fingerprint? = some bytes then entry.answers else [] := by
  by_cases same : entry.fingerprint? = some bytes <;> simp [answersTo, same]

theorem classified_append (past : List (Entry ω)) (entry : Entry ω)
    : classified (past ++ [entry])
      = match entry.classified? with
        | some bytes => insert bytes (classified past)
        | none => classified past := by
  cases added : entry.classified? with
  | none => simp [classified, added]
  | some bytes =>
      ext other
      simp [classified, added, eq_comm]

/-- An entry that leaves the stock as it is and succeeds at most for a fingerprint in stock. -/
theorem Tally.keep {past : List (Entry ω)} {stock : Stock} {entry : Entry ω}
    (tally : Tally past stock)
    (silent : ∀ bytes, entry.fingerprint? = some bytes → entry.answers = [])
    (known : ∀ bytes, entry.classified? = some bytes → (stock.code? bytes).isSome)
    : Tally (past ++ [entry]) stock := by
  have same : classified (past ++ [entry]) = classified past := by
    rw [classified_append]
    cases added : entry.classified? with
    | none => rfl
    | some bytes => exact Finset.insert_eq_self.mpr ((tally.stocked bytes).mpr (known bytes added))
  refine ⟨fun bytes => ?_, fun bytes => ?_, ?_⟩
  · obtain ⟨failing, answered⟩ := tally.answers bytes
    refine ⟨failing, ?_⟩
    rw [answersTo_append, answered]
    split
    · rw [silent bytes ‹_›, List.append_nil]
    · rw [List.append_nil]
  · rw [same]
    exact tally.stocked bytes
  · rw [same]
    exact tally.size

/-- A call that fails for a fingerprint that is not in stock. -/
theorem Tally.fail {past : List (Entry ω)} {stock : Stock} {entry : Entry ω} {bytes : Bytes}
    {ending : Stop} (tally : Tally past stock) (printed : entry.fingerprint? = some bytes)
    (vacant : stock.code? bytes = none) (answered : entry.answers = [.error ending])
    (failed : entry.outcome = .error ending)
    : Tally (past ++ [entry]) stock := by
  have same : classified (past ++ [entry]) = classified past := by
    simp [classified_append, Entry.classified?, failed, Except.isOk, Except.toBool]
  refine ⟨fun other => ?_, fun other => ?_, ?_⟩
  · obtain ⟨failing, earlier⟩ := tally.answers other
    rw [answersTo_append, earlier, printed]
    by_cases here : bytes = other
    · subst here
      exact ⟨failing ++ [ending], by simp [vacant, answered]⟩
    · exact ⟨failing, by simp [here]⟩
  · rw [same]
    exact tally.stocked other
  · rw [same]
    exact tally.size

/-- A call that succeeds for a fingerprint that is not in stock. -/
theorem Tally.add {past : List (Entry ω)} {stock : Stock} {entry : Entry ω} {bytes : Bytes}
    {code : Typecode} (tally : Tally past stock) (printed : entry.fingerprint? = some bytes)
    (vacant : stock.code? bytes = none) (answered : entry.answers = [.ok code])
    (returned : entry.outcome = .ok (some code))
    : Tally (past ++ [entry]) (stock.add bytes code) := by
  have grown : classified (past ++ [entry]) = insert bytes (classified past) := by
    simp [classified_append, Entry.classified?, returned, printed, Except.isOk, Except.toBool]
  refine ⟨fun other => ?_, fun other => ?_, ?_⟩
  · obtain ⟨failing, earlier⟩ := tally.answers other
    refine ⟨failing, ?_⟩
    rw [answersTo_append, earlier, printed]
    by_cases here : bytes = other
    · subst here
      simp [vacant, answered, Stock.add]
    · simp [here, Ne.symm here, Stock.add]
  · rw [grown, Finset.mem_insert, tally.stocked]
    by_cases here : other = bytes <;> simp [here, Stock.add]
  · have absent : bytes ∉ classified past := by simp [tally.stocked, vacant]
    rw [grown, Finset.card_insert_of_notMem absent, ← tally.size]
    rfl

/-- One more entry is added to the tally. -/
theorem Tally.step {past : List (Entry ω)} {stock next : Stock} {entry : Entry ω}
    (tally : Tally past stock) (books : entry.Books stock next)
    : Tally (past ++ [entry]) next := by
  cases books with
  | @found bytes code printed known uncalled unanswered returned =>
      refine tally.keep (fun _ _ => unanswered) fun other classified => ?_
      simp only [Entry.classified?, returned, printed] at classified
      obtain rfl : bytes = other := by simpa [Except.isOk, Except.toBool] using classified
      simp [known]
  | @learnt bytes answer printed vacant called answered returned =>
      cases answer with
      | error ending => exact tally.fail printed vacant answered returned
      | ok code => exact tally.add printed vacant answered returned
  | @passed answer unprinted called answered returned unchanged =>
      refine tally.keep ?_ ?_
      · simp [unprinted]
      · simp [Entry.classified?, unprinted]

/-- From one tally to a later one, by induction over the entries between them. -/
theorem Booked.tally {past entries : List (Entry ω)} {start final : Stock}
    (kept : Booked start entries final) (tally : Tally past start)
    : Tally (past ++ entries) final := by
  induction kept generalizing past with
  | nil => simpa using tally
  | @cons _ _ _ entry rest holding books held further ih =>
      have later := ih (tally.step books)
      rwa [List.append_assoc, List.singleton_append] at later

/-- What a ledger says about the resolver. -/
structure AtMostOnce (entries : List (Entry ω)) : Prop where
  /-- A classification either returns a code without a call, or makes one call, on its own value,
  and returns the answer.
  -/
  single
    : ∀ entry ∈ entries,
        (entry.calls = [] ∧ entry.answers = [] ∧ ∃ code, entry.outcome = .ok (some code))
        ∨ ∃ answer,
            entry.calls = [entry.value]
            ∧ entry.answers = [answer]
            ∧ entry.outcome = answer.map some
  /-- For each fingerprint there are some failures, then at most one success and no call after it.
  -/
  success
    : ∀ bytes, ∃ (failing : List Stop) (success? : Option Typecode),
        answersTo bytes entries = failing.map .error ++ (success?.map .ok).toList
  /-- From its success on, every classification of the fingerprint returns the same code. -/
  same
    : ∀ past entry future bytes code,
        entries = past ++ entry :: future
        → entry.fingerprint? = some bytes
        → .ok code ∈ answersTo bytes (past ++ [entry])
        → entry.outcome = .ok (some code)
  /-- The codes that are stored are as many as the distinct fingerprints classified so far. -/
  counted
    : ∀ past entry future,
        entries = past ++ entry :: future
        → entry.before.own.1.stored = (classified past).card
          ∧ entry.after.own.1.stored = (classified (past ++ [entry])).card
  /-- For a value without a fingerprint one call is made every time, whose answer is returned, and
  neither layer changes.
  -/
  unprinted
    : ∀ entry ∈ entries,
        entry.fingerprint? = none
        → ∃ answer,
            entry.calls = [entry.value]
            ∧ entry.answers = [answer]
            ∧ entry.outcome = answer.map some
            ∧ entry.after.own.1 = entry.before.own.1

/-- Books that are kept from an empty stock on show all of this. -/
theorem Booked.atMostOnce {entries : List (Entry ω)} {final : Stock}
    (kept : Booked .empty entries final)
    : AtMostOnce entries where
  single entry member := by
    obtain ⟨past, future, rfl⟩ := List.append_of_mem member
    obtain ⟨stock, next, -, -, books, -⟩ := kept.split
    cases books with
    | found _ _ uncalled unanswered returned => exact .inl ⟨uncalled, unanswered, _, returned⟩
    | learnt _ _ called answered returned => exact .inr ⟨_, called, answered, returned⟩
    | passed _ called answered returned _ => exact .inr ⟨_, called, answered, returned⟩
  success bytes := by
    obtain ⟨failing, answered⟩ := (kept.tally tally_nil).answers bytes
    exact ⟨failing, _, answered⟩
  same past entry future bytes code split printed success := by
    subst split
    obtain ⟨stock, next, earlier, -, books, -⟩ := kept.split
    have tally := (earlier.tally tally_nil).step books
    obtain ⟨failing, answered⟩ := tally.answers bytes
    rw [List.nil_append] at answered
    have known : next.code? bytes = some code := by simpa [answered] using success
    cases books with
    | found printed' stocked _ _ returned =>
        cases printed.symm.trans printed'
        cases stocked.symm.trans known
        exact returned
    | @learnt _ answer printed' vacant _ _ returned =>
        cases printed.symm.trans printed'
        cases answer with
        | error ending => cases vacant.symm.trans known
        | ok answer =>
            obtain rfl : answer = code := by simpa [Stock.learn, Stock.add] using known
            exact returned
    | passed unprinted _ _ _ _ => cases printed.symm.trans unprinted
  counted past entry future split := by
    subst split
    obtain ⟨stock, next, earlier, holding, books, held⟩ := kept.split
    have tally := earlier.tally tally_nil
    rw [List.nil_append] at tally
    exact ⟨holding.size.symm.trans tally.size, held.size.symm.trans (tally.step books).size⟩
  unprinted entry member unprinted := by
    obtain ⟨past, future, rfl⟩ := List.append_of_mem member
    obtain ⟨stock, next, -, -, books, -⟩ := kept.split
    cases books with
    | found printed _ _ _ _ => cases unprinted.symm.trans printed
    | learnt printed _ _ _ _ => cases unprinted.symm.trans printed
    | passed _ called answered returned unchanged =>
        exact ⟨_, called, answered, returned, unchanged⟩

/-- The resolver succeeds at most once per fingerprint. On a new dispatcher, under any logger that
spares the layers, any values may be classified one after the other, with any resolver that leaves
the layers alone.
-/
theorem succeeds_at_most_once (spares : logger.SparesLayers) (elementary : ElementaryCodes)
    (answer : Shape → Run ω Typecode) (resolver : ω) (host : Host) (values : List Shape)
    : AtMostOnce (ledger logger answer values ⟨(ofCodes elementary, resolver), host⟩) := by
  let start : Hosted (Dispatcher × ω) := ⟨(ofCodes elementary, resolver), host⟩
  have empty : start.own.1.Holds .empty := holds_ofCodes elementary
  obtain ⟨final, kept⟩ := empty.ledger spares answer values
  exact kept.atMostOnce

/-- A resolver that fails once and counts from then on. Two arrays share a position, one lies in the
table, and one has no fingerprint.
-/
theorem succeeds_at_most_once_counting
    : let array (contiguity : Contiguity) (writable : Bool) (element : ElementType) : Shape :=
        .array ⟨2, contiguity, writable, element⟩
      let float : ElementType := .scalar .float64
      let answer (_ : Shape) : Run Nat Typecode := do
        let calls ← Run.own
        Run.setOwn (calls + 1)
        if calls = 0 then Run.fail (.resolution "busy")
        Run.ofFailing (Typecode.ofInt calls)
      let values :=
        [array ⟨1⟩ true float, array ⟨3⟩ true float, array ⟨1⟩ true float, array ⟨1⟩ false float,
          array ⟨1⟩ true .object, .tuple [array ⟨3⟩ false float], array ⟨1⟩ true .object]
      let entries :=
        ledger .steady answer values
          ⟨(ofCodes ⟨Vector.replicate _ .zero, .zero⟩, 0), .fresh⟩
      Logger.steady.SparesLayers
      ∧ entries.map Entry.answers
        = [[.error (.failure (.resolution "busy"))], [.ok ⟨1⟩], [], [.ok ⟨2⟩], [.ok ⟨3⟩],
          [.ok ⟨4⟩], [.ok ⟨5⟩]]
      ∧ AtMostOnce entries :=
  ⟨Logger.steady_sparesLayers, by cbv,
    succeeds_at_most_once Logger.steady_sparesLayers _ _ _ _ _⟩

end Dispatcher

end Typecodes
