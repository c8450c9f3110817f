import Mathlib
import Typecodes.Proofs.DispatcherOperations

/-! The last completed write counts. A resolver may use the grid that called it, so a position that
was empty when an array entered may be filled when the array's code is stored. It is written all the
same: at each moment a position holds the code that the latest call returned that found it empty.
-/

namespace Typecodes

namespace ArrayGrid

variable {ω : Type} {logger : Logger}

-----------------------------------------------------------------------------------------
-- Words
-----------------------------------------------------------------------------------------

/-- Every word is the mark or the number of a typecode. -/
def Exact (grid : ArrayGrid) : Prop :=
  ∀ word ∈ grid.words, word = unset ∨ ∃ code : Typecode, word = UInt64.ofNat code.toNat

theorem exact_empty : empty.Exact := by
  intro word stored
  exact .inl (Vector.mem_replicate.mp stored).2

theorem Exact.sound {grid : ArrayGrid} (exact : grid.Exact) : grid.Sound := by
  intro word stored
  rcases exact word stored with rfl | ⟨code, rfl⟩
  · exact ⟨none, decode_eq_none.mpr rfl⟩
  · exact ⟨some code, decode_ofNat code⟩

theorem toNat_ofNat (code : Typecode) : (UInt64.ofNat code.toNat).toNat = code.toNat := by
  have inRange := code.toNat_lt
  simp only [typecodeCount] at inRange
  rw [UInt64.toNat_ofNat']
  omega

/-- A write of a position, and nothing else, happens to the grid. -/
theorem written_of_set? {grid next : ArrayGrid} {slot : GridSlot} {code : Typecode}
    (set : grid.set? slot code = some next)
    : grid.Written slot code next := by
  obtain ⟨index, found, -⟩ := Option.map_eq_some_iff.mp set
  obtain ⟨other, same, written⟩ :=
    set?_eq_some grid (GridSlot.served_of_index? found) code
  cases set.symm.trans same
  exact written

theorem Exact.set? {grid next : ArrayGrid} (exact : grid.Exact) {slot : GridSlot} {code : Typecode}
    (set : grid.set? slot code = some next)
    : next.Exact := by
  obtain ⟨index, -, rfl⟩ := Option.map_eq_some_iff.mp set
  intro word stored
  have among : word ∈ grid.words.set index.val (UInt64.ofNat code.toNat) index.isLt := stored
  rcases Vector.mem_or_eq_of_mem_set among with kept | rfl
  · exact exact word kept
  · exact .inr ⟨code, rfl⟩

/-- What is read at a served position, next to the word that lies there. -/
structure ReadsExactly (grid : ArrayGrid) (slot : GridSlot) (word : UInt64) : Prop where
  located : ∃ index : Fin GridSlot.count, slot.index? = some index ∧ grid.words.get index = word
  blank : word = unset → grid.get slot = .ok none
  filled
    : word ≠ unset
      → word.toNat < typecodeCount
        ∧ ∃ code, grid.get slot = .ok (some code) ∧ code.toNat = word.toNat

theorem Exact.reads {grid : ArrayGrid} (exact : grid.Exact) {slot : GridSlot}
    (served : slot.Served)
    : ∃ word, grid.ReadsExactly slot word := by
  obtain ⟨index, found⟩ := served.index?
  have read : grid.get slot = decode grid.words[index] := by rw [get, found]
  refine ⟨grid.words[index], ⟨index, found, rfl⟩, ?_, ?_⟩
  · intro blank
    rw [read, decode_eq_none.mpr blank]
  · intro filled
    rcases exact grid.words[index] (Vector.getElem_mem index.isLt) with blank | ⟨code, stored⟩
    · exact absurd blank filled
    · rw [read, stored, decode_ofNat, toNat_ofNat]
      exact ⟨code.toNat_lt, code, rfl, rfl⟩

-----------------------------------------------------------------------------------------
-- Calls
-----------------------------------------------------------------------------------------

/-- How the call of a position that was empty ends, given its resolver's answer and the grid that
the resolver left.
-/
inductive Concluded (logger : Logger) (slot : GridSlot) (worked : ArrayGrid)
    : Except Stop Typecode → Except Stop (Option Typecode) → ArrayGrid → Prop
  /-- A stop of the resolver is passed on. -/
  | failed {ending} : Concluded logger slot worked (.error ending) (.error ending) worked
  /-- The logger panics before the position is written. -/
  | cut {code} (panics : logger.panicsAfter (.slotFilled slot code) = true)
    : Concluded logger slot worked (.ok code) (.error .panic) worked
  /-- The position is written, whatever is there by now. -/
  | filled {code next} (silent : logger.panicsAfter (.slotFilled slot code) = false)
    (set : worked.set? slot code = some next)
    : Concluded logger slot worked (.ok code) (.ok (some code)) next

/-- Calls on a grid in a row, each with the calls that its resolver makes on the same grid. -/
inductive Calls (logger : Logger)
    : ArrayGrid → List (Moment ArrayGrid GridSlot ω) → ArrayGrid → Prop
  | nil {grid} : Calls logger grid [] grid
  | append {before middle after first second} (left : Calls logger before first middle)
    (right : Calls logger middle second after)
    : Calls logger before (first ++ second) after
  /-- A value without a position. -/
  | unserved {value} {entry : Hosted (ArrayGrid × ω)} (elsewhere : value.slot? = none)
    : Calls logger entry.own.1 [⟨.entered value, entry⟩, ⟨.returned value entry (.ok none), entry⟩]
        entry.own.1
  /-- An array whose position is set. -/
  | hit {value slot code} {entry : Hosted (ArrayGrid × ω)} (belongs : value.slot? = some slot)
    (stored : entry.own.1.get slot = .ok (some code))
    : Calls logger entry.own.1
        [⟨.entered value, entry⟩, ⟨.returned value entry (.ok (some code)), entry⟩] entry.own.1
  /-- An array whose position is empty. -/
  | miss {value slot inside answer outcome} {entry start worked after : Hosted (ArrayGrid × ω)}
    (belongs : value.slot? = some slot) (vacant : entry.own.1.get slot = .ok none)
    (starts : start.own = entry.own) (work : Calls logger start.own.1 inside worked.own.1)
    (concluded : Concluded logger slot worked.own.1 answer outcome after.own.1)
    : Calls logger entry.own.1
        ([⟨.entered value, entry⟩, ⟨.called (some slot) value, start⟩]
          ++ inside
          ++ [⟨.answered (some slot) answer, worked⟩, ⟨.returned value entry outcome, after⟩])
        after.own.1

theorem Concluded.exact {slot : GridSlot} {worked after : ArrayGrid}
    {answer : Except Stop Typecode} {outcome : Except Stop (Option Typecode)}
    (concluded : Concluded logger slot worked answer outcome after) (exact : worked.Exact)
    : after.Exact := by
  cases concluded with
  | failed | cut panics => exact exact
  | filled silent set => exact exact.set? set

/-- Calls leave every word in order, by induction over them. -/
theorem Calls.exact {before after : ArrayGrid} {moments : List (Moment ArrayGrid GridSlot ω)}
    (calls : Calls logger before moments after) (exact : before.Exact)
    : after.Exact := by
  induction calls with
  | nil | unserved elsewhere | hit belongs stored => exact exact
  | append left right first second => exact second (first exact)
  | miss belongs vacant starts work concluded ih =>
      rw [starts] at ih
      exact concluded.exact (ih exact)

/-- What is done with the answer that a position waits for. -/
theorem conclude (logger : Logger) {slot : GridSlot} (served : slot.Served)
    (answer : Except Stop Typecode) (worked : Hosted (ArrayGrid × ω))
    : let finish := (Run.ofExcept answer >>= Layer.keep logger (some slot)).run worked
      Concluded logger slot worked.own.1 answer finish.1 finish.2.own.1 := by
  cases answer with
  | error ending => exact .failed
  | ok code =>
      obtain ⟨next, set, -⟩ := set?_eq_some worked.own.1 served code
      have kept : (Run.ofExcept (.ok code) >>= Layer.keep logger (some slot)).run worked = _ :=
        Layer.run_keep logger slot code worked
      rw [show Layer.store logger slot code = fill logger slot code from rfl] at kept
      simp only [kept, fill, Run.run_bind, Run.run_log]
      cases panics : logger.panicsAfter (.slotFilled slot code) with
      | true => exact .cut panics
      | false =>
          simp only [Bool.false_eq_true, if_false, Run.run_own, set]
          exact .filled panics set

/-- What a look-up says is what is stored, and that is all that it does. -/
theorem looked {value : Shape} {state probed : Hosted (ArrayGrid × ω)}
    {outcome : Except Stop (Verdict GridSlot)} (sound : state.own.1.Sound)
    (looks : (Run.onFirst (Layer.probe logger value)).run state = (outcome, probed))
    : probed = state
      ∧ ((value.slot? = none ∧ outcome = .ok .unserved)
        ∨ ∃ slot,
            value.slot? = some slot
            ∧ ((∃ code, state.own.1.get slot = .ok (some code) ∧ outcome = .ok (.known code))
              ∨ (state.own.1.get slot = .ok none ∧ outcome = .ok (.missing slot)))) := by
  rw [Run.run_onFirst, show Layer.probe logger value = probe value from rfl] at looks
  cases position : value.slot? with
  | none =>
      rw [probe_elsewhere position] at looks
      cases looks
      exact ⟨rfl, .inl ⟨rfl, rfl⟩⟩
  | some slot =>
      have read := sound.get (Shape.served_of_slot position)
      rw [probe_of_slot position _ sound] at looks
      cases looks
      refine ⟨rfl, .inr ⟨slot, rfl, ?_⟩⟩
      cases stored : state.own.1.codeAt slot with
      | some code => exact .inl ⟨code, by rw [read, stored], rfl⟩
      | none => exact .inr ⟨by rw [read, stored], rfl⟩

/-- A classification is a call if its resolver's work consists of calls. -/
theorem calls_of_classify {value : Shape} {resolve : Run (ArrayGrid × ω) Typecode}
    {inside : Hosted (ArrayGrid × ω) → List (Moment ArrayGrid GridSlot ω)}
    (work
      : ∀ state,
          state.own.1.Exact
          → Calls logger state.own.1 (inside state) (resolve.run state).2.own.1)
    (state : Hosted (ArrayGrid × ω)) (exact : state.own.1.Exact)
    : Calls logger state.own.1 (Layer.moments logger value resolve inside state)
        ((Layer.classify logger value resolve).run state).2.own.1 := by
  have course := Layer.classify_course logger value resolve state
  rw [Layer.moments]
  generalize (Layer.classify logger value resolve).run state = finish at course ⊢
  cases course with
  | stopped ending probed looks silent ends =>
      obtain ⟨-, ⟨-, said⟩ | ⟨slot, -, ⟨code, -, said⟩ | ⟨-, said⟩⟩⟩ := looked exact.sound looks <;>
        cases said
  | told answer probed looks silent ends =>
      obtain ⟨rfl, said⟩ := looked exact.sound looks
      rw [silent, ends]
      rcases said with ⟨elsewhere, said⟩ | ⟨slot, belongs, ⟨code, stored, said⟩ | ⟨-, said⟩⟩
      · cases answer <;> cases said
        exact .unserved elsewhere
      · cases answer <;> cases said
        exact .hit belongs stored
      · cases answer <;> cases said
  | called key probed answer worked looks works calls ends =>
      obtain ⟨rfl, said⟩ := looked exact.sound looks
      rcases said with ⟨-, said⟩ | ⟨slot, belongs, ⟨code, -, said⟩ | ⟨vacant, said⟩⟩
      · cases key <;> cases said
      · cases key <;> cases said
      · cases key <;> cases said
        let start := Layer.calling (some slot) value probed
        let answered := Layer.answering (some slot) answer worked
        have starts : start.own = probed.own := rfl
        have within : Calls logger start.own.1 (inside start) answered.own.1 := by
          have ran := work start exact
          rwa [works] at ran
        have concluded := conclude logger (Shape.served_of_slot belongs) answer answered
        rw [← ends] at concluded
        have call := Calls.miss belongs vacant starts within concluded
        rw [calls]
        simpa using call

/-- Every stretch of a run that begins with all words in order consists of calls. -/
theorem account (logger : Logger)
    : Procedure.Account logger
        fun before (moments : List (Moment ArrayGrid GridSlot ω)) after =>
          before.Exact → Calls logger before moments after where
  idle _ _ := .nil
  append _ _ _ _ _ left right exact := .append (left exact) (right ((left exact).exact exact))
  classify _ _ _ work state exact := calls_of_classify work state exact

-----------------------------------------------------------------------------------------
-- What is stored between one moment and the next
-----------------------------------------------------------------------------------------

/-- The code that a call has just stored at a position: the code that it returns, if the value
belongs there and the position was empty when the value entered.
-/
def written? (slot : GridSlot) (moment : Moment ArrayGrid GridSlot ω) : Option Typecode :=
  match moment.stage with
  | .returned value entry (.ok (some code)) =>
      if value.slot? = some slot ∧ entry.own.1.get slot = .ok none then some code else none
  | _ => none

/-- The latest code that was stored at a position. -/
def latest? (slot : GridSlot) (moments : List (Moment ArrayGrid GridSlot ω)) : Option Typecode :=
  moments.reverse.findSome? (written? slot)

theorem latest?_append (slot : GridSlot) (first second : List (Moment ArrayGrid GridSlot ω))
    : latest? slot (first ++ second) = (latest? slot second).or (latest? slot first) := by
  simp [latest?, List.findSome?_append]

/-- The grid of a moment is the grid before it, with the code that has just been stored. -/
structure Follows (before : ArrayGrid) (moment : Moment ArrayGrid GridSlot ω) : Prop where
  write
    : ∀ slot code, written? slot moment = some code → before.set? slot code = some moment.layer
  idle : (∀ slot, written? slot moment = none) → moment.layer = before

/-- At each moment the grid follows from that of the moment before. -/
def Linked : ArrayGrid → List (Moment ArrayGrid GridSlot ω) → ArrayGrid → Prop
  | before, [], after => before = after
  | before, moment :: rest, after => Follows before moment ∧ Linked moment.layer rest after

theorem Linked.append {before middle after : ArrayGrid}
    {first second : List (Moment ArrayGrid GridSlot ω)} (left : Linked before first middle)
    (right : Linked middle second after)
    : Linked before (first ++ second) after := by
  induction first generalizing before with
  | nil =>
      obtain rfl : before = middle := left
      exact right
  | cons moment rest ih => exact ⟨left.1, ih left.2⟩

/-- A moment lies in a linked stretch as the end of one part and the start of another. -/
theorem Linked.split {before after : ArrayGrid}
    {past future : List (Moment ArrayGrid GridSlot ω)} {moment : Moment ArrayGrid GridSlot ω}
    (linked : Linked before (past ++ moment :: future) after)
    : Linked before (past ++ [moment]) moment.layer ∧ Linked moment.layer future after := by
  induction past generalizing before with
  | nil => exact ⟨⟨linked.1, rfl⟩, linked.2⟩
  | cons earlier rest ih =>
      obtain ⟨left, right⟩ := ih linked.2
      exact ⟨⟨linked.1, left⟩, right⟩

/-- Either one position is written or nothing happens to the grid. -/
theorem Follows.cases {before : ArrayGrid} {moment : Moment ArrayGrid GridSlot ω}
    (follows : Follows before moment)
    : (∃ slot code,
        written? slot moment = some code ∧ before.set? slot code = some moment.layer)
      ∨ moment.layer = before := by
  by_cases somewhere : ∃ slot code, written? slot moment = some code
  · obtain ⟨slot, code, here⟩ := somewhere
    exact .inl ⟨slot, code, here, follows.write slot code here⟩
  · refine .inr (follows.idle fun slot => ?_)
    rw [← Option.not_isSome_iff_eq_none, Option.isSome_iff_exists]
    exact fun here => somewhere ⟨slot, here⟩

/-- What is stored at a position changes only by what is written there. -/
theorem Follows.codeAt {before : ArrayGrid} {moment : Moment ArrayGrid GridSlot ω}
    (follows : Follows before moment) (slot : GridSlot)
    : moment.layer.codeAt slot = (written? slot moment).or (before.codeAt slot) := by
  cases here : written? slot moment with
  | some code => exact (written_of_set? (follows.write slot code here)).here
  | none =>
      rcases follows.cases with ⟨other, code, there, set⟩ | same
      · have apart : slot ≠ other := by
          rintro rfl
          cases here.symm.trans there
        exact (written_of_set? set).elsewhere slot apart
      · rw [same, Option.none_or]

theorem Follows.exact {before : ArrayGrid} {moment : Moment ArrayGrid GridSlot ω}
    (follows : Follows before moment) (exact : before.Exact)
    : moment.layer.Exact := by
  rcases follows.cases with ⟨slot, code, -, set⟩ | same
  · exact exact.set? set
  · rwa [same]

/-- What is stored after a linked stretch is what was written last, by induction over the stretch.
-/
theorem Linked.codeAt {before after : ArrayGrid} {moments : List (Moment ArrayGrid GridSlot ω)}
    (linked : Linked before moments after) (slot : GridSlot)
    : after.codeAt slot = (latest? slot moments).or (before.codeAt slot) := by
  induction moments generalizing before with
  | nil =>
      obtain rfl : before = after := linked
      rfl
  | cons moment rest ih =>
      have single : latest? slot [moment] = written? slot moment := by simp [latest?]
      rw [ih linked.2, linked.1.codeAt slot, ← List.singleton_append, latest?_append, single,
        Option.or_assoc]

/-- Every word stays in order, by induction over the stretch. -/
theorem Linked.exact {before after : ArrayGrid} {moments : List (Moment ArrayGrid GridSlot ω)}
    (linked : Linked before moments after) (exact : before.Exact)
    : ∀ grid ∈ moments.map Moment.layer ++ [after], grid.Exact := by
  induction moments generalizing before with
  | nil =>
      obtain rfl : before = after := linked
      simpa using exact
  | cons moment rest ih =>
      have next := linked.1.exact exact
      simpa using ⟨next, by simpa using ih linked.2 next⟩

/-- Nothing but what follows happens between two moments. -/
theorem Linked.isChain {before after : ArrayGrid} {moments : List (Moment ArrayGrid GridSlot ω)}
    (linked : Linked before moments after)
    : moments.IsChain fun earlier later => Follows earlier.layer later := by
  induction moments generalizing before with
  | nil => exact .nil
  | cons moment rest ih =>
      have further := ih linked.2
      cases rest with
      | nil => exact .singleton moment
      | cons next rest => exact List.isChain_cons_cons.mpr ⟨linked.2.1, further⟩

/-- A position that is set stays set, by induction over the stretch. -/
theorem Linked.stays {before after : ArrayGrid} {moments : List (Moment ArrayGrid GridSlot ω)}
    (linked : Linked before moments after)
    : ((before :: moments.map Moment.layer) ++ [after]).Pairwise fun earlier later =>
        ∀ slot, (earlier.codeAt slot).isSome → (later.codeAt slot).isSome := by
  induction moments generalizing before with
  | nil =>
      obtain rfl : before = after := linked
      simp
  | cons moment rest ih =>
      have further := ih linked.2
      have step (slot : GridSlot) (set : (before.codeAt slot).isSome)
          : (moment.layer.codeAt slot).isSome := by
        rw [linked.1.codeAt slot, Option.isSome_or, set, Bool.or_true]
      refine List.pairwise_cons.mpr ⟨fun later member slot set => ?_, further⟩
      rcases List.mem_cons.mp member with rfl | beyond
      · exact step slot set
      · exact (List.pairwise_cons.mp further).1 later beyond slot (step slot set)

theorem Follows.ofSame {before : ArrayGrid} {moment : Moment ArrayGrid GridSlot ω}
    (same : moment.layer = before) (quiet : ∀ slot, written? slot moment = none)
    : Follows before moment where
  write slot code written := by cases (quiet slot).symm.trans written
  idle _ := same

/-- The return of a call that found its position empty. -/
theorem Concluded.follows {value : Shape} {slot : GridSlot} {answer : Except Stop Typecode}
    {outcome : Except Stop (Option Typecode)} {entry after : Hosted (ArrayGrid × ω)}
    {worked : ArrayGrid} (belongs : value.slot? = some slot)
    (vacant : entry.own.1.get slot = .ok none)
    (concluded : Concluded logger slot worked answer outcome after.own.1)
    : Follows worked (⟨.returned value entry outcome, after⟩ : Moment ArrayGrid GridSlot ω) := by
  generalize stored : after.own.1 = grid at concluded
  cases concluded with
  | failed | cut panics => exact .ofSame stored fun _ => rfl
  | @filled code next silent set =>
      refine ⟨fun other written same => ?_, fun quiet => ?_⟩
      · simp only [written?, belongs, Option.some.injEq] at same
        split at same
        · rename_i here
          obtain ⟨rfl, -⟩ := here
          cases same
          rw [set, ← stored]
        · cases same
      · have here := quiet slot
        simp [written?, belongs, vacant] at here

/-- Calls are linked, by induction over them. -/
theorem Calls.linked {before after : ArrayGrid} {moments : List (Moment ArrayGrid GridSlot ω)}
    (calls : Calls logger before moments after)
    : Linked before moments after := by
  induction calls with
  | nil => rfl
  | append left right first second => exact first.append second
  | unserved elsewhere => exact ⟨.ofSame rfl fun _ => rfl, .ofSame rfl fun _ => rfl, rfl⟩
  | @hit value slot code entry belongs stored =>
      refine ⟨.ofSame rfl fun _ => rfl, .ofSame rfl fun other => ?_, rfl⟩
      by_cases here : slot = other
      · subst here
        simp [written?, stored]
      · simp [written?, belongs, here]
  | @miss value slot inside answer outcome entry start worked after belongs vacant starts work
      concluded ih =>
      have opened : Linked entry.own.1
          [⟨.entered value, entry⟩, ⟨.called (some slot) value, start⟩] start.own.1 :=
        ⟨.ofSame rfl fun _ => rfl, .ofSame (congrArg Prod.fst starts) fun _ => rfl, rfl⟩
      have closed : Linked worked.own.1
          [⟨.answered (some slot) answer, worked⟩, ⟨.returned value entry outcome, after⟩]
          after.own.1 :=
        ⟨.ofSame rfl fun _ => rfl, concluded.follows belongs vacant, rfl⟩
      exact (opened.append ih).append closed

-----------------------------------------------------------------------------------------
-- How calls return
-----------------------------------------------------------------------------------------

/-- How a call returns, given all the moments before that. -/
structure Returns (logger : Logger) (past : List (Moment ArrayGrid GridSlot ω)) (value : Shape)
    (entry : Hosted (ArrayGrid × ω)) (outcome : Except Stop (Option Typecode))
    (after : Hosted (ArrayGrid × ω))
    : Prop where
  /-- A value without a position returns at once without a code. -/
  unserved
    : value.slot? = none
      → past.getLast? = some ⟨.entered value, entry⟩ ∧ outcome = .ok none ∧ after = entry
  /-- A code that was stored when the value entered is returned at once. -/
  hit
    : ∀ slot code,
        value.slot? = some slot
        → entry.own.1.get slot = .ok (some code)
        → past.getLast? = some ⟨.entered value, entry⟩
          ∧ outcome = .ok (some code)
          ∧ after = entry
  /-- Otherwise the call returns what its own resolver answers, and stores it. -/
  miss
    : ∀ slot,
        value.slot? = some slot
        → entry.own.1.get slot = .ok none
        → ∃ earlier start inside answer worked,
            past
              = earlier
                ++ [⟨.entered value, entry⟩, ⟨.called (some slot) value, start⟩]
                ++ inside
                ++ [⟨.answered (some slot) answer, worked⟩]
            ∧ start.own = entry.own
            ∧ Calls logger start.own.1 inside worked.own.1
            ∧ Concluded logger slot worked.own.1 answer outcome after.own.1

/-- Every return among some moments is as it should be, given the moments before all of them. -/
def AllReturn (logger : Logger)
    : List (Moment ArrayGrid GridSlot ω) → List (Moment ArrayGrid GridSlot ω) → Prop
  | _, [] => True
  | past, moment :: rest =>
      (∀ value entry outcome,
        moment.stage = .returned value entry outcome
        → Returns logger past value entry outcome moment.state)
      ∧ AllReturn logger (past ++ [moment]) rest

theorem allReturn_append {past first second : List (Moment ArrayGrid GridSlot ω)}
    : AllReturn logger past (first ++ second)
      ↔ AllReturn logger past first ∧ AllReturn logger (past ++ first) second := by
  induction first generalizing past with
  | nil => simp [AllReturn]
  | cons moment rest ih => simp [AllReturn, ih, and_assoc]

/-- Every call returns as it should, by induction over the calls. -/
theorem Calls.allReturn {before after : ArrayGrid}
    {moments : List (Moment ArrayGrid GridSlot ω)} (calls : Calls logger before moments after)
    (past : List (Moment ArrayGrid GridSlot ω))
    : AllReturn logger past moments := by
  induction calls generalizing past with
  | nil => trivial
  | append left right first second => exact allReturn_append.mpr ⟨first past, second _⟩
  | @unserved value entry elsewhere =>
      refine ⟨nofun, ?_, trivial⟩
      rintro _ _ _ ⟨⟩
      refine ⟨fun _ => ⟨by simp, rfl, rfl⟩, ?_, ?_⟩
      · intro slot code belongs
        cases elsewhere.symm.trans belongs
      · intro slot belongs
        cases elsewhere.symm.trans belongs
  | @hit value slot code entry belongs stored =>
      refine ⟨nofun, ?_, trivial⟩
      rintro _ _ _ ⟨⟩
      refine ⟨?_, ?_, ?_⟩
      · intro elsewhere
        cases belongs.symm.trans elsewhere
      · intro other found same read
        cases belongs.symm.trans same
        cases stored.symm.trans read
        exact ⟨by simp, rfl, rfl⟩
      · intro other same vacant
        cases belongs.symm.trans same
        cases stored.symm.trans vacant
  | @miss value slot inside answer outcome entry start worked after belongs vacant starts work
      concluded ih =>
      refine allReturn_append.mpr ⟨allReturn_append.mpr ⟨⟨nofun, nofun, trivial⟩, ih _⟩, ?_⟩
      refine ⟨nofun, ?_, trivial⟩
      rintro _ _ _ ⟨⟩
      refine ⟨?_, ?_, ?_⟩
      · intro elsewhere
        cases belongs.symm.trans elsewhere
      · intro other found same read
        cases belongs.symm.trans same
        cases vacant.symm.trans read
      · intro other same _
        cases belongs.symm.trans same
        exact ⟨past, start, inside, answer, worked, by simp, starts, work, concluded⟩

-----------------------------------------------------------------------------------------
-- Runs
-----------------------------------------------------------------------------------------

/-- What holds of the moments of a run that began with an empty grid, and of the grid after it. -/
structure KeepsLatest (logger : Logger) (moments : List (Moment ArrayGrid GridSlot ω))
    (final : ArrayGrid)
    : Prop where
  /-- At each moment a position holds the code that the latest call stored there that found it
  empty, and nothing if there was no such call.
  -/
  latest
    : ∀ past moment future,
        moments = past ++ moment :: future
        → ∀ slot : GridSlot,
            slot.Served → moment.layer.get slot = .ok (latest? slot (past ++ [moment]))
  latestFinal : ∀ slot : GridSlot, slot.Served → final.get slot = .ok (latest? slot moments)
  /-- Nothing else changes the grid. -/
  changes : moments.IsChain fun earlier later => Follows earlier.layer later
  /-- A position that is set is never emptied. -/
  stays
    : (moments.map Moment.layer ++ [final]).Pairwise fun earlier later =>
        ∀ slot : GridSlot,
          slot.Served → (∃ code, earlier.get slot = .ok (some code))
          → ∃ code, later.get slot = .ok (some code)
  returns
    : ∀ past value entry outcome after future,
        moments = past ++ ⟨.returned value entry outcome, after⟩ :: future
        → Returns logger past value entry outcome after
  /-- No word is narrowed, is mistaken for the mark or is a panic when it is read. -/
  words
    : ∀ grid ∈ moments.map Moment.layer ++ [final],
        (∀ word ∈ grid.words, word = unset ∨ word.toNat < typecodeCount)
        ∧ ∀ slot : GridSlot, slot.Served → ∃ word, grid.ReadsExactly slot word

/-- Calls from an empty grid on have every such property. -/
theorem Calls.keepsLatest {moments : List (Moment ArrayGrid GridSlot ω)} {final : ArrayGrid}
    (calls : Calls logger empty moments final)
    : KeepsLatest logger moments final := by
  have exact := calls.linked.exact exact_empty
  have reads {past : List (Moment ArrayGrid GridSlot ω)} {grid : ArrayGrid}
      (member : grid ∈ moments.map Moment.layer ++ [final]) (linked : Linked empty past grid)
      {slot : GridSlot} (served : slot.Served)
      : grid.get slot = .ok (latest? slot past) := by
    rw [(exact grid member).sound.get served, linked.codeAt slot, codeAt_empty, Option.or_none]
  refine ⟨?_, fun slot served => reads (by simp) calls.linked served, calls.linked.isChain, ?_, ?_,
    ?_⟩
  · rintro past moment future rfl slot served
    exact reads (by simp) calls.linked.split.1 served
  · refine calls.linked.stays.of_cons.imp_of_mem ?_
    rintro earlier later member member' stays slot served ⟨code, set⟩
    rw [(exact earlier member).sound.get served] at set
    have held := stays slot (by rw [Except.ok.inj set]; rfl)
    obtain ⟨stored, held⟩ := Option.isSome_iff_exists.mp held
    exact ⟨stored, by rw [(exact later member').sound.get served, held]⟩
  · rintro past value entry outcome after future rfl
    have all := calls.allReturn []
    exact (allReturn_append.mp all).2.1 value entry outcome rfl
  · intro grid member
    refine ⟨fun word stored => ?_, fun slot served => (exact grid member).reads served⟩
    rcases exact grid member word stored with blank | ⟨code, rfl⟩
    · exact .inl blank
    · rw [toNat_ofNat]
      exact .inr code.toNat_lt

/-- The latest completed write counts, however deeply calls nest. On an empty grid any number of
programs may be carried out, whose resolvers answer and fail as they like, may panic, and may have
the same grid classify further values.
-/
theorem keeps_latest_write (logger : Logger) (programs : List (Procedure ω)) (resolver : ω)
    (host : Host)
    : KeepsLatest logger (Procedure.momentsAll logger programs ⟨(empty, resolver), host⟩)
        (Procedure.runAll logger programs ⟨(empty, resolver), host⟩).own.1 := by
  have calls := (account logger).procedures programs ⟨(empty, resolver), host⟩ exact_empty
  exact calls.keepsLatest

/-- Two nested calls for one position both find it empty; the outer one returns last, and so its
answer counts from then on.
-/
example
    : let array : Shape := .array ⟨2, ⟨1⟩, true, .scalar .float64⟩
      let inner : Procedure Unit := .done (.ok ⟨1⟩)
      let outer : Procedure Unit := .classify array (fun _ => inner) fun _ => .done (.ok ⟨2⟩)
      let program : Procedure Unit := .classify array (fun _ => outer) fun _ => .done (.ok ⟨3⟩)
      let start : Hosted (ArrayGrid × Unit) := ⟨(.empty, ()), .fresh⟩
      (program.moments .steady start).map (fun moment => moment.layer.get ⟨2, .rowMajor, .float64⟩)
        = [.ok none, .ok none, .ok none, .ok none, .ok none, .ok (some ⟨1⟩), .ok (some ⟨1⟩),
          .ok (some ⟨2⟩)] := by
  cbv

end ArrayGrid

end Typecodes
