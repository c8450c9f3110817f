import Typecodes.Proofs.Moments
import Typecodes.Proofs.TableOperations

/-! The first stored code wins. A resolver may use the fingerprint table that called it, so what a
look-up found may be out of date when the answer is stored. The table only ever gains entries all
the same, and each entry is the answer of the call that was the first to bring one.
-/

namespace Typecodes

namespace FingerprintTable

variable {ω : Type} {logger : Logger}

/-- The later table has every entry of the earlier one. -/
def Extends (later earlier : FingerprintTable) : Prop :=
  ∀ bytes code, earlier.get? bytes = some code → later.get? bytes = some code

/-- The answer that a finished resolver call brings to the table under the given bytes, unless a
panic of the logger cuts the insertion short.
-/
def inserted? (logger : Logger) (bytes : Bytes) (moment : Moment FingerprintTable Bytes ω)
    : Option Typecode :=
  match moment.stage with
  | .answered (some key) (.ok code) =>
      if key = bytes
          ∧ ((insert logger key code).run ⟨moment.layer, moment.state.host⟩).1.isOk then
        some code
      else
        none
  | _ => none

-----------------------------------------------------------------------------------------
-- What is stored between one moment and the next
-----------------------------------------------------------------------------------------

/-- What is stored under each byte string. -/
abbrev Contents := Bytes → Option Typecode

/-- The contents right after a moment. -/
def contentsAfter (logger : Logger) (moment : Moment FingerprintTable Bytes ω) : Contents :=
  fun bytes => moment.layer.get? bytes <|> inserted? logger bytes moment

/-- At each moment the contents are those right after the moment before. -/
def Linked (logger : Logger)
    : Contents → List (Moment FingerprintTable Bytes ω) → Contents → Prop
  | before, [], after => before = after
  | before, moment :: rest, after =>
      moment.layer.get? = before ∧ Linked logger (contentsAfter logger moment) rest after

theorem Linked.append {before middle after : Contents}
    {first second : List (Moment FingerprintTable Bytes ω)}
    (left : Linked logger before first middle) (right : Linked logger middle second after)
    : Linked logger before (first ++ second) after := by
  induction first generalizing before with
  | nil =>
      obtain rfl : before = middle := left
      exact right
  | cons moment rest ih => exact ⟨left.1, ih left.2⟩

/-- A moment lies in a linked stretch as the end of one part and the start of another. -/
theorem Linked.split {before after : Contents}
    {past future : List (Moment FingerprintTable Bytes ω)}
    {moment : Moment FingerprintTable Bytes ω}
    (linked : Linked logger before (past ++ moment :: future) after)
    : Linked logger before past moment.layer.get?
      ∧ Linked logger moment.layer.get? (moment :: future) after := by
  induction past generalizing before with
  | nil => exact ⟨linked.1.symm, rfl, linked.2⟩
  | cons earlier rest ih =>
      obtain ⟨left, right⟩ := ih linked.2
      exact ⟨⟨linked.1, left⟩, right⟩

/-- The contents after a linked stretch are those before it and, where nothing was stored then, the
first answer brought.
-/
theorem Linked.contents {before after : Contents}
    {moments : List (Moment FingerprintTable Bytes ω)} (linked : Linked logger before moments after)
    (bytes : Bytes)
    : after bytes = (before bytes <|> moments.findSome? (inserted? logger bytes)) := by
  induction moments generalizing before with
  | nil =>
      obtain rfl : before = after := linked
      simp
  | cons moment rest ih =>
      rw [ih linked.2, contentsAfter, linked.1, List.findSome?_cons]
      cases before bytes with
      | some code => rfl
      | none => cases inserted? logger bytes moment <;> rfl

/-- What a call is known to leave behind: answers belong under fingerprints of entered values, and
a code that is returned for a value with a fingerprint is stored under it.
-/
structure Settled (moments : List (Moment FingerprintTable Bytes ω)) : Prop where
  keyed
    : ∀ moment ∈ moments, ∀ key answer,
        moment.stage = .answered (some key) answer
        → ∃ entry ∈ moments, ∃ value,
            entry.stage = .entered value ∧ (value.fingerprint.run entry.state).1 = .ok key
  stored
    : ∀ moment ∈ moments, ∀ value entry code bytes,
        moment.stage = .returned value entry (.ok (some code))
        → (value.fingerprint.run entry).1 = .ok bytes
        → moment.layer.get? bytes = some code

theorem Settled.append {first second : List (Moment FingerprintTable Bytes ω)}
    (left : Settled first) (right : Settled second) : Settled (first ++ second) where
  keyed := by
    intro moment member key answer stage
    rcases List.mem_append.mp member with member | member
    · obtain ⟨entry, found, rest⟩ := left.keyed moment member key answer stage
      exact ⟨entry, List.mem_append_left _ found, rest⟩
    · obtain ⟨entry, found, rest⟩ := right.keyed moment member key answer stage
      exact ⟨entry, List.mem_append_right _ found, rest⟩
  stored := by
    intro moment member
    rcases List.mem_append.mp member with member | member
    · exact left.stored moment member
    · exact right.stored moment member

-----------------------------------------------------------------------------------------
-- One classification
-----------------------------------------------------------------------------------------

/-- Storing a code adds it where nothing was stored, unless it is cut short. -/
theorem insert_contents (logger : Logger) (bytes : Bytes) (code : Typecode)
    (state : Hosted FingerprintTable) (other : Bytes)
    : ((insert logger bytes code).run state).2.own.get? other
      = (state.own.get? other
        <|> if bytes = other ∧ ((insert logger bytes code).run state).1.isOk then some code
          else none) := by
  cases stored : (insert logger bytes code).run state with
  | mk outcome after =>
      cases outcome with
      | error ending =>
          have kept := insert_eq_error stored
          simp [get?, kept, Except.isOk, Except.toBool]
      | ok answer =>
          rcases insert_eq_ok stored with ⟨found, kept⟩ | ⟨missing, -, grown⟩
          · by_cases same : bytes = other
            · subst same
              simp only [get?] at found ⊢
              simp [kept, found]
            · simp [get?, kept, same]
          · by_cases same : bytes = other
            · subst same
              rw [missing]
              simp [get?, grown, Except.isOk, Except.toBool]
            · simp [get?, grown, same, Std.HashMap.getElem?_insert]

/-- A stored code is the one found under its key afterwards. -/
theorem insert_stores {bytes : Bytes} {code stored : Typecode}
    {state after : Hosted FingerprintTable}
    (answered : (insert logger bytes code).run state = (.ok stored, after))
    : after.own.get? bytes = some stored := by
  rcases insert_eq_ok answered with ⟨found, kept⟩ | ⟨-, rfl, grown⟩
  · rwa [get?, kept]
  · simp [get?, grown]

/-- A look-up beside a resolver's state, which does not matter to it. -/
theorem probe_beside {value : Shape} {state probed : Hosted (FingerprintTable × ω)}
    {outcome : Except Stop (Verdict Bytes)}
    (looked : (Run.onFirst (Layer.probe logger value)).run state = (outcome, probed))
    : probed.own = state.own
      ∧ ∀ said,
          outcome = .ok said
          → (∃ bytes,
              (value.fingerprint.run state).1 = .ok bytes ∧ said = state.own.1.verdict bytes)
            ∨ ((∀ bytes, (value.fingerprint.run state).1 ≠ .ok bytes) ∧ said = .uncached) := by
  have own := probe_own logger value ⟨state.own.1, state.host⟩
  rw [Run.run_onFirst] at looked
  obtain ⟨rfl, rfl⟩ := Prod.mk.inj looked
  refine ⟨Prod.ext own rfl, ?_⟩
  intro said answered
  rw [Shape.fingerprint_outcome value state.own.1 state]
  exact probe_eq_ok (Run.run_of_outcome answered)

/-- A call whose answer is wanted under a key leaves the contents right after the answer, and the
code that it returns is stored.
-/
theorem insert_answer (logger : Logger) (bytes : Bytes) (value : Shape)
    (resolve : Run (FingerprintTable × ω) Typecode) (probed : Hosted (FingerprintTable × ω))
    : let answered := (Layer.call (some (Key.fingerprint bytes)) value resolve).run probed
      let finish :=
        (do
          let answer ← Layer.call (some (Key.fingerprint bytes)) value resolve
          return some (← Run.onFirst (insert logger bytes answer))
          : Run (FingerprintTable × ω) (Option Typecode)).run probed
      finish.2.own.1.get? = contentsAfter logger ⟨.answered (some bytes) answered.1, answered.2⟩
      ∧ ∀ code, finish.1 = .ok (some code) → finish.2.own.1.get? bytes = some code := by
  dsimp only
  rw [Run.run_bind]
  cases (Layer.call (some (Key.fingerprint bytes)) value resolve).run probed with
  | mk answer after =>
      cases answer with
      | error ending =>
          refine ⟨?_, nofun⟩
          funext other
          simp [contentsAfter, inserted?]
      | ok code =>
          have contents := insert_contents logger bytes code ⟨after.own.1, after.host⟩
          have stores := @insert_stores logger bytes code
          dsimp only
          simp only [← map_eq_pure_bind, Run.run_map, Run.run_onFirst]
          cases stored : (insert logger bytes code).run ⟨after.own.1, after.host⟩ with
          | mk outcome finish =>
              rw [stored] at contents
              constructor
              · funext other
                rw [contents other, contentsAfter]
                show _ = (after.own.1.get? other <|> _)
                simp only [inserted?, stored]
              · intro returned same
                cases outcome with
                | error ending => cases same
                | ok written =>
                    cases same
                    exact stores stored

/-- A classification ends without a resolver call or makes one. In the first case the table is as
before, and a returned code was stored; in the second the answer is inserted if it has a key, which
is the fingerprint.
-/
theorem classify_cases (logger : Logger) (value : Shape)
    (resolve : Run (FingerprintTable × ω) Typecode) (state : Hosted (FingerprintTable × ω))
    : let finish := (Layer.classify logger value resolve).run state
      ((∀ inside, Layer.momentsWithin logger value resolve inside state = [])
        ∧ finish.2.own.1 = state.own.1
        ∧ ∀ code bytes,
            finish.1 = .ok (some code)
            → (value.fingerprint.run state).1 = .ok bytes
            → state.own.1.get? bytes = some code)
      ∨ ∃ key probed,
          probed.own = state.own
          ∧ (∀ inside, Layer.momentsWithin logger value resolve inside state
            = Layer.momentsOfCall key value resolve inside probed)
          ∧ (∀ bytes, (value.fingerprint.run state).1 = .ok bytes ↔ key = some bytes)
          ∧ finish.2.own.1.get?
            = contentsAfter logger
              (let answered := (Layer.call (key.map Key.fingerprint) value resolve).run probed
              ⟨.answered key answered.1, answered.2⟩)
          ∧ ∀ code bytes,
              finish.1 = .ok (some code) → key = some bytes
              → finish.2.own.1.get? bytes = some code := by
  dsimp only
  rw [Layer.classify, Run.run_bind]
  unfold Layer.momentsWithin
  cases looked : (Run.onFirst (Layer.probe logger value)).run state with
  | mk outcome probed =>
      obtain ⟨own, verdict⟩ := probe_beside looked
      cases outcome with
      | error ending =>
          left
          refine ⟨fun _ => rfl, congrArg Prod.fst own, ?_⟩
          intro code bytes returned
          cases returned
      | ok said =>
          rcases verdict said rfl with ⟨bytes, printed, rfl⟩ | ⟨unprinted, rfl⟩
          · rw [printed, FingerprintTable.verdict]
            cases found : state.own.1.get? bytes with
            | some stored =>
                left
                refine ⟨fun _ => rfl, congrArg Prod.fst own, ?_⟩
                intro code other returned same
                cases returned
                cases same
                exact found
            | none =>
                right
                refine ⟨some bytes, probed, own, fun _ => rfl, ?_, ?_, ?_⟩
                · intro other
                  simp
                · exact (insert_answer logger bytes value resolve probed).1
                · intro code other returned same
                  cases same
                  exact (insert_answer logger bytes value resolve probed).2 code returned
          · right
            refine ⟨none, probed, own, fun _ => rfl, ?_, ?_, ?_⟩
            · intro other
              simp [unprinted]
            · funext other
              dsimp only
              rw [Run.run_bind]
              cases called : (Layer.call none value resolve).run probed with
              | mk answer after => cases answer <;> simp [contentsAfter, inserted?, called]
            · intro code bytes _ same
              cases same

/-- Only a finished resolver call brings anything to the table. -/
theorem contentsAfter_eq {moment : Moment FingerprintTable Bytes ω}
    (quiet : ∀ key answer, moment.stage ≠ .answered (some key) answer)
    : contentsAfter logger moment = moment.layer.get? := by
  funext bytes
  have nothing : inserted? logger bytes moment = none := by
    rw [inserted?]
    split
    · rename_i stage
      exact absurd stage (quiet _ _)
    · rfl
  rw [contentsAfter, nothing, Option.orElse_eq_orElse, Option.orElse_eq_or, Option.or_none]

/-- What is accounted for in a stretch: what changes between its moments, and what its calls leave
behind.
-/
def Accounted (logger : Logger) (before : FingerprintTable)
    (moments : List (Moment FingerprintTable Bytes ω)) (after : FingerprintTable) : Prop :=
  Linked logger before.get? moments after.get? ∧ Settled moments

/-- The moments of a resolver call are linked if those of its work are. -/
theorem linked_momentsOfCall (key : Option Bytes) (value : Shape)
    {resolve : Run (FingerprintTable × ω) Typecode}
    {inside : Hosted (FingerprintTable × ω) → List (Moment FingerprintTable Bytes ω)}
    (work : ∀ state, Accounted logger state.own.1 (inside state) (resolve.run state).2.own.1)
    (state : Hosted (FingerprintTable × ω))
    : Linked logger state.own.1.get? (Layer.momentsOfCall key value resolve inside state)
        (contentsAfter logger
          (let answered := (Layer.call (key.map Key.fingerprint) value resolve).run state
          ⟨.answered key answered.1, answered.2⟩)) := by
  refine ⟨rfl, ?_⟩
  rw [contentsAfter_eq]
  · exact (work (Layer.calling key value state)).1.append ⟨rfl, rfl⟩
  · exact nofun

/-- The moments of a classification are linked if those of its resolver's work are. -/
theorem linked_moments {value : Shape} {resolve : Run (FingerprintTable × ω) Typecode}
    {inside : Hosted (FingerprintTable × ω) → List (Moment FingerprintTable Bytes ω)}
    (work : ∀ state, Accounted logger state.own.1 (inside state) (resolve.run state).2.own.1)
    (state : Hosted (FingerprintTable × ω))
    : Linked logger state.own.1.get? (Layer.moments logger value resolve inside state)
        ((Layer.classify logger value resolve).run state).2.own.1.get? := by
  refine ⟨rfl, ?_⟩
  rw [contentsAfter_eq]
  · suffices within : Linked logger state.own.1.get?
        (Layer.momentsWithin logger value resolve inside state)
        ((Layer.classify logger value resolve).run state).2.own.1.get? from
      within.append ⟨rfl, contentsAfter_eq nofun⟩
    rcases classify_cases logger value resolve state with
      ⟨nothing, kept, -⟩ | ⟨key, probed, own, called, -, contents, -⟩
    · rw [nothing]
      exact congrArg get? kept.symm
    · rw [called, contents]
      have linked := linked_momentsOfCall key value work probed
      rwa [own] at linked
  · exact nofun

/-- A classification leaves behind what it should if its resolver's work does. -/
theorem settled_moments {value : Shape} {resolve : Run (FingerprintTable × ω) Typecode}
    {inside : Hosted (FingerprintTable × ω) → List (Moment FingerprintTable Bytes ω)}
    (work : ∀ state, Accounted logger state.own.1 (inside state) (resolve.run state).2.own.1)
    (state : Hosted (FingerprintTable × ω))
    : Settled (Layer.moments logger value resolve inside state) := by
  rcases classify_cases logger value resolve state with
    ⟨nothing, kept, known⟩ | ⟨key, probed, -, called, keyed, -, stored⟩
  · rw [Layer.moments, nothing]
    refine ⟨?_, ?_⟩
    · intro moment member key answer stage
      simp only [List.nil_append, List.mem_cons, List.not_mem_nil, or_false] at member
      rcases member with rfl | rfl <;> cases stage
    · intro moment member value' entry code bytes stage printed
      simp only [List.nil_append, List.mem_cons, List.not_mem_nil, or_false] at member
      rcases member with rfl | rfl
      · cases stage
      · obtain ⟨rfl, rfl, ends⟩ := Stage.returned.inj stage
        exact (congrArg (get? · bytes) kept).trans (known code bytes ends printed)
  · have settled := (work (Layer.calling key value probed)).2
    rw [Layer.moments, called]
    refine ⟨?_, ?_⟩
    · intro moment member key' answer stage
      simp only [Layer.momentsOfCall, List.mem_cons, List.mem_append, List.not_mem_nil, or_false]
        at member
      rcases member with rfl | (rfl | within | rfl) | rfl
      · cases stage
      · cases stage
      · obtain ⟨entry, found, more⟩ := settled.keyed moment within key' answer stage
        refine ⟨entry, ?_, more⟩
        simp [Layer.momentsOfCall, found]
      · obtain ⟨rfl, -⟩ := Stage.answered.inj stage
        exact ⟨_, List.mem_cons_self, value, rfl, (keyed key').mpr rfl⟩
      · cases stage
    · intro moment member value' entry code bytes stage printed
      simp only [Layer.momentsOfCall, List.mem_cons, List.mem_append, List.not_mem_nil, or_false]
        at member
      rcases member with rfl | (rfl | within | rfl) | rfl
      · cases stage
      · cases stage
      · exact settled.stored moment within value' entry code bytes stage printed
      · cases stage
      · obtain ⟨rfl, rfl, ends⟩ := Stage.returned.inj stage
        exact stored code bytes ends ((keyed bytes).mp printed)

/-- Every stretch of a run is accounted for. -/
theorem account (logger : Logger) : Procedure.Account logger (@Accounted ω logger) where
  idle _ := ⟨rfl, nofun, nofun⟩
  append _ _ _ _ _ left right := ⟨left.1.append right.1, left.2.append right.2⟩
  classify _ _ _ work state :=
    ⟨linked_moments work state, settled_moments work state⟩

-----------------------------------------------------------------------------------------
-- The first stored code stays
-----------------------------------------------------------------------------------------

/-- The tables of a linked stretch, and the one after it, extend each other in the order of time,
by induction over the stretch.
-/
theorem Linked.tables {before : Contents} {moments : List (Moment FingerprintTable Bytes ω)}
    {after : FingerprintTable} (linked : Linked logger before moments after.get?)
    : (moments.map Moment.layer ++ [after]).Pairwise (fun earlier later => later.Extends earlier)
      ∧ ∀ table ∈ moments.map Moment.layer ++ [after],
          ∀ bytes code, before bytes = some code → table.get? bytes = some code := by
  induction moments generalizing before with
  | nil =>
      obtain rfl : before = after.get? := linked
      simp
  | cons moment rest ih =>
      obtain ⟨ordered, kept⟩ := ih linked.2
      have grows bytes code (found : moment.layer.get? bytes = some code)
          : contentsAfter logger moment bytes = some code := by
        rw [contentsAfter, found]
        rfl
      constructor
      · refine List.pairwise_cons.mpr ⟨?_, ordered⟩
        intro table member bytes code found
        exact kept table member bytes code (grows bytes code found)
      · intro table member bytes code found
        rw [← linked.1] at found
        rcases List.mem_cons.mp member with rfl | member
        · exact found
        · exact kept table member bytes code (grows bytes code found)

/-- A key that some moment brought is the fingerprint of an entered value. -/
theorem Settled.entered {moments past : List (Moment FingerprintTable Bytes ω)}
    (settled : Settled moments) (included : past ⊆ moments) {bytes : Bytes} {code : Typecode}
    (brought : past.findSome? (inserted? logger bytes) = some code)
    : ∃ entry ∈ moments, ∃ value,
        entry.stage = .entered value ∧ (value.fingerprint.run entry.state).1 = .ok bytes := by
  obtain ⟨moment, member, found⟩ := List.exists_of_findSome?_eq_some brought
  rw [inserted?] at found
  split at found
  · rename_i key answer stage
    split at found
    · rename_i same
      obtain ⟨rfl, -⟩ := same
      exact settled.keyed moment (included member) _ _ stage
    · cases found
  · cases found

/-- If the logger spares the layers, every answer that is wanted under a key reaches the table. -/
theorem inserted?_of_spares (spares : logger.SparesLayers)
    {moment : Moment FingerprintTable Bytes ω} {bytes : Bytes} {code : Typecode}
    (stage : moment.stage = .answered (some bytes) (.ok code))
    : inserted? logger bytes moment = some code := by
  obtain ⟨stored, after, answered, -⟩ :=
    insert_spared spares bytes code ⟨moment.layer, moment.state.host⟩
  simp only [inserted?, stage, answered, Except.isOk, Except.toBool, and_self, if_true]

/-- What holds of the moments of a run that began with a new table, and of the table after it. -/
structure FirstCodeStays (logger : Logger) (moments : List (Moment FingerprintTable Bytes ω))
    (final : FingerprintTable)
    : Prop where
  /-- No entry is ever changed or removed. -/
  grows
    : (moments.map Moment.layer ++ [final]).Pairwise (fun earlier later => later.Extends earlier)
  /-- A code returned for a value with a fingerprint is stored under it from then on. -/
  stored
    : ∀ past moment future value entry code bytes,
        moments = past ++ moment :: future
        → moment.stage = .returned value entry (.ok (some code))
        → (value.fingerprint.run entry).1 = .ok bytes
        → ∀ table ∈ (moment :: future).map Moment.layer ++ [final], table.get? bytes = some code
  /-- Codes returned for the same fingerprint are equal, at whatever depth. -/
  agree
    : ∀ first ∈ moments, ∀ second ∈ moments, ∀ value value' entry entry' code code' bytes,
        first.stage = .returned value entry (.ok (some code))
        → second.stage = .returned value' entry' (.ok (some code'))
        → (value.fingerprint.run entry).1 = .ok bytes
        → (value'.fingerprint.run entry').1 = .ok bytes
        → code = code'
  /-- What is stored is the answer of the first call that brought one. -/
  first
    : ∀ past moment future,
        moments = past ++ moment :: future
        → ∀ bytes, moment.layer.get? bytes = past.findSome? (inserted? logger bytes)
  firstFinal : ∀ bytes, final.get? bytes = moments.findSome? (inserted? logger bytes)
  /-- Under a logger that spares the layers, every call that ends with an answer brings it. -/
  brought
    : logger.SparesLayers
      → ∀ moment ∈ moments, ∀ bytes code,
          moment.stage = .answered (some bytes) (.ok code)
          → inserted? logger bytes moment = some code
  /-- Every key is the fingerprint of a value that was passed to some call. -/
  keys
    : ∀ table ∈ moments.map Moment.layer ++ [final], ∀ bytes code,
        table.get? bytes = some code
        → ∃ entry ∈ moments, ∃ value,
            entry.stage = .entered value ∧ (value.fingerprint.run entry.state).1 = .ok bytes

theorem empty_get? : empty.get? = fun _ => none := by
  funext bytes
  exact Std.HashMap.getElem?_empty

/-- What is accounted for from a new table on has every such property. -/
theorem Accounted.firstCodeStays {moments : List (Moment FingerprintTable Bytes ω)}
    {final : FingerprintTable} (accounted : Accounted logger empty moments final)
    : FirstCodeStays logger moments final := by
  obtain ⟨linked, settled⟩ := accounted
  rw [empty_get?] at linked
  have stored past moment future value entry code bytes
      (split : moments = past ++ moment :: future)
      (stage : moment.stage = .returned value entry (.ok (some code)))
      (printed : (value.fingerprint.run entry).1 = .ok bytes)
      : ∀ table ∈ (moment :: future).map Moment.layer ++ [final],
          table.get? bytes = some code := by
    subst split
    have found := settled.stored moment (by simp) value entry code bytes stage printed
    intro table member
    exact linked.split.2.tables.2 table member bytes code found
  have last moment (member : moment ∈ moments) value entry code bytes
      (stage : moment.stage = .returned value entry (.ok (some code)))
      (printed : (value.fingerprint.run entry).1 = .ok bytes)
      : final.get? bytes = some code := by
    obtain ⟨past, future, split⟩ := List.append_of_mem member
    exact stored past moment future value entry code bytes split stage printed final (by simp)
  have first (past : List (Moment FingerprintTable Bytes ω))
      (moment : Moment FingerprintTable Bytes ω) future
      (split : moments = past ++ moment :: future) (bytes : Bytes)
      : moment.layer.get? bytes = past.findSome? (inserted? logger bytes) := by
    subst split
    rw [linked.split.1.contents bytes]
    rfl
  have firstFinal (bytes : Bytes)
      : final.get? bytes = moments.findSome? (inserted? logger bytes) := by
    rw [linked.contents bytes]
    rfl
  refine ⟨linked.tables.1, stored, ?_, first, firstFinal, ?_, ?_⟩
  · intro moment member moment' member' value value' entry entry' code code' bytes stage stage'
      printed printed'
    have found := last moment member value entry code bytes stage printed
    have found' := last moment' member' value' entry' code' bytes stage' printed'
    exact Option.some.inj (found.symm.trans found')
  · intro spares moment _ bytes code stage
    exact inserted?_of_spares spares stage
  · intro table member bytes code found
    rcases List.mem_append.mp member with member | member
    · obtain ⟨moment, occurs, rfl⟩ := List.mem_map.mp member
      obtain ⟨past, future, split⟩ := List.append_of_mem occurs
      rw [first past moment future split bytes] at found
      exact settled.entered (by simp [split]) found
    · obtain rfl := List.mem_singleton.mp member
      rw [firstFinal bytes] at found
      exact settled.entered (List.Subset.refl _) found

/-- The first stored code stays, however deeply calls nest. On a new table any number of programs
may be carried out, whose resolvers answer and fail as they like, may panic, and may have the same
table classify further values.
-/
theorem first_code_stays (logger : Logger) (programs : List (Procedure ω)) (resolver : ω)
    (host : Host)
    : FirstCodeStays logger (Procedure.momentsAll logger programs ⟨(empty, resolver), host⟩)
        (Procedure.runAll logger programs ⟨(empty, resolver), host⟩).own.1 :=
  ((account logger).procedures programs ⟨(empty, resolver), host⟩).firstCodeStays

/-- The inner of two calls for one value stores its answer first; the outer answer is dropped. -/
example
    : let inner : Procedure Unit := .done (.ok ⟨1⟩)
      let outer : Procedure Unit := .classify .int (fun _ => inner) fun _ => .done (.ok ⟨2⟩)
      let program : Procedure Unit := .classify .int (fun _ => outer) fun _ => .done (.ok ⟨3⟩)
      let start : Hosted (FingerprintTable × Unit) := ⟨(.empty, ()), .fresh⟩
      (program.moments .steady start).map (fun moment => moment.layer.get? [105])
        = [none, none, none, none, none, some ⟨1⟩, some ⟨1⟩, some ⟨1⟩] := by
  cbv

end FingerprintTable

end Typecodes
