import Typecodes.Dispatcher
import Typecodes.Proofs.GridStorage
import Typecodes.Resolver

/-! Layers that remember codes by fingerprints. Seen through fingerprints, the fingerprint table and
the dispatcher are the same kind of layer: both have a stock of codes, answer from it, and add to it
what a resolver answers for a fingerprint that is not in stock. One classification then does the
same on any such layer, up to what hosts cannot tell apart.
-/

namespace Typecodes

/-- Codes in stock under fingerprints, and their number. -/
structure Stock where
  code? : Bytes → Option Typecode
  size : Nat

namespace Stock

def empty : Stock :=
  ⟨fun _ => none, 0⟩

/-- The stock with a code under a fingerprint that was not in it. -/
def add (stock : Stock) (bytes : Bytes) (code : Typecode) : Stock :=
  ⟨fun other => if other = bytes then some code else stock.code? other, stock.size + 1⟩

/-- The stock after a resolver call: it learns the answer if there are a fingerprint and an answer.
-/
def learn (stock : Stock) : Except Stop Bytes → Except Stop Typecode → Stock
  | .ok bytes, .ok code => stock.add bytes code
  | _, _ => stock

end Stock

namespace Layer

variable {σ κ ω : Type} [Layer σ κ] {logger : Logger} {holds : σ → Stock → Prop}

/-- A key that a code may be stored under on any state of the layer in which the fingerprint is
vacant, which adds the code to the stock.
-/
def StoresUnder (logger : Logger) (holds : σ → Stock → Prop) (key : κ) (bytes : Bytes) : Prop :=
  ∀ ⦃layer stock⦄,
    holds layer stock
    → stock.code? bytes = none
    → ∀ code host, ∃ next after,
        (Layer.store logger key code).run ⟨layer, host⟩ = (.ok code, ⟨next, after⟩)
        ∧ after.Alike host
        ∧ holds next (stock.add bytes code)

/-- What a layer that holds a stock may say about a value, given the value's fingerprint. A key that
is missing must be ready to be stored under, now or later.
-/
inductive Speaks (logger : Logger) (holds : σ → Stock → Prop) (stock : Stock)
    : Except Stop Bytes → Verdict κ → Prop
  | known {bytes code} (found : stock.code? bytes = some code)
    : Speaks logger holds stock (.ok bytes) (.known code)
  | missing {bytes key} (vacant : stock.code? bytes = none)
    (stores : StoresUnder logger holds key bytes)
    : Speaks logger holds stock (.ok bytes) (.missing key)
  | uncached {ending} : Speaks logger holds stock (.error ending) .uncached

/-- A layer remembers codes by fingerprints if a look-up tells what is in stock and leaves the layer
alone, and leaves a host as the computation of the fingerprint does.
-/
def Remembers (logger : Logger) (holds : σ → Stock → Prop) : Prop :=
  ∀ ⦃layer stock⦄,
    holds layer stock
    → ∀ value host, ∃ said after,
        (Layer.probe logger value).run ⟨layer, host⟩ = (.ok said, ⟨layer, after⟩)
        ∧ after.Alike (value.fingerprint.run (⟨(), host⟩ : Hosted Unit)).2.host
        ∧ Speaks logger holds stock (value.fingerprint.run (⟨(), host⟩ : Hosted Unit)).1 said

/-- In the middle of a classification, a resolver that leaves the layer alone works as it would on
its own, and only its answer matters to what comes next.
-/
theorem run_call_second {β : Type} (key : Option Key) (value : Shape) (answer : Run ω Typecode)
    (layer : σ) (own : ω) {host printed : Host} (alike : host.Alike printed)
    (next : Typecode → Run (σ × ω) β)
    : let answered := answer.run ⟨own, printed.rested⟩
      ∃ after : Host,
        (call key value (Run.onSecond answer) >>= next).run ⟨(layer, own), host⟩
          = (match answered.1 with
            | .ok code => (next code).run ⟨(layer, answered.2.own), after⟩
            | .error ending => (.error ending, ⟨(layer, answered.2.own), after⟩))
        ∧ after.Alike ((printed.note (.called none value)).resume answered.2.host) := by
  have start : (host.note (.called key value)).rested = printed.rested := alike.rested
  rw [Run.run_bind, run_call, Run.run_onSecond]
  simp only [start]
  cases answer.run ⟨own, printed.rested⟩ with
  | mk reply finish =>
      have likewise (marked : Note) (noEvent : marked.event? = none) (noCall : marked.value? = none)
          : ((((host.note (.called key value)).resume finish.host).note marked).Alike
            ((printed.note (.called none value)).resume finish.host)) :=
        (Host.Alike.note noEvent noCall _).trans ((alike.called key none value).resume _)
      cases reply with
      | ok code => exact ⟨_, rfl, likewise _ rfl rfl⟩
      | error ending => exact ⟨_, rfl, likewise _ rfl rfl⟩

/-- One classification on a layer that remembers. A code in stock is returned as it is; otherwise
the resolver's outcome is returned and learnt.
-/
theorem Remembers.classify (remembers : Remembers logger holds) {layer : σ} {stock : Stock}
    (holding : holds layer stock) (answer : Shape → Run ω Typecode) (value : Shape) (own : ω)
    (host : Host)
    : let printed := value.fingerprint.run (⟨(), host⟩ : Hosted Unit)
      let answered := (answer value).run ⟨own, printed.2.host.rested⟩
      let finish := (Resolver.classify logger (.ofRun answer) value).run ⟨(layer, own), host⟩
      (∃ bytes code,
        printed.1 = .ok bytes
        ∧ stock.code? bytes = some code
        ∧ finish.1 = .ok (some code)
        ∧ finish.2.own = (layer, own)
        ∧ finish.2.host.Alike printed.2.host)
      ∨ ((∀ bytes, printed.1 = .ok bytes → stock.code? bytes = none)
        ∧ finish.1 = answered.1.map some
        ∧ finish.2.own.2 = answered.2.own
        ∧ finish.2.host.Alike
            ((printed.2.host.note (.called none value)).resume answered.2.host)
        ∧ holds finish.2.own.1 (stock.learn printed.1 answered.1)) := by
  intro printed answered finish
  have resolved : ((Resolver.ofRun answer value).run logger : Run (σ × ω) Typecode)
      = Run.onSecond (answer value) :=
    bind_pure _
  obtain ⟨said, probed, looked, alike, speaks⟩ := remembers holding value host
  have beside
      : (Run.onFirst (Layer.probe logger value)).run ⟨(layer, own), host⟩
        = (.ok said, ⟨(layer, own), probed⟩) := by
    rw [Run.run_onFirst, looked]
  have unfolded : finish = _ := Run.run_bind_ok _ beside
  rw [resolved] at unfolded
  change Speaks logger holds stock printed.1 said at speaks
  generalize shown : printed.1 = outcome at speaks ⊢
  cases speaks with
  | known found =>
      left
      rw [unfolded]
      exact ⟨_, _, rfl, found, rfl, rfl, alike⟩
  | @missing bytes key vacant stores =>
      right
      obtain ⟨called, ends, alike⟩ :=
        run_call_second (some (Layer.key σ key)) value (answer value) layer own alike fun code =>
          some <$> Run.onFirst (Layer.store logger key code)
      have ends : finish = match answered.1 with
          | .ok code =>
              (some <$> Run.onFirst (Layer.store logger key code)).run
                ⟨(layer, answered.2.own), called⟩
          | .error ending => (.error ending, ⟨(layer, answered.2.own), called⟩) :=
        unfolded.trans ends
      change called.Alike ((printed.2.host.note (.called none value)).resume answered.2.host)
        at alike
      rw [ends]
      refine ⟨fun _ same => Except.ok.inj same ▸ vacant, ?_⟩
      clear_value answered
      obtain ⟨reply, after⟩ := answered
      cases reply with
      | error ending => exact ⟨rfl, rfl, alike, holding⟩
      | ok code =>
          obtain ⟨next, stored, ran, likewise, held⟩ := stores holding vacant code called
          dsimp only
          rw [Run.run_map, Run.run_onFirst, ran]
          exact ⟨rfl, rfl, likewise.trans alike, held⟩
  | uncached =>
      right
      obtain ⟨called, ends, alike⟩ :=
        run_call_second none value (answer value) layer own alike fun code => pure (some code)
      have ends : finish = match answered.1 with
          | .ok code => (.ok (some code), ⟨(layer, answered.2.own), called⟩)
          | .error ending => (.error ending, ⟨(layer, answered.2.own), called⟩) :=
        unfolded.trans ends
      change called.Alike ((printed.2.host.note (.called none value)).resume answered.2.host)
        at alike
      rw [ends]
      refine ⟨nofun, ?_⟩
      clear_value answered
      obtain ⟨reply, after⟩ := answered
      cases reply with
      | error ending => exact ⟨rfl, rfl, alike, holding⟩
      | ok code => exact ⟨rfl, rfl, alike, holding⟩

end Layer

namespace FingerprintTable

variable {logger : Logger}

/-- A table holds the stock of its entries. -/
structure Holds (table : FingerprintTable) (stock : Stock) : Prop where
  codes : ∀ bytes, table.get? bytes = stock.code? bytes
  size : table.size = stock.size

theorem holds_empty : empty.Holds .empty :=
  ⟨fun _ => Std.HashMap.getElem?_empty, rfl⟩

theorem storesUnder (spares : logger.SparesLayers) (bytes : Bytes)
    : Layer.StoresUnder logger Holds bytes bytes := by
  intro table stock holding vacant code host
  obtain ⟨next, after, ran, alike, reads, counts⟩ :=
    insert_vacant spares ((holding.codes bytes).trans vacant) code host
  refine ⟨next, after, ran, alike, ?_, ?_⟩
  · intro other
    rw [reads other, holding.codes other]
    rfl
  · rw [counts, holding.size]
    rfl

/-- The fingerprint table remembers codes by fingerprints. -/
theorem remembers (spares : logger.SparesLayers) : Layer.Remembers logger Holds := by
  intro table stock holding value host
  obtain ⟨outcome, printed⟩ := value.fingerprint_alike (.refl host) () table
  obtain ⟨said, after, looked, alike⟩ := probe_spared spares value ⟨table, host⟩
  refine ⟨said, after, looked, alike.trans printed.symm, ?_⟩
  rw [outcome]
  rcases probe_eq_ok looked with ⟨bytes, shown, rfl⟩ | ⟨unprinted, rfl⟩
  · rw [shown]
    have kept := holding.codes bytes
    unfold verdict
    cases found : table.get? bytes with
    | some code => exact .known (kept.symm.trans found)
    | none => exact .missing (kept.symm.trans found) (storesUnder spares bytes)
  · cases shown : (value.fingerprint.run ⟨table, host⟩).1 with
    | ok bytes => exact absurd shown (unprinted bytes)
    | error ending => exact .uncached

end FingerprintTable

namespace Dispatcher

variable {logger : Logger}

/-- A dispatcher holds the stock of both its layers. Fingerprints of served positions are in the
grid and only there; all others are in the table.
-/
structure Holds (dispatcher : Dispatcher) (stock : Stock) : Prop where
  sound : dispatcher.grid.Sound
  served
    : ∀ slot : GridSlot,
        slot.Served → stock.code? slot.fingerprint = dispatcher.grid.codeAt slot
  apart : ∀ slot : GridSlot, slot.Served → dispatcher.table.get? slot.fingerprint = none
  others
    : ∀ bytes,
        (∀ slot : GridSlot, slot.Served → bytes ≠ slot.fingerprint)
        → stock.code? bytes = dispatcher.table.get? bytes
  size : stock.size = dispatcher.table.size + dispatcher.grid.populated

theorem holds_ofCodes (elementary : ElementaryCodes)
    : (ofCodes elementary).Holds .empty where
  sound := ArrayGrid.sound_empty
  served slot _ := (ArrayGrid.codeAt_empty slot).symm
  apart _ _ := Std.HashMap.getElem?_empty
  others _ _ := Std.HashMap.getElem?_empty.symm
  size := by
    show 0 = FingerprintTable.empty.size + ArrayGrid.empty.populated
    have blank : ArrayGrid.empty.populated = 0 := by
      simp [ArrayGrid.populated, ArrayGrid.empty]
    rw [blank]
    rfl

/-- A value with a position is looked up in the grid. -/
theorem probe_of_slot (logger : Logger) {value : Shape} {slot : GridSlot}
    (belongs : value.slot? = some slot) {dispatcher : Dispatcher}
    (sound : dispatcher.grid.Sound) (host : Host)
    : (probe logger value).run ⟨dispatcher, host⟩
      = (.ok
          (match dispatcher.grid.codeAt slot with
          | some code => .known code
          | none => .missing (.inr slot)),
        ⟨dispatcher, host⟩) := by
  have looked := ArrayGrid.probe_of_slot belongs ⟨dispatcher.grid, host⟩ sound
  rw [probe, Run.run_bind, onGrid, Run.run_within, looked]
  cases dispatcher.grid.codeAt slot <;> rfl

/-- What the table tells, as the dispatcher tells it. -/
def fromTable : Verdict Bytes → Verdict Place
  | .known code => .known code
  | .uncached => .uncached
  | .missing bytes => .missing (.inl bytes)
  | .unserved => .unserved

/-- Any other value is looked up in the table. -/
theorem probe_elsewhere {value : Shape} (elsewhere : value.slot? = none) {dispatcher : Dispatcher}
    {said : Verdict Bytes} {host after : Host}
    (looked : (FingerprintTable.probe logger value).run ⟨dispatcher.table, host⟩
      = (.ok said, ⟨dispatcher.table, after⟩))
    : (probe logger value).run ⟨dispatcher, host⟩
      = (.ok (fromTable said), ⟨dispatcher, after⟩) := by
  have passed := ArrayGrid.probe_elsewhere elsewhere ⟨dispatcher.grid, host⟩
  rw [probe, Run.run_bind, onGrid, Run.run_within, passed]
  dsimp only
  rw [Run.run_bind, onTable, Run.run_within, looked]
  cases said <;> rfl

/-- Storing at a position adds to the stock of the grid. -/
theorem Holds.fill {dispatcher : Dispatcher} {stock : Stock} (holding : dispatcher.Holds stock)
    {slot : GridSlot} (served : slot.Served) (vacant : dispatcher.grid.codeAt slot = none)
    {code : Typecode} {next : ArrayGrid} (written : dispatcher.grid.Written slot code next)
    : { dispatcher with grid := next }.Holds (stock.add slot.fingerprint code) where
  sound := written.sound holding.sound
  served other serves := by
    by_cases same : other = slot
    · subst same
      simp [Stock.add, written.here]
    · have apart : other.fingerprint ≠ slot.fingerprint :=
        fun equal => same (GridSlot.fingerprint_inj equal)
      simp only [Stock.add, apart, if_false, holding.served other serves,
        written.elsewhere other same]
  apart := holding.apart
  others bytes foreign := by
    simp only [Stock.add, foreign slot served, if_false, holding.others bytes foreign]
  size := by
    have counted := written.counted holding.sound vacant
    have size := holding.size
    simp only [Stock.add]
    omega

/-- Storing under a fingerprint that is not of a position adds to the stock of the table. -/
theorem Holds.insert {dispatcher : Dispatcher} {stock : Stock} (holding : dispatcher.Holds stock)
    {bytes : Bytes} (foreign : ∀ slot : GridSlot, slot.Served → bytes ≠ slot.fingerprint)
    {code : Typecode} {next : FingerprintTable}
    (reads : ∀ other,
      next.get? other = if other = bytes then some code else dispatcher.table.get? other)
    (counts : next.size = dispatcher.table.size + 1)
    : { dispatcher with table := next }.Holds (stock.add bytes code) where
  sound := holding.sound
  served slot serves := by
    have apart : slot.fingerprint ≠ bytes := (foreign slot serves).symm
    simp only [Stock.add, apart, if_false, holding.served slot serves]
  apart slot serves := by
    rw [reads, if_neg (foreign slot serves).symm, holding.apart slot serves]
  others other elsewhere := by
    simp only [reads, Stock.add, holding.others other elsewhere]
  size := by
    have size := holding.size
    simp only [Stock.add]
    omega

/-- The fingerprint of a served position is stored at the position. -/
theorem storesUnder_slot (spares : logger.SparesLayers) {slot : GridSlot} (served : slot.Served)
    : Layer.StoresUnder logger Holds (.inr slot : Place) slot.fingerprint := by
  intro dispatcher stock holding vacant code host
  obtain ⟨next, ran, written⟩ :=
    ArrayGrid.fill_spared spares served code ⟨dispatcher.grid, host⟩
  have stored
      : (store logger (.inr slot) code).run ⟨dispatcher, host⟩
        = (.ok code, ⟨{ dispatcher with grid := next },
          host.note (.line (.slotFilled slot code))⟩) := by
    simp only [store, onGrid, Run.run_within, ran]
  have empty := (holding.served slot served).symm.trans vacant
  exact ⟨_, _, stored, .note rfl rfl host, holding.fill served empty written⟩

/-- Any other fingerprint is stored in the table. -/
theorem storesUnder_bytes (spares : logger.SparesLayers) {bytes : Bytes}
    (foreign : ∀ slot : GridSlot, slot.Served → bytes ≠ slot.fingerprint)
    : Layer.StoresUnder logger Holds (.inl bytes : Place) bytes := by
  intro dispatcher stock holding vacant code host
  obtain ⟨next, after, ran, alike, reads, counts⟩ :=
    FingerprintTable.insert_vacant spares ((holding.others bytes foreign).symm.trans vacant) code
      host
  have stored
      : (store logger (.inl bytes) code).run ⟨dispatcher, host⟩
        = (.ok code, ⟨{ dispatcher with table := next }, after⟩) := by
    simp only [store, onTable, Run.run_within, ran]
  exact ⟨_, _, stored, alike, holding.insert foreign reads counts⟩

/-- The dispatcher remembers codes by fingerprints, as the table alone does. -/
theorem remembers (spares : logger.SparesLayers) : Layer.Remembers logger Holds := by
  intro dispatcher stock holding value host
  cases position : value.slot? with
  | some slot =>
      have served := Shape.served_of_slot position
      have looked := probe_of_slot logger position holding.sound host
      rw [Shape.fingerprint_of_slot position]
      refine ⟨_, host, looked, .refl host, ?_⟩
      have kept := holding.served slot served
      cases found : dispatcher.grid.codeAt slot with
      | some code => exact .known (kept.trans found)
      | none => exact .missing (kept.trans found) (storesUnder_slot spares served)
  | none =>
      obtain ⟨outcome, printed⟩ := value.fingerprint_alike (.refl host) () dispatcher.table
      obtain ⟨said, after, looked, alike⟩ :=
        FingerprintTable.probe_spared spares value ⟨dispatcher.table, host⟩
      refine ⟨_, after, probe_elsewhere position looked, alike.trans printed.symm, ?_⟩
      rw [outcome]
      rcases FingerprintTable.probe_eq_ok looked with ⟨bytes, shown, rfl⟩ | ⟨unprinted, rfl⟩
      · have foreign (slot : GridSlot) (served : slot.Served) : bytes ≠ slot.fingerprint :=
          Shape.fingerprint_ne_slot position shown served
        have kept := holding.others bytes foreign
        rw [shown, FingerprintTable.verdict]
        cases found : dispatcher.table.get? bytes with
        | some code => exact .known (kept.trans found)
        | none => exact .missing (kept.trans found) (storesUnder_bytes spares foreign)
      · cases shown : (value.fingerprint.run ⟨dispatcher.table, host⟩).1 with
        | ok bytes => exact absurd shown (unprinted bytes)
        | error ending => exact .uncached

end Dispatcher

end Typecodes
