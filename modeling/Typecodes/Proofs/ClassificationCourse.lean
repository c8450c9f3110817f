import Typecodes.Proofs.Moments

/-! The course of one classification on any layer. The layer says something about the value, and
either that is the end of it or the resolver is called once. An answer that is wanted under a key is
then stored; nothing else is done with it.
-/

namespace Typecodes

namespace Verdict

variable {κ : Type}

/-- What a layer says where no resolver has to be called. -/
def ofCode? : Option Typecode → Verdict κ
  | some code => .known code
  | none => .unserved

/-- What a layer says where a resolver has to be called, and what the answer is stored under. -/
def awaiting : Option κ → Verdict κ
  | some key => .missing key
  | none => .uncached

end Verdict

namespace Layer

variable {σ κ ω : Type} [Layer σ κ]

/-- What is done with a resolver's answer: it is stored if it is wanted under a key. -/
def keep (logger : Logger) : Option κ → Typecode → Run (σ × ω) (Option Typecode)
  | some key, code => do return some (← Run.onFirst (Layer.store logger key code))
  | none, code => return some code

/-- Keeping an answer that is wanted under a key is to store it, beside the resolver's state. -/
theorem run_keep (logger : Logger) (key : κ) (code : Typecode) (state : Hosted (σ × ω))
    : (keep logger (some key) code).run state
      = (((Layer.store logger key code).run ⟨state.own.1, state.host⟩).1.map some,
        ⟨(((Layer.store logger key code).run ⟨state.own.1, state.host⟩).2.own, state.own.2),
          ((Layer.store logger key code).run ⟨state.own.1, state.host⟩).2.host⟩) := by
  have unfolded : keep logger (some key) code
      = (some <$> Run.onFirst (Layer.store logger key code) : Run (σ × ω) (Option Typecode)) :=
    rfl
  rw [unfolded, Run.run_map, Run.run_onFirst]

/-- The state after a resolver's work that ended with the given answer. -/
def answering (key : Option κ) (answer : Except Stop Typecode) (worked : Hosted (σ × ω))
    : Hosted (σ × ω) :=
  ⟨worked.own, worked.host.note (.answered (key.map (Layer.key σ)) answer)⟩

/-- How a classification may go and end. -/
inductive Course (logger : Logger) (value : Shape) (resolve : Run (σ × ω) Typecode)
    (state : Hosted (σ × ω)) (finish : Except Stop (Option Typecode) × Hosted (σ × ω)) : Prop
  /-- The look-up stops, and nothing more happens. -/
  | stopped (ending : Stop) (probed : Hosted (σ × ω))
    (looked : (Run.onFirst (Layer.probe logger value)).run state = (.error ending, probed))
    (silent : ∀ inside, momentsWithin logger value resolve inside state = [])
    (ends : finish = (.error ending, probed))
  /-- What the look-up says is returned. -/
  | told (answer : Option Typecode) (probed : Hosted (σ × ω))
    (looked
      : (Run.onFirst (Layer.probe logger value)).run state = (.ok (.ofCode? answer), probed))
    (silent : ∀ inside, momentsWithin logger value resolve inside state = [])
    (ends : finish = (.ok answer, probed))
  /-- The resolver is called. Its stop is the end, and its answer is kept where it is wanted. -/
  | called (key : Option κ) (probed : Hosted (σ × ω)) (answer : Except Stop Typecode)
    (worked : Hosted (σ × ω))
    (looked : (Run.onFirst (Layer.probe logger value)).run state = (.ok (.awaiting key), probed))
    (works : resolve.run (calling key value probed) = (answer, worked))
    (calls
      : ∀ inside,
          momentsWithin logger value resolve inside state
          = ⟨.called key value, calling key value probed⟩
            :: (inside (calling key value probed)
              ++ [⟨.answered key answer, answering key answer worked⟩]))
    (ends
      : finish = (Run.ofExcept answer >>= keep logger key).run (answering key answer worked))

/-- A call that is made takes the course of its resolver's work. -/
theorem course_of_awaiting {logger : Logger} {value : Shape} {resolve : Run (σ × ω) Typecode}
    {state probed : Hosted (σ × ω)} (key : Option κ)
    {finish : Except Stop (Option Typecode) × Hosted (σ × ω)}
    (looked : (Run.onFirst (Layer.probe logger value)).run state = (.ok (.awaiting key), probed))
    (calls
      : ∀ inside,
          momentsWithin logger value resolve inside state
          = momentsOfCall key value resolve inside probed)
    (ends
      : finish = (call (key.map (Layer.key σ)) value resolve >>= keep logger key).run probed)
    : Course logger value resolve state finish := by
  have ran := run_call (key.map (Layer.key σ)) value resolve probed
  change (call (key.map (Layer.key σ)) value resolve).run probed
    = ((resolve.run (calling key value probed)).1,
      answering key (resolve.run (calling key value probed)).1
        (resolve.run (calling key value probed)).2) at ran
  simp only [momentsOfCall, ran] at calls
  rw [Run.run_bind, ran] at ends
  cases works : resolve.run (calling key value probed) with
  | mk answer worked =>
      rw [works] at calls ends
      exact .called key probed answer worked looked works calls (by rw [ends]; cases answer <;> rfl)

/-- Every classification takes one of these courses, by cases on what the look-up says. -/
theorem classify_course (logger : Logger) (value : Shape) (resolve : Run (σ × ω) Typecode)
    (state : Hosted (σ × ω))
    : Course logger value resolve state ((classify logger value resolve).run state) := by
  have unfolded : (classify logger value resolve).run state = _ :=
    Run.run_bind (Run.onFirst (Layer.probe logger value)) _ state
  cases looked : (Run.onFirst (Layer.probe logger value)).run state with
  | mk outcome probed =>
      rw [looked] at unfolded
      cases outcome with
      | error ending =>
          exact .stopped ending probed looked (fun _ => by rw [momentsWithin, looked]) unfolded
      | ok said =>
          cases said with
          | unserved =>
              exact .told none probed looked (fun _ => by rw [momentsWithin, looked]) unfolded
          | known code =>
              exact .told (some code) probed looked (fun _ => by rw [momentsWithin, looked])
                unfolded
          | uncached =>
              exact course_of_awaiting none looked
                (fun _ => by rw [momentsWithin, looked]) unfolded
          | missing key =>
              exact course_of_awaiting (some key) looked
                (fun _ => by rw [momentsWithin, looked]) unfolded

end Layer

end Typecodes
