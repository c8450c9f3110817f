import Typecodes.Dispatcher
import Typecodes.Proofs.ClassificationCourse

/-! What runs leave alone of the host. A layer writes lines to the log while it takes its table in
use or stores a code, and does nothing else to the host then; so whatever part of the host is no
matter of the log is as it was before, however that ends.
-/

namespace Typecodes

variable {γ : Type}

/-- A part of the host that lines of the log do not belong to. -/
def Host.Unlogged (part : Host → γ) : Prop :=
  ∀ (host : Host) (line : LogLine), part (host.note (.line line)) = part host

/-- A run that leaves a part of the host as it is, however it ends. -/
def Run.Leaves {σ α : Type} (part : Host → γ) (work : Run σ α) : Prop :=
  ∀ state, part (work.run state).2.host = part state.host

variable {part : Host → γ}

namespace Run.Leaves

variable {σ τ α β : Type}

theorem ofPure (answer : α) : (pure answer : Run σ α).Leaves part :=
  fun _ => rfl

theorem ofLog (unlogged : Host.Unlogged part) (logger : Logger) (line : LogLine)
    : (Run.log logger line : Run σ Unit).Leaves part := by
  intro state
  rw [Run.run_log]
  exact unlogged state.host line

theorem next {work : Run σ α} {more : α → Run σ β} (first : work.Leaves part)
    (second : ∀ answer, (more answer).Leaves part)
    : (work >>= more).Leaves part := by
  intro state
  have early := first state
  rw [Run.run_bind]
  cases ran : work.run state with
  | mk outcome after =>
      rw [ran] at early
      cases outcome with
      | ok answer => exact (second answer after).trans early
      | error ending => exact early

theorem within {view : σ → τ} {put : σ → τ → σ} {work : Run τ α} (inside : work.Leaves part)
    : (Run.within view put work).Leaves part :=
  fun state => inside ⟨view state.own, state.host⟩

theorem attempt {work : Run σ α} (inside : work.Leaves part) : (Run.attempt work).Leaves part := by
  intro state
  have same := inside state
  rw [Run.run_attempt]
  cases ran : work.run state with
  | mk outcome after =>
      rw [ran] at same
      rcases outcome with (cause | _) | answer <;> exact same

theorem onStop {change : σ → σ} {work : Run σ α} (inside : work.Leaves part)
    : (Run.onStop change work).Leaves part := by
  intro state
  have same := inside state
  cases ran : work.run state with
  | mk outcome after =>
      rw [ran] at same
      simp only [Run.onStop, ran]
      cases outcome <;> exact same

end Run.Leaves

-----------------------------------------------------------------------------------------
-- What the layers do
-----------------------------------------------------------------------------------------

variable {logger : Logger}

/-- After a resolver's call a layer does no more than to store the answer. -/
theorem Layer.conclusion_leaves {σ κ ω : Type} [Layer σ κ]
    (stores : ∀ key code, (Layer.store logger key code : Run σ Typecode).Leaves part)
    (key : Option κ) (answer : Except Stop Typecode)
    : (Run.ofExcept answer >>= keep logger key : Run (σ × ω) (Option Typecode)).Leaves part := by
  refine Run.Leaves.next (by cases answer <;> exact fun _ => rfl) fun code => ?_
  cases key with
  | none => exact .ofPure (some code)
  | some key =>
      exact Run.Leaves.next (stores key code).within fun stored => .ofPure (some stored)

variable (unlogged : Host.Unlogged part)

namespace FingerprintTable

include unlogged

theorem lock_leaves : (lock logger).Leaves part := by
  refine Run.Leaves.next (fun _ => rfl) fun table => ?_
  split
  · exact .ofLog unlogged logger .recovered
  · exact .ofPure ()

theorem insert_leaves (bytes : Bytes) (code : Typecode)
    : (insert logger bytes code).Leaves part := by
  have logged (line : LogLine) : (logInside logger line).Leaves part :=
    .onStop (.ofLog unlogged logger line)
  refine (lock_leaves unlogged).next fun _ => ?_
  refine Run.Leaves.next (fun _ => rfl) fun table => ?_
  cases table.get? bytes with
  | some stored =>
      dsimp only
      split
      · exact (logged _).next fun _ => .ofPure stored
      · exact .ofPure stored
  | none => exact (logged _).next fun _ _ => rfl

end FingerprintTable

include unlogged

theorem ArrayGrid.fill_leaves (slot : GridSlot) (code : Typecode)
    : (fill logger slot code).Leaves part := by
  refine (Run.Leaves.ofLog unlogged logger _).next fun _ => ?_
  refine Run.Leaves.next (fun _ => rfl) fun grid => ?_
  cases grid.set? slot code <;> exact fun _ => rfl

theorem Dispatcher.store_leaves (place : Place) (code : Typecode)
    : (store logger place code).Leaves part := by
  intro state
  cases place with
  | inl bytes =>
      exact FingerprintTable.insert_leaves unlogged bytes code ⟨state.own.table, state.host⟩
  | inr slot => exact ArrayGrid.fill_leaves unlogged slot code ⟨state.own.grid, state.host⟩

end Typecodes
