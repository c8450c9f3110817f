import Mathlib.Data.List.Forall2
import Typecodes.Run

/-! What is done for the items of a list one after the other: an optional answer for each, or a run
for each from the state that the one before left. What holds of every step holds of all.
-/

/-- Answers for all of a list are answers one by one, by induction over the list. -/
theorem List.mapM_eq_some_iff_forall₂ {α β : Type} {f : α → Option β} {items : List α}
    {answers : List β}
    : items.mapM f = some answers
      ↔ List.Forall₂ (fun item answer => f item = some answer) items answers := by
  induction items generalizing answers with
  | nil => cases answers <;> simp
  | cons item rest ih =>
      cases first : f item with
      | none =>
          rw [List.mapM_cons, first, List.forall₂_cons_left_iff]
          simp [first]
      | some answer =>
          cases others : rest.mapM f <;> cases answers
            <;> simp [List.mapM_cons, first, others, ← ih]

namespace Typecodes

/-- Works on values one after the other, whatever the outcomes, and lists the outcome and the state
after each.
-/
def Run.each {σ α β : Type} (work : α → Run σ β)
    : List α → Hosted σ → List (Except Stop β × Hosted σ)
  | [], _ => []
  | value :: rest, state => (work value).run state :: each work rest ((work value).run state).2

/-- Runs that step by step keep two states related are related at every step, by induction over the
values.
-/
theorem Run.each_related {σ σ' α β β' : Type} {work : α → Run σ β} {work' : α → Run σ' β'}
    {values : List α} (related : Hosted σ → Hosted σ' → Prop)
    {agree : Except Stop β × Hosted σ → Except Stop β' × Hosted σ' → Prop}
    (step
      : ∀ value ∈ values, ∀ state state',
          related state state'
          → agree ((work value).run state) ((work' value).run state')
            ∧ related ((work value).run state).2 ((work' value).run state').2)
    {state : Hosted σ} {state' : Hosted σ'} (start : related state state')
    : List.Forall₂ agree (Run.each work values state) (Run.each work' values state') := by
  induction values generalizing state state' with
  | nil => exact .nil
  | cons value rest ih =>
      obtain ⟨agrees, next⟩ := step value List.mem_cons_self state state' start
      exact .cons agrees (ih (fun value member => step value (List.mem_cons_of_mem _ member)) next)

/-- What every step from a state with the invariant ensures, together with the invariant afterwards,
is ensured at every step, by induction over the values.
-/
theorem Run.each_ensures {σ α β : Type} {work : α → Run σ β} {values : List α}
    (invariant : Hosted σ → Prop) {ensures : α → Except Stop β × Hosted σ → Prop}
    (step
      : ∀ value ∈ values, ∀ state,
          invariant state
          → ensures value ((work value).run state) ∧ invariant ((work value).run state).2)
    {state : Hosted σ} (start : invariant state)
    : List.Forall₂ ensures values (Run.each work values state) := by
  induction values generalizing state with
  | nil => exact .nil
  | cons value rest ih =>
      obtain ⟨ensured, next⟩ := step value List.mem_cons_self state start
      exact .cons ensured (ih (fun value member => step value (List.mem_cons_of_mem _ member)) next)

/-- What every single run has, the runs on any values one after the other have, by induction over
the values.
-/
theorem Run.each_forall {σ α β : Type} {work : α → Run σ β}
    {property : Except Stop β × Hosted σ → Prop}
    (step : ∀ value state, property ((work value).run state)) (values : List α) (state : Hosted σ)
    : ∀ finish ∈ Run.each work values state, property finish := by
  induction values generalizing state with
  | nil => nofun
  | cons value rest ih =>
      intro finish member
      rcases List.mem_cons.mp member with rfl | member
      · exact step value state
      · exact ih _ finish member

end Typecodes
