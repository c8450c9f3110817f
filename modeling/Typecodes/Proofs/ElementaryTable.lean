import Mathlib
import Typecodes.Proofs.Transparency

/-! The table of elementary typecodes. It is filled by name, one kind after the other, and holds
under each kind what its name stands for. Where a registry announces the names, they stand for the
number types of the kinds, so the codes in the table name these types.
-/

namespace Typecodes

namespace ElementaryKind

/-- No two kinds share a name. -/
theorem name_inj {first second : ElementaryKind} (same : first.name = second.name)
    : first = second := by
  revert same
  cases first <;> cases second <;> decide

theorem scalar_inj {first second : ElementaryKind} (same : first.scalar = second.scalar)
    : first = second :=
  name_inj (congrArg ScalarKind.name same)

end ElementaryKind

namespace ElementaryCodes

/-- What a table that was filled by name holds: under each kind asked for what its name stands for,
and under any other kind what it held before. Witness: induction over the kinds; a kind that comes
up again is entered anew with the same code.
-/
theorem fill_eq_ok {lookup : String → Option Typecode} {kinds : List ElementaryKind}
    {table filled : Vector Typecode ElementaryKind.count}
    (entered : fill (m := Id) (fun name => pure (lookup name)) kinds table = .ok filled)
    (kind : ElementaryKind)
    : (kind ∈ kinds → lookup kind.name = some (filled.get kind.index))
      ∧ (kind ∉ kinds → filled.get kind.index = table.get kind.index) := by
  induction kinds generalizing table with
  | nil =>
      cases entered
      simp
  | cons first rest ih =>
      cases found : lookup first.name with
      | none => simp [fill, found] at entered
      | some code =>
          simp only [fill, found] at entered
          obtain ⟨asked, others⟩ := ih entered
          constructor
          · intro member
            by_cases again : kind ∈ rest
            · exact asked again
            · have same : kind = first := (List.mem_cons.mp member).resolve_right again
              subst same
              have entry : (table.set kind.index code).get kind.index = code :=
                Vector.getElem_set_self _
              rw [others again, entry, found]
          · intro absent
            obtain ⟨other, later⟩ := not_or.mp (mt List.mem_cons.mpr absent)
            have apart : first.index.val ≠ kind.index.val :=
              fun same => other (ElementaryKind.index_inj (Fin.ext same)).symm
            rw [others later]
            exact Vector.getElem_set_ne _ _ apart

/-- A table that results from announced names holds under each kind the code of its name. -/
theorem ofNames_eq_ok {names : List (String × Typecode)} {elementary : ElementaryCodes}
    (made : ofNames names = .ok elementary)
    : (∀ kind : ElementaryKind, named? names kind.name = some (elementary.get kind))
      ∧ elementary.pointerSized = elementary.get .int64 := by
  let lookup (name : String) : Id (Option Typecode) := pure (named? names name)
  cases filled : fill lookup ElementaryKind.all (Vector.replicate _ .zero) with
  | error cause =>
      have told : ofNames names = .error cause := congrArg (Except.map _) filled
      cases told.symm.trans made
  | ok table =>
      have told : ofNames names = .ok _ := congrArg (Except.map _) filled
      cases told.symm.trans made
      refine ⟨fun kind => ?_, rfl⟩
      exact (fill_eq_ok filled kind).1 kind.mem_all

/-- What a name stands for was announced for it. -/
theorem mem_of_named? {names : List (String × Typecode)} {name : String} {code : Typecode}
    (found : named? names name = some code)
    : (name, code) ∈ names := by
  obtain ⟨before, after, same, -⟩ := List.lookup_eq_some_iff.mp found
  rw [← List.mem_reverse, same]
  simp

end ElementaryCodes

namespace Registry

variable {logger : Logger}

/-- The codes announced for elementary kinds name their number types, by induction over the kinds.
-/
theorem internKinds_named {kinds : List ElementaryKind} {state after : Hosted Registry}
    {names : List (String × Typecode)} (sound : state.own.Sound)
    (named : (internKinds logger kinds).run state = (.ok names, after))
    : ∀ entry ∈ names,
        ∃ kind : ElementaryKind,
          entry.1 = kind.name ∧ after.own.get? entry.2 = some (.number kind.scalar) := by
  induction kinds generalizing state names with
  | nil =>
      cases named
      exact List.forall_mem_nil _
  | cons kind rest ih =>
      obtain ⟨code, middle, stored, named⟩ := Run.run_bind_eq_ok.mp named
      obtain ⟨others, finish, listed, done⟩ := Run.run_bind_eq_ok.mp named
      cases done
      have here := sound.intern_eq_ok stored
      have early := (intern_evolving logger _).ends stored
      have late := (internKinds_evolving logger rest).ends listed
      exact List.forall_mem_cons.mpr
        ⟨⟨kind, rfl, late.get? here⟩, ih (early.sound sound) listed⟩

end Registry

/-- The table of a new dispatcher holds under each kind the code of its number type, and that of the
64-bit kind for pointer-sized integers.
-/
theorem Dispatcher.elementary_of_installed {logger : Logger} {dispatcher : Dispatcher}
    {state after : Hosted Registry} (sound : state.own.Sound)
    (installed : (ofRegistry logger).run state = (.ok dispatcher, after))
    : (∀ kind, after.own.get? (dispatcher.elementary.get kind) = some (.number kind.scalar))
      ∧ dispatcher.elementary.pointerSized = dispatcher.elementary.get .int64 := by
  obtain ⟨names, elementary, named, table, rfl⟩ := names_of_ofRegistry installed
  obtain ⟨entered, pointerSized⟩ := ElementaryCodes.ofNames_eq_ok table
  refine ⟨fun kind => ?_, pointerSized⟩
  have entry := ElementaryCodes.mem_of_named? (entered kind)
  obtain ⟨other, same, there⟩ := Registry.internKinds_named sound named _ entry
  obtain rfl := ElementaryKind.name_inj same
  exact there

end Typecodes
