/-! What a sequence of checks has established once it passes. -/
namespace MotionControl.Guards
variable {ε : Type} {condition : Prop} [Decidable condition] {error : ε}

theorem bind_eq_ok {first : Except ε Unit} {rest : Unit → Except ε Unit} :
    (first >>= rest) = .ok () ↔ first = .ok () ∧ rest () = .ok () := by
  cases first <;> simp [bind, Except.bind]

theorem require_eq_ok :
    (if condition then pure () else throw error : Except ε Unit) = .ok () ↔ condition := by
  by_cases h : condition <;> simp [h, throw, throwThe, MonadExceptOf.throw, pure, Except.pure]

theorem refuse_eq_ok :
    (if condition then throw error else pure () : Except ε Unit) = .ok () ↔ ¬ condition := by
  by_cases h : condition <;> simp [h, throw, throwThe, MonadExceptOf.throw, pure, Except.pure]

theorem refuse_first_eq_ok {rest : Except ε Unit} :
    (if condition then do throw error; rest else rest) = .ok () ↔ ¬ condition ∧ rest = .ok () := by
  by_cases h : condition <;> simp [h, throw, throwThe, MonadExceptOf.throw, bind, Except.bind]

theorem forM_eq_ok {α : Type} {values : List α} {check : α → Except ε Unit} :
    values.forM check = .ok () ↔ ∀ value ∈ values, check value = .ok () := by
  induction values with
  | nil => simp [List.forM, pure, Except.pure]
  | cons value values ih =>
    rw [List.forM, bind_eq_ok, ih, List.forall_mem_cons]

/-- The first check that fails decides. -/
theorem forM_eq_error {α : Type} {values : List α} {check : α → Except ε Unit} {e : ε} :
    values.forM check = .error e ↔ ∃ before value after, values = before ++ value :: after ∧
      (∀ earlier ∈ before, check earlier = .ok ()) ∧ check value = .error e := by
  induction values with
  | nil => simp [List.forM, pure, Except.pure]
  | cons first values ih =>
    rw [List.forM]
    cases hf : check first with
    | error reason =>
      constructor
      · intro h
        cases h
        exact ⟨[], first, values, rfl, nofun, hf⟩
      · rintro ⟨before, value, after, hs, hb, hv⟩
        obtain ⟨rfl, hs⟩ | ⟨_, rfl, -⟩ := List.cons_eq_append_iff.mp hs
        · cases hs
          exact hf.symm.trans hv
        · rw [hb first (.head _)] at hf
          cases hf
    | ok =>
      refine Iff.trans ih ⟨?_, ?_⟩
      · rintro ⟨before, value, after, rfl, hb, hv⟩
        exact ⟨first :: before, value, after, rfl, List.forall_mem_cons.mpr ⟨hf, hb⟩, hv⟩
      · rintro ⟨before, value, after, hs, hb, hv⟩
        obtain ⟨rfl, hs⟩ | ⟨before, rfl, rfl⟩ := List.cons_eq_append_iff.mp hs
        · cases hs
          rw [hf] at hv
          cases hv
        · exact ⟨before, value, after, rfl, (List.forall_mem_cons.mp hb).2, hv⟩

end MotionControl.Guards
