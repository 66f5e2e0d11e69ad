import MotionControl.Error

/-! How a calculation that can be refused or broken off came to its end. -/
namespace MotionControl.Outcome
variable {ε δ α β : Type} {f : ε → δ} {a : α}

theorem bind_eq_ok {first : Except ε α} {rest : α → Except ε β} {b : β} :
    (first >>= rest) = .ok b ↔ ∃ a, first = .ok a ∧ rest a = .ok b := by
  cases first <;> simp [bind, Except.bind]

theorem bind_eq_error {first : Except ε α} {rest : α → Except ε β} {e : ε} :
    (first >>= rest) = .error e ↔ first = .error e ∨ ∃ a, first = .ok a ∧ rest a = .error e := by
  cases first <;> simp [bind, Except.bind]

theorem map_eq_ok {x : Except ε α} {f : α → β} {b : β} : x.map f = .ok b ↔ ∃ a, x = .ok a ∧ f a = b := by
  cases x <;> simp [Except.map]

theorem exists_of_mem_mapM {f : α → Except ε β} {values : List α} {results : List β}
    (h : values.mapM f = .ok results) {b : β} (hb : b ∈ results) : ∃ a ∈ values, f a = .ok b := by
  induction values generalizing results with
  | nil =>
    cases h
    cases hb
  | cons a values ih =>
    rw [List.mapM_cons] at h
    obtain ⟨first, hf, h⟩ := bind_eq_ok.mp h
    obtain ⟨rest, hr, h⟩ := bind_eq_ok.mp h
    cases h
    obtain rfl | hb := List.mem_cons.mp hb
    · exact ⟨a, .head _, hf⟩
    · obtain ⟨a', ha, hfa⟩ := ih hr hb
      exact ⟨a', .tail _ ha, hfa⟩

theorem mapM_eq_ok {f : α → Except ε β} {g : α → β} (h : ∀ a, f a = .ok (g a)) (values : List α) :
    values.mapM f = .ok (values.map g) := by
  induction values with
  | nil => rfl
  | cons a values ih =>
    rw [List.mapM_cons, h a, ih]
    rfl

theorem exists_mapM {f : α → Except ε β} (values : List α) (h : ∀ a, ∃ b, f a = .ok b) :
    ∃ results, values.mapM f = .ok results := by
  obtain ⟨g, hg⟩ := Classical.axiomOfChoice h
  exact ⟨_, mapM_eq_ok hg values⟩

@[simp] theorem pure_eq_ok {b : α} : (pure b : Except ε α) = .ok a ↔ b = a := by
  simp [pure, Except.pure]

@[simp] theorem pure_ne_error {e : ε} : (pure a : Except ε α) ≠ .error e := nofun

@[simp] theorem refuse_ne_ok {e : ε} : (refuse e : Outcome ε α) ≠ .ok a := nofun

@[simp] theorem lift_eq_ok {x : Checked α} : (Checked.lift x : Outcome ε α) = .ok a ↔ x = .ok a := by
  cases x <;> simp [Checked.lift]

@[simp] theorem ofExcept_eq_ok {x : Except ε α} : (ofExcept x : Outcome ε α) = .ok a ↔ x = .ok a := by
  cases x <;> simp [ofExcept]

theorem guard_eq_ok {p : Prop} [Decidable p] {reason : ε} {rest : Unit → Outcome ε α} :
    (if p then refuse reason >>= rest else rest ()) = .ok a ↔ ¬ p ∧ rest () = .ok a := by
  by_cases h : p
  · rw [if_pos h]
    simp [h, bind, Except.bind, refuse]
  · rw [if_neg h]
    simp [h]

/-- A checked step is broken off or not, but never refused. -/
@[simp] theorem lift_ne_refused {x : Checked α} {e : ε} :
    (Checked.lift x : Outcome ε α) ≠ .error (.refused e) := by
  cases x <;> simp [Checked.lift]

@[simp] theorem lift_eq_fault {x : Checked α} {fault : Fault} :
    (Checked.lift x : Outcome ε α) = .error (.fault fault) ↔ x = .error fault := by
  cases x <;> simp [Checked.lift]

@[simp] theorem ofExcept_ne_fault {x : Except ε α} {fault : Fault} :
    (ofExcept x : Outcome ε α) ≠ .error (.fault fault) := by
  cases x <;> simp [ofExcept]

@[simp] theorem mapReason_eq_ok {x : Outcome ε α} : x.mapReason f = .ok a ↔ x = .ok a := by
  match x with
  | .ok _ => simp [mapReason]
  | .error (.refused _) => simp [mapReason]
  | .error (.fault _) => simp [mapReason]

theorem mapReason_eq_refused {x : Outcome ε α} {d : δ} :
    x.mapReason f = .error (.refused d) ↔ ∃ e, x = .error (.refused e) ∧ f e = d := by
  match x with
  | .ok _ => simp [mapReason]
  | .error (.refused _) => simp [mapReason]
  | .error (.fault _) => simp [mapReason]

/-- A calculation comes to no answer. -/
def BreaksOff (x : Outcome ε α) : Prop := ∃ fault, x = .error (.fault fault)

theorem breaksOff_bind {first : Outcome ε α} {rest : α → Outcome ε β} :
    BreaksOff (first >>= rest) ↔ BreaksOff first ∨ ∃ a, first = .ok a ∧ BreaksOff (rest a) := by
  simp only [BreaksOff, bind_eq_error]
  grind

@[simp] theorem breaksOff_lift {x : Checked α} : BreaksOff (Checked.lift x : Outcome ε α) ↔ ∃ fault, x = .error fault := by
  simp only [BreaksOff, lift_eq_fault]

@[simp] theorem breaksOff_mapReason {x : Outcome ε α} : BreaksOff (x.mapReason f) ↔ BreaksOff x := by
  match x with
  | .ok _ => simp [BreaksOff, mapReason]
  | .error (.refused _) => simp [BreaksOff, mapReason]
  | .error (.fault _) => simp [BreaksOff, mapReason]

theorem breaksOff_error {failure : Failure ε} :
    BreaksOff (.error failure : Outcome ε α) ↔ ∃ fault, failure = .fault fault := by
  simp [BreaksOff]

@[simp] theorem not_breaksOff_ok : ¬ BreaksOff (.ok a : Outcome ε α) := nofun

@[simp] theorem not_breaksOff_refuse {e : ε} : ¬ BreaksOff (refuse e : Outcome ε α) := nofun

theorem breaksOff_guard {p : Prop} [Decidable p] {reason : ε} {rest : Unit → Outcome ε α} :
    BreaksOff (if p then refuse reason >>= rest else rest ()) ↔ ¬ p ∧ BreaksOff (rest ()) := by
  by_cases h : p
  · rw [if_pos h]
    simp [h, breaksOff_bind]
  · rw [if_neg h]
    simp [h]

end MotionControl.Outcome
