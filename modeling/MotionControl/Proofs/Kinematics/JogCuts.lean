import Mathlib.Data.List.Basic
import MotionControl.Kinematics.Catalog
import MotionControl.Proofs.Guards
import MotionControl.Proofs.Kinematics.Workspaces
import MotionControl.Proofs.Position.Lines

/-! What the guards of jogs make of targets with too few or too many values. A jog that leaves the workspace
is drawn back along the line from the current position, and a line has only the axes of both its ends. -/
namespace MotionControl
open Scalar
variable {α : Type} [Scalar α]

/-- The position without the axes from a number on. -/
def AxisPosition.take (p : AxisPosition α) (axisCount : Nat) : AxisPosition α := ⟨p.values.take axisCount⟩

/-- A guard that keeps a jog or draws it back along the line from the current position. Of the target of
a jog that is drawn back, only the axes of the machine matter. -/
structure DrawsBack (k : Kinematics α) (axisCount : Nat) (Leaves : AxisPosition α → AxisPosition α → Prop) :
    Prop where
  kept : ∀ {move : Move α} {current}, ¬ Leaves current move.target → k.constrainJog move current = .ok move
  drawn : ∀ {move : Move α} {current}, Leaves current move.target →
    ∃ target, k.constrainJog move current = .ok { move with target } ∧
      target.length = min current.length move.target.length
  surplus : ∀ {move : Move α} {current}, current.length = axisCount → Leaves current move.target →
    k.constrainJog { move with target := move.target.take axisCount } current = k.constrainJog move current

namespace AxisPosition
variable {p current : AxisPosition α} {axisCount : Nat}

theorem axis_take {axis : Nat} (h : axis < axisCount) : (p.take axisCount).axis axis = p.axis axis := by
  simp [take, AxisPosition.axis, h]

theorem lerp_take (t : α) (h : current.length ≤ axisCount) :
    current.lerp (p.take axisCount) t = current.lerp p t := by
  refine congrArg AxisPosition.mk (List.ext_getElem? fun axis => ?_)
  rw [Coordinates.lerp, Coordinates.lerp, List.getElem?_zipWith, List.getElem?_zipWith]
  by_cases ha : axis < axisCount
  · rw [take, List.getElem?_take_of_lt ha]
  · rw [List.getElem?_eq_none (h.trans (Nat.le_of_not_lt ha))]

end AxisPosition

namespace SoftLimits
variable {s : SoftLimits α} {layout : AxisLayout} {p current : AxisPosition α} {axisCount : Nat}

theorem of_validate (h : s.validate layout = .ok ()) : s.ranges.length ≤ layout.axisCount ∧
    ∀ low high, some (low, high) ∈ s.ranges → low < high := by
  rw [validate] at h
  split at h
  · cases h
  · rename_i hl
    refine ⟨Nat.le_of_not_lt hl, ?_⟩
    intro low high hr
    obtain ⟨axis, hr⟩ := List.mem_iff_getElem?.mp hr
    split at h
    · cases h
    · rename_i hn
      have hm := List.find?_eq_none.mp hn _ (mem_limits.mpr hr)
      simp only [Bool.not_eq_true', Bool.not_eq_false, Bool.and_eq_true, decide_eq_true_eq] at hm
      exact hm.2

omit [Scalar α] in
theorem lt_of_mem_limits (hl : s.ranges.length ≤ axisCount) {axis : Nat} {low high : α}
    (h : (axis, low, high) ∈ s.limits) : axis < axisCount :=
  Nat.lt_of_lt_of_le (List.getElem?_eq_some_iff.mp (mem_limits.mp h)).1 hl

theorem contains_take (hl : s.ranges.length ≤ axisCount) : s.contains (p.take axisCount) = s.contains p := by
  rw [contains, contains, Bool.eq_iff_iff, List.all_eq_true, List.all_eq_true]
  refine forall_congr' fun limit => ?_
  obtain ⟨axis, low, high⟩ := limit
  refine forall_congr' fun hm => ?_
  dsimp only
  rw [AxisPosition.axis_take (lt_of_mem_limits hl hm)]

theorem scale_take (hl : s.ranges.length ≤ axisCount) :
    s.scale current (p.take axisCount) = s.scale current p := by
  refine List.foldl_ext _ _ _ fun scale ⟨axis, low, high⟩ hm => ?_
  dsimp only
  rw [AxisPosition.axis_take (lt_of_mem_limits hl hm)]

theorem exists_confineAll {ranges : List (Option (α × α))}
    (hr : ∀ low high, some (low, high) ∈ ranges → low ≤ high) (values : List α) :
    ∃ confined, confineAll ranges values = .ok confined ∧ confined.length = values.length := by
  induction ranges, values using confineAll.induct with
  | case1 low high ranges value values ih =>
    obtain ⟨confined, hc, hl⟩ := ih fun low high hm => hr low high (.tail _ hm)
    refine ⟨confine low high value :: confined, ?_, by simp [hl]⟩
    rw [confineAll, Coordinates.clamp, if_pos (hr low high (.head _)), hc]
    rfl
  | case2 ranges value values ih =>
    obtain ⟨confined, hc, hl⟩ := ih fun low high hm => hr low high (.tail _ hm)
    refine ⟨value :: confined, ?_, by simp [hl]⟩
    rw [confineAll, hc]
    rfl
  | case3 ranges values h1 h2 => exact ⟨values, by rw [confineAll.eq_3 _ _ h1 h2], rfl⟩

theorem drawsBack [StrictlyOrderedScalar α] (hv : s.validate layout = .ok ()) {k : Kinematics α}
    (hk : k.constrainJog = s.clipJog) :
    DrawsBack k layout.axisCount fun _ target => s.contains target = false where
  kept {move current} h := by
    rw [hk, clipJog, if_pos (Bool.not_eq_false _ ▸ h)]
  drawn {move current} h := by
    obtain ⟨values, hc, hl⟩ := exists_confineAll
      (fun low high hr => StrictlyOrderedScalar.le_of_lt ((of_validate hv).2 low high hr))
      (current.lerp move.target (s.scale current move.target)).values
    refine ⟨⟨values⟩, ?_, hl.trans (AxisPosition.length_lerp ..)⟩
    rw [hk, clipJog, if_neg (ne_true_of_eq_false h)]
    dsimp only
    rw [hc]
    rfl
  surplus {move current} hl h := by
    have hr := (of_validate hv).1
    rw [hk, clipJog, clipJog, contains_take hr, scale_take hr, AxisPosition.lerp_take _ hl.le]
    rw [if_neg (ne_true_of_eq_false h), if_neg (ne_true_of_eq_false h)]

end SoftLimits

namespace RotaryDelta
variable {g : DeltaSettings α} {layout : AxisLayout} {p current : AxisPosition α} {axisCount : Nat}

theorem of_validate (h : validate g layout = .ok ()) :
    armCount ≤ layout.axisCount ∧ g.minAngle < g.maxAngle := by
  simp only [validate, Guards.refuse_first_eq_ok, Guards.bind_eq_ok, not_lt, not_not] at h
  obtain ⟨hc, -, -, ⟨-, -, hr⟩, -⟩ := h
  exact ⟨hc, hr⟩

variable {target other : AxisPosition α} {arm : Nat} {x y z θ : α}

/-- The angle of a crank depends on the position of the effector alone. -/
theorem armAngle_eq_ok : armAngle g target arm x y z = .ok θ ↔ ∃ raw, crankAngle g x y z = some raw ∧
    ¬ (raw < g.minAngle - angleTolerance ∨ g.maxAngle + angleTolerance < raw) ∧
      Coordinates.clamp g.minAngle g.maxAngle raw = .ok θ := by
  rw [armAngle]
  split
  · rename_i hn
    simp [hn]
  · rename_i raw hr
    split
    · rename_i hout
      simp only [hr, Option.some.injEq, exists_eq_left', hout, not_true_eq_false, false_and, iff_false]
      rintro ⟨⟩
    · rename_i hin
      simp only [hr, Option.some.injEq, exists_eq_left', hin, not_false_eq_true, true_and, Outcome.lift_eq_ok]

theorem armAngle_ne_fault (hr : g.minAngle ≤ g.maxAngle) (fault : Fault) :
    armAngle g target arm x y z ≠ .error (.fault fault) := by
  rw [armAngle]
  split
  · rintro ⟨⟩
  · split
    · rintro ⟨⟩
    · rw [Coordinates.clamp, if_pos hr]
      rintro ⟨⟩

theorem inverse_ne_fault (hr : g.minAngle ≤ g.maxAngle) (fault : Fault) :
    inverse g target ≠ .error (.fault fault) := by
  rw [inverse]
  split
  · split
    · rintro ⟨⟩
    · split
      · rintro ⟨⟩
      · intro h
        simp only [Outcome.bind_eq_error, armAngle_ne_fault hr, Outcome.pure_ne_error, false_or, and_false,
          exists_false] at h
  · rintro ⟨⟩

/-- Coordinates beyond the third have no part in whether a position has angles. -/
theorem exists_inverse_of_rest {rest other : List α} (h : ∃ m, inverse g ⟨x :: y :: z :: rest⟩ = .ok m) :
    ∃ m, inverse g ⟨x :: y :: z :: other⟩ = .ok m := by
  obtain ⟨m, h⟩ := h
  rw [inverse] at h
  dsimp only at h
  split at h
  · cases h
  · rename_i hs
    split at h
    · cases h
    · rename_i ha
      obtain ⟨θ1, h1, h⟩ := Outcome.bind_eq_ok.mp h
      obtain ⟨θ2, h2, h⟩ := Outcome.bind_eq_ok.mp h
      obtain ⟨θ3, h3, -⟩ := Outcome.bind_eq_ok.mp h
      refine ⟨⟨θ1 :: θ2 :: θ3 :: other⟩, ?_⟩
      rw [inverse]
      dsimp only
      rw [if_neg hs, if_neg ha, armAngle_eq_ok.mpr (armAngle_eq_ok.mp h1),
        armAngle_eq_ok.mpr (armAngle_eq_ok.mp h2), armAngle_eq_ok.mpr (armAngle_eq_ok.mp h3)]
      rfl

theorem reachable_of_range (hr : g.minAngle ≤ g.maxAngle) (p : AxisPosition α) :
    reachable g p = .ok true ∧ invalidLine g p = false ∧ (∃ m, inverse g p = .ok m) ∨
      reachable g p = .ok false ∧ ¬ (invalidLine g p = false ∧ ∃ m, inverse g p = .ok m) := by
  rw [reachable]
  by_cases hi : invalidLine g p = true
  · simp [hi]
  · rw [if_neg hi]
    cases h : inverse g p with
    | ok m => simp [hi]
    | error failure =>
      cases failure with
      | refused => simp
      | fault fault => exact absurd h (inverse_ne_fault hr fault)

theorem exists_reachable (hr : g.minAngle ≤ g.maxAngle) (p : AxisPosition α) : ∃ b, reachable g p = .ok b := by
  obtain ⟨h, -⟩ | ⟨h, -⟩ := reachable_of_range hr p
  · exact ⟨true, h⟩
  · exact ⟨false, h⟩

/-- The effector is moved by the first three axes alone. -/
theorem reachable_take (hr : g.minAngle ≤ g.maxAngle) (ha : armCount ≤ axisCount) :
    reachable g (p.take axisCount) = reachable g p := by
  obtain ⟨values⟩ := p
  match values, axisCount, ha with
  | [], _, _ => simp [AxisPosition.take]
  | [_], _ + 3, _ => rfl
  | [_, _], _ + 3, _ => rfl
  | x :: y :: z :: rest, n + 3, _ =>
    have hi : invalidLine g ⟨x :: y :: z :: rest.take n⟩ = invalidLine g ⟨x :: y :: z :: rest⟩ := rfl
    have hm : (∃ m, inverse g ⟨x :: y :: z :: rest.take n⟩ = .ok m) ↔
        ∃ m, inverse g ⟨x :: y :: z :: rest⟩ = .ok m := ⟨exists_inverse_of_rest, exists_inverse_of_rest⟩
    change reachable g ⟨x :: y :: z :: rest.take n⟩ = _
    have h1 := reachable_of_range hr ⟨x :: y :: z :: rest.take n⟩
    have h2 := reachable_of_range hr ⟨x :: y :: z :: rest⟩
    rw [hi, hm] at h1
    grind

/-- A part of a jog is found however the search goes. -/
theorem exists_bisect (hr : g.minAngle ≤ g.maxAngle) (current target : AxisPosition α) (steps : Nat)
    (low high : α) : ∃ part, bisect g current target steps low high = .ok part := by
  induction steps generalizing low high with
  | zero => exact ⟨low, rfl⟩
  | succ steps ih =>
    obtain ⟨b, hb⟩ := exists_reachable hr (current.lerp target (0.5 * (low + high)))
    rw [bisect, hb]
    cases b with
    | true => exact ih _ high
    | false => exact ih low _

theorem bisect_take (h : current.length ≤ axisCount) (steps : Nat) (low high : α) :
    bisect g current (p.take axisCount) steps low high = bisect g current p steps low high := by
  induction steps generalizing low high with
  | zero => rfl
  | succ steps ih => simp only [bisect, AxisPosition.lerp_take _ h, ih]

/-- A jog leaves the workspace from a position in reach to one out of reach. -/
def Leaves (g : DeltaSettings α) (current target : AxisPosition α) : Prop :=
  reachable g target = .ok false ∧ reachable g current = .ok true

theorem drawsBack [StrictlyOrderedScalar α] (hv : validate g layout = .ok ()) :
    DrawsBack (kinematics g) layout.axisCount (Leaves g) where
  kept {move current} h := by
    have hr := StrictlyOrderedScalar.le_of_lt (of_validate hv).2
    obtain ⟨b, hb⟩ := exists_reachable hr move.target
    obtain ⟨b', hb'⟩ := exists_reachable hr current
    change constrainJog g move current = _
    rw [constrainJog, hb]
    cases b with
    | true => rfl
    | false =>
      cases b' with
      | true => exact absurd ⟨hb, hb'⟩ h
      | false =>
        dsimp only [bind, Except.bind]
        rw [hb']
        rfl
  drawn {move current} h := by
    have hr := StrictlyOrderedScalar.le_of_lt (of_validate hv).2
    obtain ⟨part, hp⟩ := exists_bisect hr current move.target jogBisections 0.0 1.0
    refine ⟨current.lerp move.target part, ?_, AxisPosition.length_lerp ..⟩
    change constrainJog g move current = _
    rw [constrainJog, h.1, h.2, hp]
    rfl
  surplus {move current} hl h := by
    obtain ⟨ha, hr⟩ := of_validate hv
    have ht := reachable_take (p := move.target) (StrictlyOrderedScalar.le_of_lt hr) ha
    change constrainJog g _ current = constrainJog g move current
    rw [constrainJog, constrainJog, ht, h.1, h.2, bisect_take hl.le]
    simp only [AxisPosition.lerp_take _ hl.le]
    rfl

end RotaryDelta

end MotionControl
