import MotionControl.Proofs.Scalar.Real
import MotionControl.Proofs.Arcs.Points

/-! How far an arc turns over exact numbers. From the direction of its start, the swept angle leads to the direction
of its target, on the side that the arc asks for and by at most one turn. -/
namespace MotionControl.Arc
open Scalar
variable {arc : Arc ℝ} {start target p : AxisPosition ℝ} {angle t : ℝ}

/-- A position stands on the circle, at an angle. -/
def IsAt (arc : Arc ℝ) (p : AxisPosition ℝ) (angle : ℝ) : Prop :=
  arc.offset p = (arc.radius * Real.cos angle, arc.radius * Real.sin angle)

theorem isAt_iff : arc.IsAt p angle ↔ p.axis arc.plane.first = arc.center.1 + arc.radius * Real.cos angle ∧
    p.axis arc.plane.second = arc.center.2 + arc.radius * Real.sin angle := by
  rw [IsAt, offset, Prod.mk.injEq, sub_eq_iff_eq_add', sub_eq_iff_eq_add']

theorem IsPointAt.isAt (h : arc.IsPointAt start target angle t p) :
    arc.IsAt p (arc.direction start + angle * t) :=
  isAt_iff.mpr ⟨h.first, h.second⟩

theorem centerDistance_real (arc : Arc ℝ) (p : AxisPosition ℝ) : arc.centerDistance p =
    √((arc.offset p).1 * (arc.offset p).1 + (arc.offset p).2 * (arc.offset p).2) := rfl

theorem IsAt.centerDistance_eq (hr : 0 < arc.radius) (h : arc.IsAt p angle) :
    arc.centerDistance p = arc.radius := by
  have hsq := Real.cos_sq_add_sin_sq angle
  rw [centerDistance_real, h, Real.sqrt_eq_iff_mul_self_eq_of_pos hr]
  linear_combination -arc.radius ^ 2 * hsq

/-- What is at the radius from the center is on the circle, in the direction in which it is seen. -/
theorem isAt_direction (hr : 0 < arc.radius) (h : arc.centerDistance p = arc.radius) :
    arc.IsAt p (arc.direction p) := by
  rw [centerDistance_real, Real.sqrt_eq_iff_mul_self_eq_of_pos hr] at h
  obtain ⟨hc, hs⟩ := turn_of_direction hr h.symm
  exact Prod.ext hc.symm hs.symm

theorem isAt_add_turn (h : arc.IsAt p angle) : arc.IsAt p (angle + 2 * Real.pi) := by
  rw [IsAt, Real.cos_add_two_pi, Real.sin_add_two_pi]
  exact h

theorem isAt_sub_turn (h : arc.IsAt p angle) : arc.IsAt p (angle - 2 * Real.pi) := by
  rw [IsAt, Real.cos_sub_two_pi, Real.sin_sub_two_pi]
  exact h

theorem IsAt.axis_eq {q : AxisPosition ℝ} (hp : arc.IsAt p angle) (hq : arc.IsAt q angle) :
    p.axis arc.plane.first = q.axis arc.plane.first ∧ p.axis arc.plane.second = q.axis arc.plane.second := by
  obtain ⟨hp1, hp2⟩ := isAt_iff.mp hp
  obtain ⟨hq1, hq2⟩ := isAt_iff.mp hq
  exact ⟨hp1.trans hq1.symm, hp2.trans hq2.symm⟩

/-- The angle from one position to another, at most half a turn to either side. -/
noncomputable def angleBetween (arc : Arc ℝ) (start target : AxisPosition ℝ) : ℝ :=
  atan2 ((arc.offset start).1 * (arc.offset target).2 - (arc.offset start).2 * (arc.offset target).1)
    ((arc.offset start).1 * (arc.offset target).1 + (arc.offset start).2 * (arc.offset target).2)

theorem angleBetween_mem (arc : Arc ℝ) (start target : AxisPosition ℝ) :
    -Real.pi < arc.angleBetween start target ∧ arc.angleBetween start target ≤ Real.pi :=
  ⟨Complex.neg_pi_lt_arg _, Complex.arg_le_pi _⟩

/-- The products of two positions on the circle are those of a turn from one to the other. -/
theorem isAt_angleBetween (hr : 0 < arc.radius) (hs : arc.IsAt start angle)
    (ht : arc.centerDistance target = arc.radius) : arc.IsAt target (angle + arc.angleBetween start target) := by
  have hsq : 0 < arc.radius * arc.radius := mul_pos hr hr
  have ha := Real.cos_sq_add_sin_sq angle
  rw [centerDistance_real, Real.sqrt_eq_iff_mul_self_eq_of_pos hr] at ht
  rw [IsAt, angleBetween, hs, Real.cos_add, Real.sin_add]
  generalize arc.offset target = t at ht ⊢
  have hd : (arc.radius * Real.cos angle * t.1 + arc.radius * Real.sin angle * t.2) *
        (arc.radius * Real.cos angle * t.1 + arc.radius * Real.sin angle * t.2) +
      (arc.radius * Real.cos angle * t.2 - arc.radius * Real.sin angle * t.1) *
        (arc.radius * Real.cos angle * t.2 - arc.radius * Real.sin angle * t.1) =
      arc.radius * arc.radius * (arc.radius * arc.radius) := by
    linear_combination arc.radius ^ 2 * (t.1 * t.1 + t.2 * t.2) * ha - arc.radius ^ 2 * ht
  obtain ⟨hc, hn⟩ := turn_of_direction hsq hd
  apply Prod.ext
  · apply mul_left_cancel₀ hsq.ne'
    linear_combination -arc.radius * Real.cos angle * hc + arc.radius * Real.sin angle * hn - arc.radius ^ 2 * t.1 * ha
  · apply mul_left_cancel₀ hsq.ne'
    linear_combination -arc.radius * Real.sin angle * hc - arc.radius * Real.cos angle * hn - arc.radius ^ 2 * t.2 * ha

theorem sweep_clockwise (h : arc.clockwise = true) : arc.sweep start target =
    if -1e-9 ≤ arc.angleBetween start target then arc.angleBetween start target - 2 * Real.pi
    else arc.angleBetween start target := by
  rw [sweep, if_pos h, Scalar.two_real]
  rfl

theorem sweep_counterclockwise (h : arc.clockwise = false) : arc.sweep start target =
    if arc.angleBetween start target ≤ 1e-9 then arc.angleBetween start target + 2 * Real.pi
    else arc.angleBetween start target := by
  rw [sweep, if_neg (by rw [h]; decide), Scalar.two_real]
  rfl

theorem isAt_sweep (hr : 0 < arc.radius) (hs : arc.IsAt start angle) (ht : arc.centerDistance target = arc.radius) :
    arc.IsAt target (angle + arc.sweep start target) := by
  have hb := isAt_angleBetween hr hs ht
  cases hc : arc.clockwise with
  | false =>
    rw [sweep_counterclockwise hc]
    split
    · rw [← add_assoc]
      exact isAt_add_turn hb
    · exact hb
  | true =>
    rw [sweep_clockwise hc]
    split
    · rw [← add_sub_assoc]
      exact isAt_sub_turn hb
    · exact hb

theorem sweep_of_clockwise (h : arc.clockwise = true) (start target : AxisPosition ℝ) :
    -(2 * Real.pi + 1e-9) ≤ arc.sweep start target ∧ arc.sweep start target < -1e-9 := by
  have hp := Real.two_le_pi
  obtain ⟨hl, hu⟩ := arc.angleBetween_mem start target
  rw [sweep_clockwise h]
  split
  · rename_i hn
    constructor <;> norm_num at hn ⊢ <;> linarith
  · rename_i hn
    constructor <;> norm_num at hn ⊢ <;> linarith

theorem sweep_of_counterclockwise (h : arc.clockwise = false) (start target : AxisPosition ℝ) :
    1e-9 < arc.sweep start target ∧ arc.sweep start target ≤ 2 * Real.pi + 1e-9 := by
  have hp := Real.two_le_pi
  obtain ⟨hl, hu⟩ := arc.angleBetween_mem start target
  rw [sweep_counterclockwise h]
  split
  · rename_i hn
    constructor <;> norm_num at hn ⊢ <;> linarith
  · rename_i hn
    constructor <;> norm_num at hn ⊢ <;> linarith

theorem sweep_neg_iff : arc.sweep start target < 0 ↔ arc.clockwise = true := by
  have hsmall : (0 : ℝ) < 1e-9 := by norm_num
  cases hc : arc.clockwise with
  | false => exact iff_of_false (hsmall.trans (sweep_of_counterclockwise hc start target).1).not_gt Bool.false_ne_true
  | true => exact iff_of_true ((sweep_of_clockwise hc start target).2.trans (neg_neg_of_pos hsmall)) rfl

/-- An arc turns by some angle, and by a full turn at most up to what counts as the same direction. -/
theorem abs_sweep_mem (arc : Arc ℝ) (start target : AxisPosition ℝ) :
    1e-9 < |arc.sweep start target| ∧ |arc.sweep start target| ≤ 2 * Real.pi + 1e-9 := by
  cases hc : arc.clockwise with
  | false =>
    obtain ⟨hl, hu⟩ := sweep_of_counterclockwise hc start target
    have hsmall : (0 : ℝ) < 1e-9 := by norm_num
    rw [abs_of_pos (hsmall.trans hl)]
    exact ⟨hl, hu⟩
  | true =>
    obtain ⟨hl, hu⟩ := sweep_of_clockwise hc start target
    rw [abs_of_neg (sweep_neg_iff.mpr hc)]
    exact ⟨lt_neg_of_lt_neg hu, neg_le.mp hl⟩

/-- The point of an arc between positions of as many axes is the one that stands at the angle reached, on the line
in every other axis. -/
theorem pointAt_eq (hd : arc.plane.Distinct) (hw : arc.CircleWithin start.length)
    (hl : start.length = target.length) {turn : ℝ} (hp : p.length = start.length)
    (ha : arc.IsAt p (arc.direction start + turn * t))
    (hb : ∀ axis < start.length, p.axis axis = start.axis axis + (target.axis axis - start.axis axis) * t) :
    arc.pointAt start target turn t = .ok p := by
  have hmin : min start.length target.length = start.length := by rw [← hl, Nat.min_self]
  obtain ⟨q, hq⟩ := exists_pointAt (hmin.symm ▸ hw) turn t
  have hpoint := isPointAt_of_pointAt hd hq
  obtain ⟨hfirst, hsecond⟩ := hpoint.isAt.axis_eq ha
  have hlength := hpoint.length
  have hbeside := hpoint.beside
  rw [hmin] at hlength hbeside
  rw [hq]
  apply congrArg Except.ok
  apply AxisPosition.ext_axis (hlength.trans hp.symm)
  intro axis hx
  rw [hlength] at hx
  by_cases hx1 : axis = arc.plane.first
  · rw [hx1, hfirst]
  by_cases hx2 : axis = arc.plane.second
  · rw [hx2, hsecond]
  · rw [hbeside axis hx hx1 hx2, hb axis hx]

/-- An arc turns to its own side, by some angle and by no more than one turn, and leads from the start around the
circle to the target, while the other axes move along the line. -/
theorem sweep_leads_to_target (hr : 0 < arc.radius) (hd : arc.plane.Distinct)
    (hw : arc.CircleWithin start.length) (hl : start.length = target.length)
    (hs : arc.centerDistance start = arc.radius) (ht : arc.centerDistance target = arc.radius) :
    (arc.sweep start target < 0 ↔ arc.clockwise = true) ∧
    1e-9 < |arc.sweep start target| ∧ |arc.sweep start target| ≤ 2 * Real.pi + 1e-9 ∧
    arc.pointAt start target (arc.sweep start target) 0 = .ok start ∧
    arc.pointAt start target (arc.sweep start target) 1 = .ok target ∧
    ∀ turn t, ∃ p, arc.pointAt start target turn t = .ok p ∧ p.length = start.length ∧
      arc.centerDistance p = arc.radius ∧ ∀ axis < start.length, axis ≠ arc.plane.first →
        axis ≠ arc.plane.second → p.axis axis = start.axis axis + (target.axis axis - start.axis axis) * t := by
  have hmin : min start.length target.length = start.length := by rw [← hl, Nat.min_self]
  have hat := isAt_direction hr hs
  obtain ⟨hsome, hmost⟩ := arc.abs_sweep_mem start target
  refine ⟨sweep_neg_iff, hsome, hmost, ?_, ?_, ?_⟩
  · apply pointAt_eq hd hw hl rfl
    · rwa [mul_zero, add_zero]
    · intro axis _
      ring
  · apply pointAt_eq hd hw hl hl.symm
    · rw [mul_one]
      exact isAt_sweep hr hat ht
    · intro axis _
      ring
  · intro turn t
    obtain ⟨p, hp⟩ := exists_pointAt (hmin.symm ▸ hw) turn t
    have hpoint := isPointAt_of_pointAt hd hp
    have hlength := hpoint.length
    have hbeside := hpoint.beside
    rw [hmin] at hlength hbeside
    exact ⟨p, hp, hlength, hpoint.isAt.centerDistance_eq hr, hbeside⟩

/-- A clockwise circle in the plane of Z and X, seen from Y. -/
noncomputable def clockwiseCircle : Arc ℝ where
  center := (1, 2.0)
  radius := 5.0
  plane := .zx
  clockwise := true

theorem distinct_clockwiseCircle : clockwiseCircle.plane.Distinct := ⟨by decide, by decide, by decide⟩

theorem radius_clockwiseCircle : clockwiseCircle.radius = 5 := by norm_num [clockwiseCircle]

theorem centerDistance_clockwiseCircle (y : ℝ) :
    clockwiseCircle.centerDistance ⟨[6, y, 4]⟩ = clockwiseCircle.radius := by
  have ho : clockwiseCircle.offset ⟨[6, y, 4]⟩ = (4 - 1, 6 - 2.0) := rfl
  rw [radius_clockwiseCircle, centerDistance_real, ho, two_real, Real.sqrt_eq_iff_mul_self_eq_of_pos (by norm_num)]
  norm_num

/-- The ends of a helix lie above each other, and it makes a full turn between them. -/
theorem helix_leads_to_target : 0 < clockwiseCircle.radius ∧ clockwiseCircle.plane.Distinct ∧
    clockwiseCircle.CircleWithin (AxisPosition.length (⟨[6, 0, 4]⟩ : AxisPosition ℝ)) ∧
    clockwiseCircle.centerDistance ⟨[6, 0, 4]⟩ = clockwiseCircle.radius ∧
    clockwiseCircle.centerDistance ⟨[6, 7, 4]⟩ = clockwiseCircle.radius ∧
    clockwiseCircle.sweep ⟨[6, 0, 4]⟩ ⟨[6, 7, 4]⟩ < 0 ∧
    clockwiseCircle.pointAt ⟨[6, 0, 4]⟩ ⟨[6, 7, 4]⟩ (clockwiseCircle.sweep ⟨[6, 0, 4]⟩ ⟨[6, 7, 4]⟩) 1 =
      .ok ⟨[6, 7, 4]⟩ := by
  have hr : 0 < clockwiseCircle.radius := radius_clockwiseCircle ▸ Nat.ofNat_pos
  have hw : clockwiseCircle.CircleWithin (AxisPosition.length (⟨[6, 0, 4]⟩ : AxisPosition ℝ)) :=
    ⟨Nat.lt_add_one 2, Nat.zero_lt_succ 2⟩
  have hl : (⟨[6, 0, 4]⟩ : AxisPosition ℝ).length = (⟨[6, 7, 4]⟩ : AxisPosition ℝ).length := rfl
  have hs := centerDistance_clockwiseCircle 0
  have ht := centerDistance_clockwiseCircle 7
  obtain ⟨hside, -, -, -, hend, -⟩ := sweep_leads_to_target hr distinct_clockwiseCircle hw hl hs ht
  exact ⟨hr, distinct_clockwiseCircle, hw, hs, ht, hside.mpr rfl, hend⟩

end MotionControl.Arc
