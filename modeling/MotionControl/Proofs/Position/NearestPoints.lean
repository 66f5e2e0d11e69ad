import MotionControl.Proofs.Position.Distances

/-! Nearest points of lines, over exact numbers. The nearest point of a line is the foot of the perpendicular, or
an end of the line when the foot lies beyond that end. -/
namespace MotionControl
open Scalar

theorem Scalar.sq_confine_le {low high t : ℝ} (ht : t ∈ Set.Icc low high) (x : ℝ) :
    (confine low high x - x) ^ 2 + (t - confine low high x) ^ 2 ≤ (t - x) ^ 2 := by
  obtain ⟨hl, hh⟩ := ht
  rw [confine]
  split
  · rename_i hx
    have hm : 0 ≤ (t - low) * (low - x) := mul_nonneg (sub_nonneg.mpr hl) (sub_nonneg.mpr hx.le)
    linear_combination 2 * hm
  · split
    · rename_i hx
      have hm : 0 ≤ (high - t) * (x - high) := mul_nonneg (sub_nonneg.mpr hh) (sub_nonneg.mpr hx.le)
      linear_combination 2 * hm
    · rw [sub_self, zero_pow two_ne_zero, zero_add]

namespace Coordinates

/-- How far a position has come along a line from its start, times the length of the line. -/
noncomputable def along (p a b : List ℝ) : ℝ :=
  (List.zipWith (fun x (s : ℝ × ℝ) => (x - s.1) * (s.2 - s.1)) p (a.zip b)).sum

@[simp] theorem along_nil (p b : List ℝ) : along p [] b = 0 := by
  simp [along]

@[simp] theorem along_cons (x y z : ℝ) (p a b : List ℝ) :
    along (x :: p) (y :: a) (z :: b) = (x - y) * (z - y) + along p a b := by
  simp [along]

variable {p a b : List ℝ}

/-- Along a line the squared distance is a parabola in the parameter. -/
theorem distanceSq_lerp (hp : p.length = a.length) (hl : a.length = b.length) (t : ℝ) :
    distanceSq p (lerp a b t) = distanceSq p a - 2 * t * along p a b + t ^ 2 * distanceSq a b := by
  rw [lerp]
  induction a generalizing p b with
  | nil => simp
  | cons y a ih =>
    cases p with
    | nil => cases hp
    | cons x p =>
      cases b with
      | nil => cases hl
      | cons z b =>
        rw [List.zipWith_cons_cons, distanceSq_cons, distanceSq_cons, distanceSq_cons, along_cons,
          ih (Nat.succ.inj hp) (Nat.succ.inj hl)]
        ring

/-- The parameter of the nearest point. -/
noncomputable def nearest (p a b : List ℝ) : ℝ := confine 0.0 1.0 (along p a b / distanceSq a b)

/-- A point of the line is farther away the farther it is from the nearest point. -/
theorem distanceSq_nearest_le (hp : p.length = a.length) (hl : a.length = b.length) (h : 0 < distanceSq a b)
    {t : ℝ} (ht : t ∈ Set.Icc (0 : ℝ) 1) :
    distanceSq p (lerp a b (nearest p a b)) + (t - nearest p a b) ^ 2 * distanceSq a b ≤
      distanceSq p (lerp a b t) := by
  have hfoot : along p a b / distanceSq a b * distanceSq a b = along p a b := div_mul_cancel₀ _ h.ne'
  have hunit : t ∈ Set.Icc (0.0 : ℝ) 1.0 := by
    norm_num
    exact ht
  have hsq := mul_le_mul_of_nonneg_right (sq_confine_le hunit (along p a b / distanceSq a b)) h.le
  rw [← nearest] at hsq
  rw [distanceSq_lerp hp hl, distanceSq_lerp hp hl]
  generalize along p a b / distanceSq a b = foot at hfoot hsq
  linear_combination hsq + 2 * (nearest p a b - t) * hfoot

theorem eq_nearest (hp : p.length = a.length) (hl : a.length = b.length) (h : 0 < distanceSq a b) {t : ℝ}
    (ht : t ∈ Set.Icc (0 : ℝ) 1) (hd : distanceSq p (lerp a b t) ≤ distanceSq p (lerp a b (nearest p a b))) :
    t = nearest p a b := by
  have hle := distanceSq_nearest_le hp hl h ht
  have hzero : (t - nearest p a b) ^ 2 * distanceSq a b ≤ 0 := by linarith only [hle, hd]
  have hsq : (t - nearest p a b) ^ 2 = 0 := le_antisymm (nonpos_of_mul_nonpos_left hzero h) (sq_nonneg _)
  exact sub_eq_zero.mp ((pow_eq_zero_iff two_ne_zero).mp hsq)

end Coordinates

namespace AxisPosition
variable {p a b : AxisPosition ℝ}

/-- The parameter of the point of a line that is nearest to a position. -/
noncomputable def nearest (p a b : AxisPosition ℝ) : ℝ := Coordinates.nearest p.values a.values b.values

theorem nearest_mem (p a b : AxisPosition ℝ) : p.nearest a b ∈ Set.Icc (0 : ℝ) 1 := confine_unit_mem _

theorem epsilon_lt_distanceSq (h : epsilon < a.distance b ^ 2) :
    epsilon < Coordinates.distanceSq a.values b.values := by
  rwa [← Coordinates.distance_sq]

theorem distanceToSegment_eq (h : epsilon < a.distance b ^ 2) :
    p.distanceToSegment a b = p.distance (a.lerp b (p.nearest a b)) := by
  have hsq : sum (List.zipWith (fun x y => (y - x) * (y - x)) a.values b.values) =
      Coordinates.distanceSq a.values b.values := by
    rw [sum_real, Coordinates.distanceSq]
    congr 2
    funext x y
    ring
  rw [distanceToSegment, hsq]
  dsimp only
  rw [if_neg (not_le.mpr (epsilon_lt_distanceSq h)), sum_real]
  rfl

section
variable (hp : p.length = a.length) (hl : a.length = b.length) (h : epsilon < a.distance b ^ 2) {t : ℝ}
  (ht : t ∈ Set.Icc (0 : ℝ) 1)
include hp hl h ht

theorem distanceToSegment_le : p.distanceToSegment a b ≤ p.distance (a.lerp b t) := by
  have hlong := epsilon_pos.trans (epsilon_lt_distanceSq h)
  rw [distanceToSegment_eq h]
  apply Coordinates.distance_le_distance_iff.mpr
  apply le_trans _ (Coordinates.distanceSq_nearest_le hp hl hlong ht)
  exact le_add_of_nonneg_right (mul_nonneg (sq_nonneg _) hlong.le)

theorem eq_nearest (hd : p.distanceToSegment a b = p.distance (a.lerp b t)) : t = p.nearest a b := by
  have hlong := epsilon_pos.trans (epsilon_lt_distanceSq h)
  rw [distanceToSegment_eq h] at hd
  exact Coordinates.eq_nearest hp hl hlong ht (Coordinates.distance_le_distance_iff.mp hd.ge)

end

/-- A position is no distance away from a line that is not too short exactly when it is a point of the line. -/
theorem distanceToSegment_eq_zero_iff (hp : p.length = a.length) (hl : a.length = b.length)
    (h : epsilon < a.distance b ^ 2) :
    p.distanceToSegment a b = 0 ↔ ∃ t ∈ Set.Icc (0 : ℝ) 1, p = a.lerp b t := by
  constructor
  · intro hd
    rw [distanceToSegment_eq h] at hd
    have hlength : p.length = (a.lerp b (p.nearest a b)).length := by
      rw [length_lerp, ← hl, Nat.min_self, hp]
    exact ⟨_, nearest_mem p a b, eq_of_distance_eq_zero hlength hd⟩
  · rintro ⟨t, ht, he⟩
    apply le_antisymm
    · apply (distanceToSegment_le hp hl h ht).trans_eq
      rw [← he]
      exact Coordinates.distance_self p.values
    · rw [distanceToSegment_eq h]
      exact Coordinates.distance_nonneg _ _

/-- The distance of a position to a line that is not too short is the least distance to a point of the line, and
there is one point at that distance. It is zero for the points of the line only. -/
theorem distanceToSegment_least (hp : p.length = a.length) (hl : a.length = b.length)
    (h : epsilon < a.distance b ^ 2) :
    (∀ t ∈ Set.Icc (0 : ℝ) 1, p.distanceToSegment a b ≤ p.distance (a.lerp b t)) ∧
    (∃! t, t ∈ Set.Icc (0 : ℝ) 1 ∧ p.distanceToSegment a b = p.distance (a.lerp b t)) ∧
    (p.distanceToSegment a b = 0 ↔ ∃ t ∈ Set.Icc (0 : ℝ) 1, p = a.lerp b t) := by
  refine ⟨fun t => distanceToSegment_le hp hl h, ?_, distanceToSegment_eq_zero_iff hp hl h⟩
  refine ⟨p.nearest a b, ⟨nearest_mem p a b, distanceToSegment_eq h⟩, ?_⟩
  rintro t ⟨ht, hd⟩
  exact eq_nearest hp hl h ht hd

/-- The end of a line is nearest to a position beyond it. -/
theorem end_nearest_beyond :
    let p : AxisPosition ℝ := ⟨[13, 4, 0]⟩
    let a : AxisPosition ℝ := ⟨[0, 0, 0]⟩
    let b : AxisPosition ℝ := ⟨[10, 0, 0]⟩
    epsilon < a.distance b ^ 2 ∧ p.distanceToSegment a b = p.distance b ∧
      (∀ t ∈ Set.Icc (0 : ℝ) 1, p.distance b ≤ p.distance (a.lerp b t)) ∧
      ¬ ∃ t ∈ Set.Icc (0 : ℝ) 1, p = a.lerp b t := by
  intro p a b
  have hlong : epsilon < a.distance b ^ 2 := by
    rw [distance, Coordinates.distance_sq]
    norm_num [a, b, Coordinates.distanceSq]
    exact epsilon_le_one.trans_lt (by norm_num)
  have hend : a.lerp b 1 = b := lerp_one rfl
  have hsq (t : ℝ) : Coordinates.distanceSq p.values (a.lerp b t).values = (13 - 10 * t) ^ 2 + 16 := by
    simp only [p, a, b, lerp, Coordinates.lerp, List.zipWith_cons_cons, Coordinates.distanceSq_cons,
      List.zipWith_nil_left, Coordinates.distanceSq_nil_left]
    ring
  obtain ⟨hle, ⟨t, ⟨ht, hd⟩, -⟩, hzero⟩ := distanceToSegment_least (p := p) (a := a) (b := b) rfl rfl hlong
  have hone : t = 1 := by
    have hsqle := Coordinates.distance_le_distance_iff.mp (hd.symm.trans_le (hle 1 (by simp)))
    rw [hsq, hsq] at hsqle
    nlinarith only [hsqle, ht.2]
  rw [hone, hend] at hd
  refine ⟨hlong, hd, fun t ht => hd.symm.trans_le (hle t ht), ?_⟩
  rw [← hzero, hd]
  intro hn
  have hb := hsq 1
  rw [hend, ← Coordinates.distance_sq] at hb
  change p.distance b ^ 2 = _ at hb
  rw [hn] at hb
  norm_num at hb

end AxisPosition

end MotionControl
