import Mathlib.Analysis.SpecialFunctions.Trigonometric.Bounds
import MotionControl.Proofs.Arcs.Turning

/-! The chords of an arc over exact numbers. They divide the swept angle evenly, into parts whose chords leave the
circle by no more than the tolerance. -/
namespace MotionControl.Arc
open Scalar
variable {arc : Arc ℝ} {start target p q : AxisPosition ℝ} {angle turn tolerance : ℝ}

theorem centerDistance_halfway {a b : ℝ} (hw : arc.CircleWithin (min p.length q.length)) (hp : arc.IsAt p a)
    (hq : arc.IsAt q b) : arc.centerDistance (p.lerp q 0.5) = |arc.radius * Real.cos ((a - b) / 2)| := by
  obtain ⟨hp1, hp2⟩ := isAt_iff.mp hp
  obtain ⟨hq1, hq2⟩ := isAt_iff.mp hq
  have hhalf : (0.5 : ℝ) = 1 / 2 := by norm_num
  have hc : (arc.offset (p.lerp q 0.5)).1 = arc.radius * (Real.cos a + Real.cos b) / 2 := by
    rw [offset, AxisPosition.axis_lerp hw.1, hp1, hq1, hhalf]
    ring
  have hs : (arc.offset (p.lerp q 0.5)).2 = arc.radius * (Real.sin a + Real.sin b) / 2 := by
    rw [offset, AxisPosition.axis_lerp hw.2, hp2, hq2, hhalf]
    ring
  have hsq := Real.cos_sq_add_sin_sq ((a + b) / 2)
  rw [centerDistance_real, hc, hs, Real.cos_add_cos, Real.sin_add_sin, ← Real.sqrt_sq_eq_abs]
  congr 1
  linear_combination (arc.radius * Real.cos ((a - b) / 2)) ^ 2 * hsq

/-- A chord of half the angle `φ` stays within the tolerance when the arc over its half is no longer than the half
chord of a sagitta at the tolerance. -/
theorem sagitta_le {φ : ℝ} (h : (arc.radius * φ) ^ 2 ≤ tolerance * (2 * arc.radius - tolerance)) :
    arc.radius - tolerance ≤ |arc.radius * Real.cos φ| := by
  have hsin : arc.radius ^ 2 * Real.sin φ ^ 2 ≤ arc.radius ^ 2 * φ ^ 2 :=
    mul_le_mul_of_nonneg_left Real.sin_sq_le_sq (sq_nonneg arc.radius)
  have hcos := Real.sin_sq_add_cos_sq φ
  have hsq : (arc.radius - tolerance) ^ 2 ≤ (arc.radius * Real.cos φ) ^ 2 := by
    linear_combination hsin + h - arc.radius ^ 2 * hcos
  exact (le_abs_self _).trans (sq_le_sq.mp hsq)

theorem chordCount_eq (h : 0 < tolerance * (2 * arc.radius - tolerance)) (turn : ℝ) : arc.chordCount turn tolerance =
    max 1 ⌈|turn * arc.radius / 2| / √(tolerance * (2 * arc.radius - tolerance))⌉₊ := by
  have hspan : Scalar.sqrt (Scalar.larger (tolerance * (2.0 * arc.radius - tolerance)) 0.0) =
      √(tolerance * (2 * arc.radius - tolerance)) := by
    rw [larger_real, zero_real, sqrt_real, two_real, max_eq_left h.le]
  have hhalf : 0.5 * turn * arc.radius = turn * arc.radius / 2 := by
    norm_num
    ring
  rw [chordCount, hspan, zero_real, if_pos (Real.sqrt_pos.mpr h), abs_real, hhalf]
  rfl

theorem half_chord_le (h : 0 < tolerance * (2 * arc.radius - tolerance)) (turn : ℝ) :
    (arc.radius * (turn / arc.chordCount turn tolerance / 2)) ^ 2 ≤ tolerance * (2 * arc.radius - tolerance) := by
  have hspan := Real.sqrt_pos.mpr h
  have hcount : |turn * arc.radius / 2| / √(tolerance * (2 * arc.radius - tolerance)) ≤
      arc.chordCount turn tolerance := by
    rw [chordCount_eq h]
    exact (Nat.le_ceil _).trans (Nat.cast_le.mpr (le_max_right ..))
  have hpos : (0 : ℝ) < arc.chordCount turn tolerance := Nat.cast_pos.mpr (one_le_chordCount ..)
  have hle : |turn * arc.radius / 2 / arc.chordCount turn tolerance| ≤
      √(tolerance * (2 * arc.radius - tolerance)) := by
    rw [abs_div, abs_of_pos hpos, div_le_iff₀' hpos]
    exact (div_le_iff₀ hspan).mp hcount
  calc (arc.radius * (turn / arc.chordCount turn tolerance / 2)) ^ 2
      = |turn * arc.radius / 2 / arc.chordCount turn tolerance| ^ 2 := by
        rw [sq_abs]
        ring
    _ ≤ √(tolerance * (2 * arc.radius - tolerance)) ^ 2 := by gcongr
    _ = tolerance * (2 * arc.radius - tolerance) := Real.sq_sqrt h.le

/-- The corners of the polyline of an arc, by how many of its chords have been passed. -/
structure IsCorner (arc : Arc ℝ) (start target : AxisPosition ℝ) (count passed : ℕ) (p : AxisPosition ℝ) : Prop where
  isAt : arc.IsAt p (arc.direction start + arc.sweep start target * (passed / count))
  within : arc.CircleWithin p.length

theorem CircleWithin.mono {m n : ℕ} (h : arc.CircleWithin m) (hmn : m ≤ n) : arc.CircleWithin n :=
  ⟨h.1.trans_le hmn, h.2.trans_le hmn⟩

/-- The start, the points in between and the target. -/
private def corner (start target : AxisPosition ℝ) (point : ℕ → AxisPosition ℝ) (between : ℕ) : ℕ → AxisPosition ℝ
  | 0 => start
  | i + 1 => if i < between then point i else target

private theorem map_corner (point : ℕ → AxisPosition ℝ) (between : ℕ) :
    (List.range (between + 2)).map (corner start target point between) =
      start :: ((List.range between).map point ++ [target]) := by
  have hb : (List.range between).map (fun i => corner start target point between (i + 1)) =
      (List.range between).map point :=
    List.map_congr_left fun i hi => if_pos (List.mem_range.mp hi)
  have ht : corner start target point between (between + 1) = target := if_neg (lt_irrefl between)
  rw [List.range_succ_eq_map, List.map_cons, List.map_map, List.range_succ, List.map_append, List.map_singleton]
  exact congrArg (start :: ·) (congrArg₂ (· ++ ·) hb (congrArg ([·]) ht))

/-- From the start to the target, the corners follow each other at equal angles. -/
theorem exists_corners (hr : 0 < arc.radius) (hd : arc.plane.Distinct)
    (hw : arc.CircleWithin (min start.length target.length)) (hs : arc.centerDistance start = arc.radius)
    (ht : arc.centerDistance target = arc.radius) (tolerance : ℝ) : ∃ points corner,
      arc.chords start target tolerance = .ok points ∧ points.getLast? = some target ∧
      start :: points = (List.range (arc.chordCount (arc.sweep start target) tolerance + 1)).map corner ∧
      ∀ i ≤ arc.chordCount (arc.sweep start target) tolerance,
        arc.IsCorner start target (arc.chordCount (arc.sweep start target) tolerance) i (corner i) := by
  obtain ⟨between, hn⟩ : ∃ between, arc.chordCount (arc.sweep start target) tolerance = between + 1 :=
    Nat.exists_eq_add_one.mpr (one_le_chordCount ..)
  choose point hpoint using fun i : ℕ =>
    exists_pointAt hw (arc.sweep start target) (((i + 1 : ℕ) : ℝ) / ((between + 1 : ℕ) : ℝ))
  have hat := isAt_direction hr hs
  have hpoints : arc.chords start target tolerance = .ok ((List.range between).map point ++ [target]) := by
    rw [chords, hn]
    exact Outcome.bind_eq_ok.mpr ⟨_, Outcome.mapM_eq_ok hpoint _, rfl⟩
  refine ⟨_, corner start target point between, hpoints, ?_, ?_, ?_⟩
  · rw [List.getLast?_append]
    rfl
  · rw [hn, map_corner]
  · rw [hn]
    intro i hi
    cases i with
    | zero =>
      refine ⟨?_, hw.mono (min_le_left ..)⟩
      rwa [Nat.cast_zero, zero_div, mul_zero, add_zero]
    | succ i =>
      rw [corner]
      split
      · have h := isPointAt_of_pointAt hd (hpoint i)
        exact ⟨h.isAt, h.length.symm ▸ hw⟩
      · rename_i hlast
        obtain rfl : i = between := by omega
        refine ⟨?_, hw.mono (min_le_right ..)⟩
        rw [div_self (Nat.cast_ne_zero.mpr i.succ_ne_zero), mul_one]
        exact isAt_sweep hr hat ht

/-- The chords of an arc lead from its start to its target and leave the circle by no more than the tolerance. -/
theorem chords_within_tolerance (hr : 0 < arc.radius) (hd : arc.plane.Distinct)
    (hw : arc.CircleWithin (min start.length target.length)) (hs : arc.centerDistance start = arc.radius)
    (ht : arc.centerDistance target = arc.radius) (htol : 0 < tolerance) : ∃ points,
      arc.chords start target tolerance = .ok points ∧ points.getLast? = some target ∧
      (start :: points).IsChain fun p q => arc.radius - tolerance ≤ arc.centerDistance (p.lerp q 0.5) := by
  obtain ⟨points, corner, hp, hlast, hpath, hcorner⟩ := exists_corners hr hd hw hs ht tolerance
  refine ⟨points, hp, hlast, ?_⟩
  rw [hpath, List.isChain_map, List.isChain_range_succ]
  intro i hi
  have hfrom := hcorner i hi.le
  have hto := hcorner (i + 1) hi
  rw [centerDistance_halfway ⟨lt_min hfrom.within.1 hto.within.1, lt_min hfrom.within.2 hto.within.2⟩
    hfrom.isAt hto.isAt]
  by_cases hspan : 0 < tolerance * (2 * arc.radius - tolerance)
  · apply sagitta_le
    refine le_trans (le_of_eq ?_) (half_chord_le hspan (arc.sweep start target))
    push_cast
    ring
  · have hwide := nonpos_of_mul_nonpos_right (not_lt.mp hspan) htol
    exact (by linarith : arc.radius - tolerance ≤ 0).trans (abs_nonneg _)

/-- The chords of a helix that makes a full turn. -/
theorem helix_chords_within_tolerance : 0 < clockwiseCircle.radius ∧ clockwiseCircle.plane.Distinct ∧
    clockwiseCircle.CircleWithin (min (AxisPosition.length (⟨[6, 0, 4]⟩ : AxisPosition ℝ))
      (AxisPosition.length (⟨[6, 7, 4]⟩ : AxisPosition ℝ))) ∧
    clockwiseCircle.centerDistance ⟨[6, 0, 4]⟩ = clockwiseCircle.radius ∧
    clockwiseCircle.centerDistance ⟨[6, 7, 4]⟩ = clockwiseCircle.radius ∧ (0 : ℝ) < 1 / 10 ∧
    ∃ points, clockwiseCircle.chords ⟨[6, 0, 4]⟩ ⟨[6, 7, 4]⟩ (1 / 10) = .ok points ∧
      points.getLast? = some ⟨[6, 7, 4]⟩ ∧
      (⟨[6, 0, 4]⟩ :: points).IsChain fun p q => 5 - 1 / 10 ≤ clockwiseCircle.centerDistance (p.lerp q 0.5) := by
  have hr : 0 < clockwiseCircle.radius := radius_clockwiseCircle ▸ Nat.ofNat_pos
  have hw : clockwiseCircle.CircleWithin (min (AxisPosition.length (⟨[6, 0, 4]⟩ : AxisPosition ℝ))
      (AxisPosition.length (⟨[6, 7, 4]⟩ : AxisPosition ℝ))) := ⟨Nat.lt_add_one 2, Nat.zero_lt_succ 2⟩
  have hs := centerDistance_clockwiseCircle 0
  have ht := centerDistance_clockwiseCircle 7
  have htol : (0 : ℝ) < 1 / 10 := by norm_num
  have hchords := chords_within_tolerance hr distinct_clockwiseCircle hw hs ht htol
  rw [radius_clockwiseCircle] at hchords
  exact ⟨hr, distinct_clockwiseCircle, hw, hs, ht, htol, hchords⟩

end MotionControl.Arc
