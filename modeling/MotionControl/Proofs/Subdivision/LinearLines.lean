import MotionControl.Proofs.Position.NearestPoints
import MotionControl.Proofs.Kinematics.LinearTransforms
import MotionControl.Proofs.Subdivision.Waypoints

/-! Lines of machines with linear kinematics. Their motor chords do not stray at all, so a bisection would
leave a line whole: that it is left out changes nothing. -/
namespace MotionControl
open Scalar

/-- The same transforms, with lines that are bisected where they stray. -/
def MachineModel.bisecting {α : Type} [Scalar α] (model : MachineModel α) : MachineModel α :=
  { model with kinematics := { model.kinematics with isLinear := false } }

namespace Subdivision
variable {s : Subdivision ℝ} {model : MachineModel ℝ} {a b : Waypoint ℝ} {deviation : ℝ} {depth : ℕ}

theorem chordDeviation_eq_zero
    (h : ∀ t ∈ (chordSamples : List ℝ), ∃ point,
      model.forward (a.motors.lerp b.motors t) a.target.length = .ok point ∧
        point.distanceToSegment a.target b.target = 0) : chordDeviation model a b = .ok 0 := by
  rw [chordDeviation, zero_real]
  generalize (chordSamples : List ℝ) = samples at h
  induction samples with
  | nil => rfl
  | cons t samples ih =>
    obtain ⟨point, hp, hd⟩ := h t (.head _)
    rw [List.foldlM_cons, hp]
    dsimp only [bind, Except.bind, pure, Except.pure]
    rw [hd, larger_real, max_self]
    exact ih fun u hu => h u (.tail _ hu)

theorem chordDeviation_of_linear {axisCount : ℕ} (hk : LinearKinematics model.kinematics axisCount)
    (ha : a.Solved model) (hb : b.Solved model) (hd : epsilon < a.target.distance b.target ^ 2) :
    chordDeviation model a b = .ok 0 := by
  apply chordDeviation_eq_zero
  intro t ht
  have hlength := Waypoint.length_eq ha hb
  have hl : (a.target.lerp b.target t).length = a.target.length := by
    rw [AxisPosition.length_lerp, ← hlength, Nat.min_self]
  have hp := hk.forward_inverse (hk.inverse_lerp (MachineModel.inverse_eq_ok.mp ha).2
    (MachineModel.inverse_eq_ok.mp hb).2 t)
  rw [hl] at hp
  have hm : t ∈ Set.Icc (0 : ℝ) 1 := by
    simp only [chordSamples, List.mem_cons, List.not_mem_nil, or_false] at ht
    obtain rfl | rfl | rfl := ht <;> norm_num
  exact ⟨_, hp, (AxisPosition.distanceToSegment_eq_zero_iff hl hlength hd).mpr ⟨t, hm, rfl⟩⟩

theorem split_of_chord (h : chordDeviation model a b = .ok deviation) (ht : deviation ≤ s.tolerance) :
    s.split model depth a b = .ok [b] := by
  cases depth with
  | zero => exact split_zero_eq_ok.mpr ⟨⟨deviation, h⟩, rfl⟩
  | succ depth => exact split_succ_eq_ok.mpr (.inl ⟨⟨deviation, h, ht⟩, rfl⟩)

/-- A line that is long enough to have poses on it is long enough to be moved along. -/
theorem not_short {start target : AxisPosition ℝ} (h : epsilon < start.distance target ^ 2) :
    ¬ start.distance target < minMoveLength := by
  intro hs
  have hsq : start.distance target ^ 2 < minMoveLength ^ 2 :=
    pow_lt_pow_left₀ hs (Coordinates.distance_nonneg _ _) two_ne_zero
  have hmin : (minMoveLength : ℝ) ^ 2 < epsilon := by
    norm_num [minMoveLength, epsilon, ofNat]
  exact lt_asymm h (hsq.trans hmin)

/-- Linear kinematics move along a line in one piece, whether or not it would be bisected. -/
theorem segment_of_linear {axisCount : ℕ} (hk : LinearKinematics model.kinematics axisCount)
    (ht : 0 ≤ s.tolerance) (ha : a.Solved model) (hb : b.Solved model)
    (hd : epsilon < a.target.distance b.target ^ 2) {move : Move ℝ} (hm : move.target = b.target) :
    s.split model s.maxDepth.toNat a b = .ok [b] ∧ s.waypoints model a b = .ok [b] ∧
      s.segment model a.target move = .ok (withFeed move.feedRate a [b]) := by
  have hs : s.split model s.maxDepth.toNat a b = .ok [b] :=
    split_of_chord (chordDeviation_of_linear hk ha hb hd) ht
  have hw : s.waypoints model a b = .ok [b] := by
    rw [Subdivision.waypoints]
    split
    · rfl
    · exact hs
  have htarget : model.inverse move.target = .ok b.motors := hm ▸ hb
  have hlong : ¬ a.target.distance move.target < minMoveLength := hm ▸ not_short hd
  refine ⟨hs, hw, segment_eq_ok.mpr ⟨a.motors, b.motors, ha, htarget, .inr ⟨hlong, [b], ?_, rfl⟩⟩⟩
  rw [hm]
  exact hw

/-- That lines of linear kinematics are not bisected changes nothing. Bisected or not, a line that is not too
short is left whole and its only segment ends at the motors of its target. -/
theorem segment_bisecting {catalog : KinematicsCatalog ℝ} {machine : MachineDescription ℝ}
    (hc : catalog.create machine = .ok model) (hk : machine.IsLinear) {tolerance : ℝ} {maxDepth : UInt32}
    (hs : Subdivision.new tolerance maxDepth = .ok s) {start : AxisPosition ℝ} {move : Move ℝ}
    (ha : start.length = model.axisCount) (hb : move.target.length = model.axisCount)
    (hd : epsilon < start.distance move.target ^ 2) :
    model.kinematics.isLinear = true ∧
    (∃ first last : Waypoint ℝ, first.target = start ∧ first.Solved model ∧ last.target = move.target ∧
      last.Solved model ∧ s.waypoints model first last = .ok [last] ∧
      s.split model s.maxDepth.toNat first last = .ok [last] ∧
      (s.segment model start move).map (List.map MotorSegment.waypoint) = .ok [last]) ∧
    s.segment model.bisecting start move = s.segment model start move := by
  obtain ⟨hlinear, hshort⟩ := KinematicsCatalog.linearKinematics hc hk
  have hbisecting : LinearKinematics model.bisecting.kinematics model.axisCount :=
    { hlinear with }
  obtain ⟨motors, hm⟩ := hlinear.exists_inverse start ha
  obtain ⟨motors', hm'⟩ := hlinear.exists_inverse move.target hb
  have hfirst : Waypoint.Solved model ⟨start, motors⟩ := MachineModel.inverse_eq_ok.mpr ⟨ha, hm⟩
  have hlast : Waypoint.Solved model ⟨move.target, motors'⟩ := MachineModel.inverse_eq_ok.mpr ⟨hb, hm'⟩
  obtain ⟨hp, -, he⟩ := new_eq_ok_iff.mp hs
  have ht : 0 ≤ s.tolerance := by
    rw [he]
    exact ((isPositive_real tolerance).mp hp).le
  obtain ⟨hsplit, hwhole, hsegment⟩ := segment_of_linear hlinear ht hfirst hlast hd rfl
  obtain ⟨-, -, hbisected⟩ := segment_of_linear hbisecting ht hfirst hlast hd rfl
  refine ⟨hshort, ⟨_, _, rfl, hfirst, rfl, hlast, hwhole, hsplit, ?_⟩, hbisected.trans hsegment.symm⟩
  rw [hsegment]
  exact congrArg Except.ok (map_waypoint_withFeed ..)

/-- On belts, a slanted line of five millimetres is left whole. -/
theorem belt_line_left_whole : ∃ s model, Subdivision.new (1 / 100 : ℝ) 12 = .ok s ∧
    KinematicsCatalog.builtin.create scaledBelts = .ok model ∧ scaledBelts.IsLinear ∧
    epsilon < AxisPosition.distance (⟨[0, 0, 0]⟩ : AxisPosition ℝ) ⟨[3, 4, 0]⟩ ^ 2 ∧
    s.segment model.bisecting ⟨[0, 0, 0]⟩ (.linear ⟨[3, 4, 0]⟩ 60) =
      s.segment model ⟨[0, 0, 0]⟩ (.linear ⟨[3, 4, 0]⟩ 60) := by
  have hs : Subdivision.new (1 / 100 : ℝ) 12 = .ok ⟨1 / 100, 12⟩ :=
    new_eq_ok_iff.mpr ⟨by norm_num [isPositive], by decide, rfl⟩
  have hd : epsilon < AxisPosition.distance (⟨[0, 0, 0]⟩ : AxisPosition ℝ) ⟨[3, 4, 0]⟩ ^ 2 := by
    rw [AxisPosition.distance, Coordinates.distance_sq]
    norm_num [Coordinates.distanceSq, epsilon, ofNat]
  have hk : scaledBelts.IsLinear := .inr ⟨2.0, rfl⟩
  exact ⟨_, _, hs, create_scaledBelts, hk, hd, (segment_bisecting create_scaledBelts hk hs rfl rfl hd).2.2⟩

end Subdivision

end MotionControl
