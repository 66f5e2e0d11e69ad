import MotionControl.Arc
import MotionControl.Proofs.Outcomes
import MotionControl.Proofs.Position.Lines

/-! The points of an arc. They can be written down when both ends have the axes of the circle, and are then turned
around its center; all other axes are where they would be on a line. -/
namespace MotionControl
open Scalar
variable {α : Type} [Scalar α]

/-- No axis of the plane is named twice. -/
structure ArcPlane.Distinct (plane : ArcPlane) : Prop where
  first_ne_second : plane.first ≠ plane.second
  first_ne_linear : plane.first ≠ plane.linear
  second_ne_linear : plane.second ≠ plane.linear

namespace Arc
variable {arc : Arc α} {start target : AxisPosition α} {turn t tolerance : α}

/-- The axes of the circle are among the first `axisCount`. -/
def CircleWithin (arc : Arc α) (axisCount : Nat) : Prop :=
  arc.plane.first < axisCount ∧ arc.plane.second < axisCount

/-- The angle at which a position is seen from the center. -/
def direction (arc : Arc α) (p : AxisPosition α) : α := atan2 (arc.offset p).2 (arc.offset p).1

/-- Distance from the center, in the plane of the circle. -/
def centerDistance (arc : Arc α) (p : AxisPosition α) : α := hypot (arc.offset p).1 (arc.offset p).2

/-- The axes of a point of the arc, after a part `t` of the turn. -/
structure IsPointAt (arc : Arc α) (start target : AxisPosition α) (turn t : α) (p : AxisPosition α) : Prop where
  length : p.length = min start.length target.length
  first : p.axis arc.plane.first = arc.center.1 + arc.radius * cos (arc.direction start + turn * t)
  second : p.axis arc.plane.second = arc.center.2 + arc.radius * sin (arc.direction start + turn * t)
  beside : ∀ axis < min start.length target.length, axis ≠ arc.plane.first → axis ≠ arc.plane.second →
    p.axis axis = start.axis axis + (target.axis axis - start.axis axis) * t

theorem exists_pointAt (h : arc.CircleWithin (min start.length target.length)) (turn t : α) :
    ∃ p, arc.pointAt start target turn t = .ok p := by
  rw [← AxisPosition.length_lerp start target t] at h
  refine ⟨_, Outcome.bind_eq_ok.mpr ⟨_, if_pos h.1, Outcome.bind_eq_ok.mpr ⟨_, if_pos ?_, rfl⟩⟩⟩
  rw [List.length_set]
  exact h.2

/-- It stands on the circle of the arc unless the axis along it is one of the circle as well. -/
theorem isPointAt_of_pointAt {p : AxisPosition α} (hd : arc.plane.Distinct)
    (h : arc.pointAt start target turn t = .ok p) : arc.IsPointAt start target turn t p := by
  obtain ⟨_, hf, h⟩ := Outcome.bind_eq_ok.mp h
  obtain ⟨_, hs, h⟩ := Outcome.bind_eq_ok.mp h
  obtain ⟨hin, rfl⟩ := Coordinates.set_eq_ok.mp hf
  obtain ⟨hin', rfl⟩ := Coordinates.set_eq_ok.mp hs
  cases h
  obtain ⟨hfirst, hlinear, hsecond⟩ := hd
  have hl := Coordinates.length_lerp start.values target.values t
  constructor
  · rw [AxisPosition.length, List.length_set, List.length_set, List.length_set, hl]
    rfl
  · rw [AxisPosition.axis_set_ne hlinear.symm, AxisPosition.axis_set_ne hfirst.symm, AxisPosition.axis_set hin]
    rfl
  · rw [AxisPosition.axis_set_ne hsecond.symm, AxisPosition.axis_set hin']
    rfl
  · intro axis hx hx1 hx2
    have hline := AxisPosition.axis_lerp hx t
    by_cases hx3 : axis = arc.plane.linear
    · subst hx3
      rw [AxisPosition.axis_set]
      rw [List.length_set, List.length_set, hl]
      exact hx
    · rw [AxisPosition.axis_set_ne (Ne.symm hx3), AxisPosition.axis_set_ne hx2.symm, AxisPosition.axis_set_ne hx1.symm]
      exact hline

theorem pointAt_eq_error (h : ¬ arc.CircleWithin (min start.length target.length)) (turn t : α) :
    arc.pointAt start target turn t = .error .missingAxis := by
  rw [← AxisPosition.length_lerp start target t] at h
  rw [pointAt, Outcome.bind_eq_error]
  by_cases hf : arc.plane.first < (Coordinates.lerp start.values target.values t).length
  · refine .inr ⟨_, if_pos hf, Outcome.bind_eq_error.mpr (.inl (if_neg ?_))⟩
    rw [List.length_set]
    exact fun hs => h ⟨hf, hs⟩
  · exact .inl (if_neg hf)

theorem exists_chords (h : arc.CircleWithin (min start.length target.length)) (tolerance : α) :
    ∃ points, arc.chords start target tolerance = .ok points := by
  obtain ⟨points, hp⟩ := Outcome.exists_mapM
    (List.range (arc.chordCount (arc.sweep start target) tolerance - 1)) fun i =>
      exists_pointAt h (arc.sweep start target)
        (ofNat (i + 1) / ofNat (arc.chordCount (arc.sweep start target) tolerance))
  exact ⟨points ++ [target], Outcome.bind_eq_ok.mpr ⟨points, hp, rfl⟩⟩

theorem one_le_chordCount (arc : Arc α) (turn tolerance : α) : 1 ≤ arc.chordCount turn tolerance := by
  rw [chordCount]
  split
  · exact le_max_left ..
  · exact le_rfl

theorem chords_of_single (h : arc.chordCount (arc.sweep start target) tolerance = 1) :
    arc.chords start target tolerance = .ok [target] := by
  rw [chords, h]
  rfl

theorem chords_eq_error (h : ¬ arc.CircleWithin (min start.length target.length))
    (hc : arc.chordCount (arc.sweep start target) tolerance ≠ 1) :
    arc.chords start target tolerance = .error .missingAxis := by
  obtain ⟨count, hn⟩ : ∃ count, arc.chordCount (arc.sweep start target) tolerance - 1 = count + 1 :=
    Nat.exists_eq_add_one.mpr (by have := one_le_chordCount arc (arc.sweep start target) tolerance; omega)
  refine Outcome.bind_eq_error.mpr (.inl ?_)
  rw [hn, List.range_succ_eq_map, List.mapM_cons, pointAt_eq_error h]
  rfl

/-- Room can be reserved for the points between the ends. -/
def HasRoom (arc : Arc α) (start target : AxisPosition α) (tolerance : α) : Prop :=
  (arc.chordCount (arc.sweep start target) tolerance - 1) * positionBytes ≤ maxReservation

theorem collectChords_of_room (h : arc.HasRoom start target tolerance) :
    arc.collectChords start target tolerance = arc.chords start target tolerance :=
  if_neg (Nat.not_lt.mpr h)

theorem collectChords_eq_error (h : ¬ arc.HasRoom start target tolerance) :
    arc.collectChords start target tolerance = .error .capacityOverflow :=
  if_pos (Nat.lt_of_not_le h)

theorem hasRoom_of_single (h : arc.chordCount (arc.sweep start target) tolerance = 1) :
    arc.HasRoom start target tolerance := by
  rw [HasRoom, h]
  exact Nat.zero_le _

end Arc

end MotionControl
