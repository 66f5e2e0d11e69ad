import MotionControl.Proofs.Position.Distances
import MotionControl.Proofs.Subdivision.LineFollowing

/-! Feed rates of a subdivided line, over exact numbers. The pieces are together as long as the line, and each
has the feed rate that keeps the commanded speed along it. -/
namespace MotionControl

/-- A segment of a move with the waypoint that it starts from. -/
structure Leg (α : Type) where
  start : Waypoint α
  segment : MotorSegment α

namespace Leg
variable {α : Type} [Scalar α]

def length (leg : Leg α) : α := leg.start.target.distance leg.segment.target

/-- How far the motors travel. -/
def motorLength (leg : Leg α) : α := leg.start.motors.distance leg.segment.motors

/-- How many minutes the motors take at the feed rate of the segment. -/
def minutes (leg : Leg α) : α := leg.motorLength / leg.segment.feedRate

end Leg

/-- The segments of a move, each from the waypoint that the last one ended at. -/
def legs {α : Type} : Waypoint α → List (MotorSegment α) → List (Leg α)
  | _, [] => []
  | start, segment :: rest => ⟨start, segment⟩ :: legs segment.waypoint rest

/-- The length of the way along waypoints. -/
noncomputable def travel : AxisPosition ℝ → List (Waypoint ℝ) → ℝ
  | _, [] => 0
  | start, w :: rest => start.distance w.target + travel w.target rest

/-- The motors move on every leg that has a length. -/
def Leg.Drives (leg : Leg ℝ) : Prop := leg.motorLength = 0 → leg.length = 0

/-- A leg that keeps a speed along the line takes the time of its length at that speed. -/
theorem Leg.minutes_eq {leg : Leg ℝ} {feedRate : ℝ} (hf : feedRate ≠ 0) (hd : leg.Drives)
    (h : leg.segment.feedRate * leg.length = feedRate * leg.motorLength) :
    leg.minutes = leg.length / feedRate := by
  rw [minutes]
  by_cases hm : leg.motorLength = 0
  · rw [hm, hd hm, zero_div, zero_div]
  · have hs : leg.segment.feedRate ≠ 0 := by
      intro hz
      rw [hz, zero_mul] at h
      exact mul_ne_zero hf hm h.symm
    rw [div_eq_div_iff hs hf, mul_comm, ← h, mul_comm]

namespace Waypoint
variable {model : MachineModel ℝ} {a b : Waypoint ℝ}

theorem motors_eq (ha : a.Solved model) (hb : b.Solved model) (h : a.target.distance b.target = 0) :
    a.motors = b.motors := by
  have ht : a.target = b.target := AxisPosition.eq_of_distance_eq_zero (length_eq ha hb) h
  rw [Solved, ht, hb] at ha
  exact (Except.ok.inj ha).symm

theorem distance_halfway (hl : a.target.length = b.target.length) :
    a.target.distance (a.halfway b) = a.target.distance b.target / 2 ∧
      (a.halfway b).distance b.target = a.target.distance b.target / 2 := by
  have hfirst := AxisPosition.distance_lerp_lerp a.target b.target 0 0.5
  have hsecond := AxisPosition.distance_lerp_lerp a.target b.target 0.5 1
  rw [AxisPosition.lerp_zero hl] at hfirst
  rw [AxisPosition.lerp_one hl] at hsecond
  rw [halfway, hfirst, hsecond]
  constructor <;> norm_num [abs_of_pos] <;> ring

end Waypoint

namespace Subdivision
variable {s : Subdivision ℝ} {model : MachineModel ℝ} {a b : Waypoint ℝ} {waypoints : List (Waypoint ℝ)}

/-- The pieces of a line are together as long as the line, whatever comes after it. -/
theorem travel_split {depth : ℕ} (h : s.split model depth a b = .ok waypoints) (ha : a.Solved model)
    (hb : b.Solved model) (rest : List (Waypoint ℝ)) :
    travel a.target (waypoints ++ rest) = a.target.distance b.target + travel b.target rest := by
  induction depth generalizing a b waypoints rest with
  | zero =>
    obtain ⟨-, rfl⟩ := split_zero_eq_ok.mp h
    rfl
  | succ depth ih =>
    obtain ⟨-, rfl⟩ | ⟨-, motors, left, right, hm, hl, hr, rfl⟩ := split_succ_eq_ok.mp h
    · rfl
    · have hmiddle : Waypoint.Solved model ⟨a.halfway b, motors⟩ := hm
      obtain ⟨hfirst, hsecond⟩ := Waypoint.distance_halfway (Waypoint.length_eq ha hb)
      rw [List.append_assoc, ih hl ha hmiddle, ih hr hmiddle hb, hfirst, hsecond]
      ring

theorem travel_waypoints (h : s.waypoints model a b = .ok waypoints) (ha : a.Solved model)
    (hb : b.Solved model) : travel a.target waypoints = a.target.distance b.target := by
  rw [Subdivision.waypoints] at h
  split at h
  · cases h
    exact add_zero _
  · have ht := travel_split h ha hb []
    rwa [List.append_nil, travel, add_zero] at ht

theorem sum_length_legs (feedRate : ℝ) (a : Waypoint ℝ) (waypoints : List (Waypoint ℝ)) :
    ((legs a (withFeed feedRate a waypoints)).map Leg.length).sum = travel a.target waypoints := by
  induction waypoints generalizing a with
  | nil => rfl
  | cons w rest ih =>
    rw [withFeed, legs, List.map_cons, List.sum_cons, MotorSegment.waypoint, ih]
    rfl

/-- Each leg keeps the commanded speed along the line. -/
theorem feedRate_mul_length (feedRate : ℝ) (ha : a.Solved model) (hw : ∀ w ∈ waypoints, w.Solved model) :
    ∀ leg ∈ legs a (withFeed feedRate a waypoints),
      leg.segment.feedRate * leg.length = feedRate * leg.motorLength := by
  induction waypoints generalizing a with
  | nil => exact fun _ => nofun
  | cons w rest ih =>
    have hsolved : w.Solved model := hw w (.head _)
    rw [withFeed, legs, List.forall_mem_cons]
    refine ⟨?_, ih hsolved fun v hv => hw v (.tail _ hv)⟩
    simp only [Leg.length, Leg.motorLength, Scalar.zero_real]
    split
    · rename_i hpos
      exact div_mul_cancel₀ _ hpos.ne'
    · rename_i hpos
      -- A leg without a length has no motor travel either, so its feed rate does not matter.
      have hz : a.target.distance w.target = 0 :=
        le_antisymm (not_lt.mp hpos) (Coordinates.distance_nonneg _ _)
      have hm : a.motors.distance w.motors = 0 := by
        rw [Waypoint.motors_eq ha hsolved hz]
        exact Coordinates.distance_self _
      rw [hz, hm]

/-- However a line is subdivided, each segment has the feed rate that keeps the commanded speed along the line,
and the segments are together as long as the line. The move takes its commanded time where the motors drive
every leg. -/
theorem segment_paced {start : AxisPosition ℝ} {move : Move ℝ} {segments : List (MotorSegment ℝ)}
    (h : s.segment model start move = .ok segments) (hn : segments ≠ []) :
    ∃ motors, model.inverse start = .ok motors ∧
      (∀ leg ∈ legs ⟨start, motors⟩ segments,
        leg.segment.feedRate * leg.length = move.feedRate * leg.motorLength) ∧
      ((legs ⟨start, motors⟩ segments).map Leg.length).sum = start.distance move.target ∧
      (move.feedRate ≠ 0 → (∀ leg ∈ legs ⟨start, motors⟩ segments, leg.Drives) →
        ((legs ⟨start, motors⟩ segments).map Leg.minutes).sum = start.distance move.target / move.feedRate) := by
  obtain ⟨motors, motors', hs, ht, ⟨-, rfl⟩ | ⟨-, waypoints, hw, rfl⟩⟩ := segment_eq_ok.mp h
  · exact absurd rfl hn
  · have hstart : Waypoint.Solved model ⟨start, motors⟩ := hs
    have htarget : Waypoint.Solved model ⟨move.target, motors'⟩ := ht
    have hpaced := feedRate_mul_length move.feedRate hstart (waypoints_solved hw htarget)
    have hlength := (sum_length_legs move.feedRate ⟨start, motors⟩ waypoints).trans
      (travel_waypoints hw hstart htarget)
    refine ⟨motors, hs, hpaced, hlength, ?_⟩
    intro hf hd
    rw [← hlength, div_eq_mul_inv, ← List.sum_map_mul_right]
    refine congrArg List.sum (List.map_congr_left fun leg hleg => ?_)
    exact (Leg.minutes_eq hf (hd leg hleg) (hpaced leg hleg)).trans (div_eq_mul_inv ..)

/-- The two halves of the bent line, which are driven differently far, take a second together. -/
theorem bent_halves_paced : ∃ segments,
    segment ⟨1 / 10, 1⟩ bentModel (bentAt 0).target (.linear (bentAt 1).target 60) = .ok segments ∧
    segments.map MotorSegment.waypoint = [bentAt (1 / 2), bentAt 1] ∧ segments ≠ [] ∧
    (60 : ℝ) ≠ 0 ∧ (∀ leg ∈ legs (bentAt 0) segments, leg.Drives) ∧
    ((legs (bentAt 0) segments).map Leg.minutes).sum = 1 / 60 := by
  have hd : (bentAt 0).target.distance (bentAt 1).target = 1 := by
    norm_num [bentAt, AxisPosition.distance, Coordinates.distance, Scalar.sum]
  have hlong : ¬ (bentAt 0).target.distance (bentAt 1).target < minMoveLength := by
    norm_num [hd, minMoveLength]
  have hg : segment ⟨1 / 10, 1⟩ bentModel (bentAt 0).target (.linear (bentAt 1).target 60) =
      .ok (withFeed 60 (bentAt 0) [bentAt (1 / 2), bentAt 1]) :=
    segment_eq_ok.mpr ⟨(bentAt 0).motors, (bentAt 1).motors, bentAt_solved (by norm_num),
      bentAt_solved (by norm_num), .inr ⟨hlong, _, split_bentAt, rfl⟩⟩
  have hdrives : ∀ leg ∈ legs (bentAt 0) (withFeed 60 (bentAt 0) [bentAt (1 / 2), bentAt 1]), leg.Drives := by
    intro leg hleg hz
    have hsq : Coordinates.distanceSq leg.start.motors.values leg.segment.motors.values = 0 := by
      rw [← Coordinates.distance_sq]
      exact pow_eq_zero_iff two_ne_zero |>.mpr hz
    simp only [withFeed, legs, List.mem_cons, List.not_mem_nil, or_false] at hleg
    obtain rfl | rfl := hleg <;> norm_num [bentAt, MotorSegment.waypoint] at hsq
  obtain ⟨motors, hm, -, -, hminutes⟩ := segment_paced hg (List.cons_ne_nil _ _)
  rw [(bentAt_solved (by norm_num) : (bentAt 0).Solved bentModel)] at hm
  cases hm
  have ht := (hminutes (by norm_num [Move.linear]) hdrives).trans (congrArg (· / 60) hd)
  exact ⟨_, hg, map_waypoint_withFeed .., List.cons_ne_nil _ _, by norm_num, hdrives, ht⟩

end Subdivision

end MotionControl
