import MotionControl.Proofs.Outcomes
import MotionControl.Subdivision

/-! Waypoints of a subdivided line. Their motors stand where the inverse transform puts them, and a
calculation that is refused is refused by the inverse transform. -/
namespace MotionControl
variable {α : Type}

/-- The waypoint that a segment ends at. -/
def MotorSegment.waypoint (segment : MotorSegment α) : Waypoint α := ⟨segment.target, segment.motors⟩

variable [Scalar α]

theorem MachineModel.inverse_eq_ok {model : MachineModel α} {p : AxisPosition α} {motors : MotorPosition α} :
    model.inverse p = .ok motors ↔
      p.length = model.axisCount ∧ model.kinematics.inverse p = .ok motors := by
  rw [MachineModel.inverse]
  split
  · rename_i hn
    simp [hn]
  · rename_i hl
    simp [Decidable.not_not.mp hl]

namespace Waypoint

/-- The motors stand where the inverse transform puts them. -/
def Solved (model : MachineModel α) (w : Waypoint α) : Prop := model.inverse w.target = .ok w.motors

theorem length_eq {model : MachineModel α} {a b : Waypoint α} (ha : a.Solved model) (hb : b.Solved model) :
    a.target.length = b.target.length :=
  (MachineModel.inverse_eq_ok.mp ha).1.trans (MachineModel.inverse_eq_ok.mp hb).1.symm

/-- The point half way between two waypoints. -/
def halfway (a b : Waypoint α) : AxisPosition α := a.target.lerp b.target 0.5

end Waypoint

namespace Subdivision
variable {s : Subdivision α} {model : MachineModel α} {a b first last : Waypoint α} {depth : Nat}
  {waypoints : List (Waypoint α)} {start : AxisPosition α} {move : Move α} {e : KinematicsError}

/-- The motor chord of a piece leaves its line by more than the tolerance. -/
def Strays (s : Subdivision α) (model : MachineModel α) (a b : Waypoint α) : Prop :=
  ∃ deviation, chordDeviation model a b = .ok deviation ∧ ¬ deviation ≤ s.tolerance

/-- The pieces of a line that are looked at after a number of bisections. A piece is bisected when it
strays and the greatest depth is not reached. -/
inductive Visits (s : Subdivision α) (model : MachineModel α) (first last : Waypoint α) :
    Nat → Waypoint α → Waypoint α → Prop where
  | line : Visits s model first last 0 first last
  | before {bisections : Nat} {a b : Waypoint α} {motors : MotorPosition α}
      (piece : Visits s model first last bisections a b) (shallow : bisections < s.maxDepth.toNat)
      (strays : s.Strays model a b) (solved : model.inverse (a.halfway b) = .ok motors) :
      Visits s model first last (bisections + 1) a ⟨a.halfway b, motors⟩
  | after {bisections : Nat} {a b : Waypoint α} {motors : MotorPosition α}
      (piece : Visits s model first last bisections a b) (shallow : bisections < s.maxDepth.toNat)
      (strays : s.Strays model a b) (solved : model.inverse (a.halfway b) = .ok motors) :
      Visits s model first last (bisections + 1) ⟨a.halfway b, motors⟩ b

theorem new_eq_ok_iff {tolerance : α} {maxDepth : UInt32} : Subdivision.new tolerance maxDepth = .ok s ↔
    Scalar.isPositive tolerance = true ∧ ¬ (maxDepth = 0 ∨ maxSegmentDepth < maxDepth) ∧
      s = ⟨tolerance, maxDepth⟩ := by
  rw [Subdivision.new]
  cases Scalar.isPositive tolerance with
  | false => simp
  | true =>
    rw [if_neg (by decide)]
    split
    · rename_i hd
      simp [hd]
    · rename_i hd
      simp [hd, eq_comm]

theorem split_zero_eq_ok : s.split model 0 a b = .ok waypoints ↔
    (∃ deviation, chordDeviation model a b = .ok deviation) ∧ waypoints = [b] := by
  simp only [split, Outcome.bind_eq_ok, Outcome.lift_eq_ok, Outcome.pure_eq_ok]
  grind

theorem split_succ_eq_ok : s.split model (depth + 1) a b = .ok waypoints ↔
    (∃ deviation, chordDeviation model a b = .ok deviation ∧ deviation ≤ s.tolerance) ∧
        waypoints = [b] ∨
      s.Strays model a b ∧ ∃ motors left right, model.inverse (a.halfway b) = .ok motors ∧
        s.split model depth a ⟨a.halfway b, motors⟩ = .ok left ∧
        s.split model depth ⟨a.halfway b, motors⟩ b = .ok right ∧ waypoints = left ++ right := by
  rw [split, Outcome.bind_eq_ok]
  simp only [Outcome.lift_eq_ok, Strays]
  constructor
  · rintro ⟨deviation, hd, h⟩
    split at h
    · rename_i hle
      exact .inl ⟨⟨deviation, hd, hle⟩, (Outcome.pure_eq_ok.mp h).symm⟩
    · rename_i hlt
      simp only [Outcome.bind_eq_ok, Outcome.pure_eq_ok] at h
      obtain ⟨motors, hm, left, hl, right, hr, rfl⟩ := h
      exact .inr ⟨⟨deviation, hd, hlt⟩, motors, left, right, hm, hl, hr, rfl⟩
  · rintro (⟨⟨deviation, hd, hle⟩, rfl⟩ | ⟨⟨deviation, hd, hlt⟩, motors, left, right, hm, hl, hr, rfl⟩)
    · exact ⟨deviation, hd, by rw [if_pos hle]; rfl⟩
    · refine ⟨deviation, hd, ?_⟩
      rw [if_neg hlt]
      simp only [Outcome.bind_eq_ok, Outcome.pure_eq_ok]
      exact ⟨motors, hm, left, hl, right, hr, rfl⟩

theorem split_zero_ne_refused : s.split model 0 a b ≠ .error (.refused e) := by
  rw [split, Ne, Outcome.bind_eq_error]
  rintro (h | ⟨_, -, h⟩)
  · exact Outcome.lift_ne_refused h
  · exact Outcome.pure_ne_error h

theorem split_succ_eq_refused (h : s.split model (depth + 1) a b = .error (.refused e)) :
    s.Strays model a b ∧ (model.inverse (a.halfway b) = .error (.refused e) ∨
      ∃ motors, model.inverse (a.halfway b) = .ok motors ∧
        (s.split model depth a ⟨a.halfway b, motors⟩ = .error (.refused e) ∨
          s.split model depth ⟨a.halfway b, motors⟩ b = .error (.refused e))) := by
  rw [split, Outcome.bind_eq_error] at h
  simp only [Outcome.lift_ne_refused, false_or, Outcome.lift_eq_ok] at h
  obtain ⟨deviation, hd, h⟩ := h
  split at h
  · exact absurd h Outcome.pure_ne_error
  · rename_i hlt
    refine ⟨⟨deviation, hd, hlt⟩, ?_⟩
    simp only [Outcome.bind_eq_error, Outcome.pure_ne_error, and_false, exists_false, or_false] at h
    obtain h | ⟨motors, hm, h | ⟨left, -, h⟩⟩ := h
    · exact .inl h
    · exact .inr ⟨motors, hm, .inl h⟩
    · exact .inr ⟨motors, hm, .inr h⟩

theorem split_solved (h : s.split model depth a b = .ok waypoints) (hb : b.Solved model) :
    ∀ w ∈ waypoints, w.Solved model := by
  induction depth generalizing a b waypoints with
  | zero =>
    obtain ⟨-, rfl⟩ := split_zero_eq_ok.mp h
    simpa using hb
  | succ depth ih =>
    obtain ⟨-, rfl⟩ | ⟨-, motors, left, right, hm, hl, hr, rfl⟩ := split_succ_eq_ok.mp h
    · simpa using hb
    · intro w hw
      obtain hw | hw := List.mem_append.mp hw
      · exact ih hl hm w hw
      · exact ih hr hb w hw

theorem waypoints_solved (h : s.waypoints model a b = .ok waypoints) (hb : b.Solved model) :
    ∀ w ∈ waypoints, w.Solved model := by
  rw [Subdivision.waypoints] at h
  split at h
  · cases h
    simpa using hb
  · exact split_solved h hb

/-- The bisection of a piece that is looked at is refused at a point half way along a piece that is
looked at. -/
theorem refused_halfway {bisections : Nat} (hv : Visits s model first last bisections a b)
    (hd : bisections + depth = s.maxDepth.toNat)
    (h : s.split model depth a b = .error (.refused e)) :
    ∃ n c d, Visits s model first last n c d ∧ n < s.maxDepth.toNat ∧ s.Strays model c d ∧
      model.inverse (c.halfway d) = .error (.refused e) := by
  induction depth generalizing a b bisections with
  | zero => exact absurd h split_zero_ne_refused
  | succ depth ih =>
    have hn : bisections < s.maxDepth.toNat := by omega
    obtain ⟨hs, h | ⟨motors, hm, h | h⟩⟩ := split_succ_eq_refused h
    · exact ⟨bisections, a, b, hv, hn, hs, h⟩
    · exact ih (hv.before hn hs hm) (by omega) h
    · exact ih (hv.after hn hs hm) (by omega) h

theorem map_waypoint_withFeed (feedRate : α) (previous : Waypoint α) (waypoints : List (Waypoint α)) :
    (withFeed feedRate previous waypoints).map MotorSegment.waypoint = waypoints := by
  induction waypoints generalizing previous with
  | nil => rfl
  | cons w rest ih =>
    rw [withFeed, List.map_cons, ih]
    rfl

theorem segment_eq_ok {segments : List (MotorSegment α)} :
    s.segment model start move = .ok segments ↔ ∃ startMotors targetMotors,
      model.inverse start = .ok startMotors ∧ model.inverse move.target = .ok targetMotors ∧
      (start.distance move.target < minMoveLength ∧ segments = [] ∨
        ¬ start.distance move.target < minMoveLength ∧ ∃ waypoints,
          s.waypoints model ⟨start, startMotors⟩ ⟨move.target, targetMotors⟩ = .ok waypoints ∧
          segments = withFeed move.feedRate ⟨start, startMotors⟩ waypoints) := by
  simp only [segment, Outcome.bind_eq_ok]
  constructor
  · rintro ⟨startMotors, hs, targetMotors, ht, h⟩
    refine ⟨startMotors, targetMotors, hs, ht, ?_⟩
    split at h
    · rename_i hl
      exact .inl ⟨hl, (Outcome.pure_eq_ok.mp h).symm⟩
    · rename_i hl
      obtain ⟨waypoints, hw, h⟩ := Outcome.bind_eq_ok.mp h
      exact .inr ⟨hl, waypoints, hw, (Outcome.pure_eq_ok.mp h).symm⟩
  · rintro ⟨startMotors, targetMotors, hs, ht, ⟨hl, rfl⟩ | ⟨hl, waypoints, hw, rfl⟩⟩
    · exact ⟨startMotors, hs, targetMotors, ht, by rw [if_pos hl]; rfl⟩
    · refine ⟨startMotors, hs, targetMotors, ht, ?_⟩
      rw [if_neg hl]
      exact Outcome.bind_eq_ok.mpr ⟨waypoints, hw, rfl⟩

theorem segment_eq_refused (h : s.segment model start move = .error (.refused e)) :
    model.inverse start = .error (.refused e) ∨ model.inverse move.target = .error (.refused e) ∨
      model.kinematics.isLinear = false ∧ ¬ start.distance move.target < minMoveLength ∧
        ∃ first last : Waypoint α, first.Solved model ∧ last.Solved model ∧ first.target = start ∧
          last.target = move.target ∧ s.split model s.maxDepth.toNat first last = .error (.refused e) := by
  simp only [segment, Outcome.bind_eq_error] at h
  obtain h | ⟨startMotors, hs, h | ⟨targetMotors, ht, h⟩⟩ := h
  · exact .inl h
  · exact .inr (.inl h)
  · split at h
    · exact absurd h Outcome.pure_ne_error
    · rename_i hl
      obtain h | ⟨_, -, h⟩ := Outcome.bind_eq_error.mp h
      · rw [Subdivision.waypoints] at h
        split at h
        · cases h
        · rename_i hn
          exact .inr (.inr ⟨Bool.eq_false_iff.mpr hn, hl, ⟨start, startMotors⟩,
            ⟨move.target, targetMotors⟩, hs, ht, rfl, rfl, h⟩)
      · exact absurd h Outcome.pure_ne_error

/-- Every segment ends where the inverse transform puts the motors. Linear kinematics have no
segment that ends short of the target. -/
theorem mem_segment {segments : List (MotorSegment α)}
    (h : s.segment model start move = .ok segments) {segment : MotorSegment α} (hm : segment ∈ segments) :
    segment.waypoint.Solved model ∧
      (model.kinematics.isLinear = true → segment.target = move.target) := by
  obtain ⟨startMotors, targetMotors, -, ht, ⟨-, rfl⟩ | ⟨-, waypoints, hw, rfl⟩⟩ := segment_eq_ok.mp h
  · simp at hm
  · have hmem := List.mem_map_of_mem (f := MotorSegment.waypoint) hm
    rw [map_waypoint_withFeed] at hmem
    refine ⟨waypoints_solved hw ht _ hmem, fun hl => ?_⟩
    rw [Subdivision.waypoints, if_pos hl] at hw
    cases hw
    exact congrArg Waypoint.target (List.mem_singleton.mp hmem)

end Subdivision

end MotionControl
