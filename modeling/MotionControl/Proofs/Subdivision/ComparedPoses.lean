import MotionControl.Proofs.Subdivision.Waypoints

/-! The poses that a line is compared with while it is subdivided. The forward transform of each of them must
be finite: a subdivision is broken off at one that is not, and nowhere else. -/
namespace MotionControl
variable {α : Type} [Scalar α]

/-- The inverse transform of a model always answers. -/
def MachineModel.InverseAnswers (model : MachineModel α) : Prop := ∀ p, ¬ Outcome.BreaksOff (model.inverse p)

namespace Subdivision
variable {s : Subdivision α} {model : MachineModel α} {a b : Waypoint α} {depth : Nat} {pose : MotorPosition α}
  {start : AxisPosition α} {move : Move α}

/-- The poses of a piece that is bisected at most `depth` times, in the order they are come to: its quarter
points, and once it strays those of its first half and then, if that half is solved, of its second. -/
inductive Compares (s : Subdivision α) (model : MachineModel α) :
    Nat → Waypoint α → Waypoint α → MotorPosition α → Prop where
  | quarter {depth : Nat} {a b : Waypoint α} {t : α} (sample : t ∈ chordSamples) :
      Compares s model depth a b (a.motors.lerp b.motors t)
  | before {depth : Nat} {a b : Waypoint α} {motors pose : MotorPosition α} (strays : s.Strays model a b)
      (solved : model.inverse (a.halfway b) = .ok motors)
      (half : Compares s model depth a ⟨a.halfway b, motors⟩ pose) : Compares s model (depth + 1) a b pose
  | after {depth : Nat} {a b : Waypoint α} {motors pose : MotorPosition α} {waypoints : List (Waypoint α)}
      (strays : s.Strays model a b) (solved : model.inverse (a.halfway b) = .ok motors)
      (first : s.split model depth a ⟨a.halfway b, motors⟩ = .ok waypoints)
      (half : Compares s model depth ⟨a.halfway b, motors⟩ b pose) : Compares s model (depth + 1) a b pose

/-- The poses of a line. Linear kinematics compare none, and neither does a line too short to be moved. -/
inductive ComparesLine (s : Subdivision α) (model : MachineModel α) (start target : AxisPosition α)
    (pose : MotorPosition α) : Prop where
  | line {startMotors targetMotors : MotorPosition α} (curved : model.kinematics.isLinear = false)
      (long : ¬ start.distance target < minMoveLength) (first : model.inverse start = .ok startMotors)
      (last : model.inverse target = .ok targetMotors)
      (piece : Compares s model s.maxDepth.toNat ⟨start, startMotors⟩ ⟨target, targetMotors⟩ pose)

private theorem exists_error_foldlM {β : Type} {f : β → Checked (AxisPosition α)} {g : AxisPosition α → α}
    (samples : List β) (worst : α) :
    (∃ fault, samples.foldlM (fun worst t => do return Scalar.larger worst (g (← f t))) worst = .error fault) ↔
      ∃ t ∈ samples, ∃ fault, f t = .error fault := by
  induction samples generalizing worst with
  | nil => simp [pure, Except.pure]
  | cons t samples ih =>
    rw [List.foldlM_cons]
    cases h : f t with
    | error fault => simp [h, bind, Except.bind]
    | ok p =>
      refine (ih (Scalar.larger worst (g p))).trans ?_
      simp [h]

/-- A chord is compared with its line at all the samples, so one pose is enough to break it off. -/
theorem exists_chordDeviation_eq_error : (∃ fault, chordDeviation model a b = .error fault) ↔
    ∃ t ∈ chordSamples, ∃ fault, model.forward (a.motors.lerp b.motors t) a.target.length = .error fault :=
  exists_error_foldlM chordSamples 0.0

theorem Waypoint.Solved.length {w : Waypoint α} (h : w.Solved model) : w.target.length = model.axisCount :=
  (MachineModel.inverse_eq_ok.mp h).1

private theorem exists_error_quarter (ha : a.Solved model) : (∃ fault, chordDeviation model a b = .error fault) ↔
    ∃ t ∈ chordSamples, ∃ fault, model.forward (a.motors.lerp b.motors t) model.axisCount = .error fault := by
  rw [exists_chordDeviation_eq_error, Waypoint.Solved.length ha]

theorem breaksOff_split_zero_iff : Outcome.BreaksOff (s.split model 0 a b) ↔
    ∃ fault, chordDeviation model a b = .error fault := by
  rw [split, Outcome.breaksOff_bind, Outcome.breaksOff_lift]
  refine or_iff_left ?_
  rintro ⟨_, -, h⟩
  exact Outcome.not_breaksOff_ok h

/-- A piece that strays is broken off by either of its halves as well. -/
theorem breaksOff_split_succ_iff (hi : model.InverseAnswers) :
    Outcome.BreaksOff (s.split model (depth + 1) a b) ↔ (∃ fault, chordDeviation model a b = .error fault) ∨
      s.Strays model a b ∧ ∃ motors, model.inverse (a.halfway b) = .ok motors ∧
        (Outcome.BreaksOff (s.split model depth a ⟨a.halfway b, motors⟩) ∨
          ∃ left, s.split model depth a ⟨a.halfway b, motors⟩ = .ok left ∧
            Outcome.BreaksOff (s.split model depth ⟨a.halfway b, motors⟩ b)) := by
  rw [split, Outcome.breaksOff_bind, Outcome.breaksOff_lift]
  apply or_congr_right
  simp only [Outcome.lift_eq_ok]
  constructor
  · rintro ⟨deviation, hd, h⟩
    split at h
    · exact absurd h Outcome.not_breaksOff_ok
    · rename_i hn
      refine ⟨⟨deviation, hd, hn⟩, ?_⟩
      obtain h | ⟨motors, hm, h⟩ := Outcome.breaksOff_bind.mp h
      · exact absurd h (hi _)
      · obtain h | ⟨left, hl, h⟩ := Outcome.breaksOff_bind.mp h
        · exact ⟨motors, hm, .inl h⟩
        · obtain h | ⟨right, -, h⟩ := Outcome.breaksOff_bind.mp h
          · exact ⟨motors, hm, .inr ⟨left, hl, h⟩⟩
          · exact absurd h Outcome.not_breaksOff_ok
  · rintro ⟨⟨deviation, hd, hn⟩, motors, hm, h⟩
    refine ⟨deviation, hd, ?_⟩
    rw [if_neg hn]
    refine Outcome.breaksOff_bind.mpr (.inr ⟨motors, hm, Outcome.breaksOff_bind.mpr ?_⟩)
    obtain h | ⟨left, hl, h⟩ := h
    · exact .inl h
    · exact .inr ⟨left, hl, Outcome.breaksOff_bind.mpr (.inl h)⟩

theorem breaksOff_split_iff (hi : model.InverseAnswers) (ha : a.Solved model) :
    Outcome.BreaksOff (s.split model depth a b) ↔
      ∃ pose, Compares s model depth a b pose ∧ ∃ fault, model.forward pose model.axisCount = .error fault := by
  induction depth generalizing a b with
  | zero =>
    rw [breaksOff_split_zero_iff, exists_error_quarter ha]
    constructor
    · rintro ⟨t, ht, hf⟩
      exact ⟨_, .quarter ht, hf⟩
    · rintro ⟨pose, hp, hf⟩
      cases hp with
      | quarter ht => exact ⟨_, ht, hf⟩
  | succ depth ih =>
    rw [breaksOff_split_succ_iff hi, exists_error_quarter ha]
    constructor
    · rintro (⟨t, ht, hf⟩ | ⟨hs, motors, hm, h | ⟨left, hl, h⟩⟩)
      · exact ⟨_, .quarter ht, hf⟩
      · obtain ⟨pose, hp, hf⟩ := (ih ha).mp h
        exact ⟨pose, .before hs hm hp, hf⟩
      · have hsolved : Waypoint.Solved model ⟨a.halfway b, motors⟩ := hm
        obtain ⟨pose, hp, hf⟩ := (ih hsolved).mp h
        exact ⟨pose, .after hs hm hl hp, hf⟩
    · rintro ⟨pose, hp, hf⟩
      cases hp with
      | quarter ht => exact .inl ⟨_, ht, hf⟩
      | before strays solved half =>
        exact .inr ⟨strays, _, solved, .inl ((ih ha).mpr ⟨pose, half, hf⟩)⟩
      | @after _ _ _ motors _ _ strays solved first half =>
        have hsolved : Waypoint.Solved model ⟨a.halfway b, motors⟩ := solved
        exact .inr ⟨strays, _, solved, .inr ⟨_, first, (ih hsolved).mpr ⟨pose, half, hf⟩⟩⟩

theorem breaksOff_segment_iff (hi : model.InverseAnswers) : Outcome.BreaksOff (s.segment model start move) ↔
    ∃ pose, ComparesLine s model start move.target pose ∧
      ∃ fault, model.forward pose model.axisCount = .error fault := by
  simp only [segment, Outcome.breaksOff_bind]
  constructor
  · rintro (h | ⟨startMotors, hs, h | ⟨targetMotors, ht, h⟩⟩)
    · exact absurd h (hi _)
    · exact absurd h (hi _)
    · split at h
      · exact absurd h Outcome.not_breaksOff_ok
      · rename_i hl
        obtain h | ⟨_, -, h⟩ := Outcome.breaksOff_bind.mp h
        · rw [Subdivision.waypoints] at h
          split at h
          · exact absurd h Outcome.not_breaksOff_ok
          · rename_i hn
            have hsolved : Waypoint.Solved model ⟨start, startMotors⟩ := hs
            obtain ⟨pose, hp, hf⟩ := (breaksOff_split_iff hi hsolved).mp h
            exact ⟨pose, .line (Bool.eq_false_iff.mpr hn) hl hs ht hp, hf⟩
        · exact absurd h Outcome.not_breaksOff_ok
  · rintro ⟨pose, @⟨startMotors, targetMotors, curved, long, first, last, piece⟩, hf⟩
    have hsolved : Waypoint.Solved model ⟨start, startMotors⟩ := first
    refine .inr ⟨_, first, .inr ⟨_, last, ?_⟩⟩
    rw [if_neg long]
    refine Outcome.breaksOff_bind.mpr (.inl ?_)
    rw [Subdivision.waypoints, if_neg (Bool.eq_false_iff.mp curved)]
    exact (breaksOff_split_iff hi hsolved).mpr ⟨pose, piece, hf⟩

end Subdivision

end MotionControl
