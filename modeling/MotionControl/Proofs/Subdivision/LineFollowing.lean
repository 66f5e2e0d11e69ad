import Mathlib
import MotionControl.Kinematics.Plugins
import MotionControl.Proofs.Position.Lines
import MotionControl.Proofs.Subdivision.Waypoints

/-! How far the motor segments of a line keep to it, over exact numbers. Waypoints are marked with
their place on the finest grid, the line halved as often as the depth allows. -/
namespace MotionControl.Subdivision
open Scalar

/-- The point of a line at a mark of its finest grid. -/
noncomputable def gridPoint (start target : AxisPosition ℝ) (depth mark : ℕ) : AxisPosition ℝ :=
  start.lerp target (mark / (2 ^ depth : ℕ))

/-- At its quarter points the motor chord between two waypoints is within the tolerance of the piece
of the line between them. -/
def ChordFollows (tolerance : ℝ) (model : MachineModel ℝ) (a b : Waypoint ℝ) : Prop :=
  ∀ t ∈ [0.25, 0.5, 0.75], ∃ point,
    model.forward (a.motors.lerp b.motors t) a.target.length = .ok point ∧
      ∃ u ∈ Set.Icc (0 : ℝ) 1, point.distance (a.target.lerp b.target u) ≤ tolerance

/-- A piece between marked waypoints follows its line or cannot be halved any more. -/
def Follows (tolerance : ℝ) (model : MachineModel ℝ) (p q : ℕ × Waypoint ℝ) : Prop :=
  ChordFollows tolerance model p.2 q.2 ∨ q.1 = p.1 + 1

/-- The motor segments of a line that is cut at the given marks. -/
structure FollowsLine (tolerance : ℝ) (depth : ℕ) (model : MachineModel ℝ)
    (start target : AxisPosition ℝ) (segments : List (MotorSegment ℝ)) (marks : List ℕ) : Prop where
  nonempty : segments ≠ []
  length_le : segments.length ≤ 2 ^ depth
  targets : segments.map MotorSegment.target = marks.map (gridPoint start target depth)
  ascending : (0 :: marks).Pairwise (· < ·)
  ends : marks.getLast? = some (2 ^ depth)
  last_target : segments.getLast?.map MotorSegment.target = some target
  solved : ∀ segment ∈ segments, model.inverse segment.target = .ok segment.motors
  pieces : ∃ motors, model.inverse start = .ok motors ∧
    ((0, ⟨start, motors⟩) :: marks.zip (segments.map MotorSegment.waypoint)).IsChain
      (Follows tolerance model)

variable {s : Subdivision ℝ} {model : MachineModel ℝ} {a b : Waypoint ℝ}
  {waypoints : List (Waypoint ℝ)} {tolerance deviation : ℝ} {start target : AxisPosition ℝ}
  {depth finest mark : ℕ}

private theorem le_of_foldlM_larger {β : Type} {point : ℝ → Checked β} {stray : β → ℝ}
    {samples : List ℝ} {first : ℝ}
    (h : samples.foldlM (fun worst t => do return larger worst (stray (← point t))) first =
      .ok deviation) :
    first ≤ deviation ∧ ∀ t ∈ samples, ∃ p, point t = .ok p ∧ stray p ≤ deviation := by
  induction samples generalizing first with
  | nil =>
    simp only [List.foldlM_nil, Outcome.pure_eq_ok] at h
    simp [h]
  | cons t samples ih =>
    simp only [List.foldlM_cons, Outcome.bind_eq_ok, Outcome.pure_eq_ok] at h
    obtain ⟨_, ⟨p, hp, rfl⟩, hrest⟩ := h
    obtain ⟨hfirst, hall⟩ := ih hrest
    rw [larger_real] at hfirst
    refine ⟨(le_max_left _ _).trans hfirst, ?_⟩
    intro u hu
    obtain rfl | hu := List.mem_cons.mp hu
    · exact ⟨p, hp, (le_max_right _ _).trans hfirst⟩
    · exact hall u hu

theorem chordFollows_of_chordDeviation (hl : a.target.length = b.target.length)
    (h : chordDeviation model a b = .ok deviation) (ht : deviation ≤ tolerance) :
    ChordFollows tolerance model a b := by
  obtain ⟨-, hall⟩ := le_of_foldlM_larger h
  intro t hm
  obtain ⟨point, hp, hd⟩ := hall t hm
  obtain ⟨u, hu, he⟩ := AxisPosition.exists_distanceToSegment_eq point hl
  exact ⟨point, hp, u, hu, he ▸ hd.trans ht⟩

theorem length_gridPoint : (gridPoint start target depth mark).length = min start.length target.length :=
  start.length_lerp target _

theorem lerp_gridPoint : (gridPoint start target finest mark).lerp
      (gridPoint start target finest (mark + 2 ^ (depth + 1))) 0.5 =
    gridPoint start target finest (mark + 2 ^ depth) := by
  rw [gridPoint, gridPoint, gridPoint, AxisPosition.lerp_lerp]
  congr 1
  push_cast
  ring

/-- The marked waypoints of a piece of a line, from its start to its end. -/
private structure Trail (tolerance : ℝ) (model : MachineModel ℝ) (line : ℕ → AxisPosition ℝ)
    (first last : ℕ × Waypoint ℝ) (steps : List (ℕ × Waypoint ℝ)) : Prop where
  on_line : ∀ p ∈ steps, p.2.target = line p.1
  ends : steps.getLast? = some last
  chain : (first :: steps).IsChain fun p q => p.1 < q.1 ∧ Follows tolerance model p q

namespace Trail
variable {line : ℕ → AxisPosition ℝ} {first middle last : ℕ × Waypoint ℝ}
  {steps left right : List (ℕ × Waypoint ℝ)}

private theorem single (hm : first.1 < last.1) (hf : Follows tolerance model first last)
    (hl : last.2.target = line last.1) : Trail tolerance model line first last [last] where
  on_line := by simpa using hl
  ends := rfl
  chain := by simpa using ⟨hm, hf⟩

private theorem append (hl : Trail tolerance model line first middle left)
    (hr : Trail tolerance model line middle last right) :
    Trail tolerance model line first last (left ++ right) where
  on_line p hp := (List.mem_append.mp hp).elim (hl.on_line p) (hr.on_line p)
  ends := by rw [List.getLast?_append, hr.ends, Option.some_or]
  chain := by
    obtain ⟨before, rfl⟩ := List.getLast?_eq_some_iff.mp hl.ends
    have hc : first :: (before ++ [middle] ++ right) = (first :: before) ++ middle :: right := by simp
    rw [hc, List.isChain_split]
    exact ⟨hl.chain, hr.chain⟩

private theorem ascending (h : Trail tolerance model line first last steps) :
    (first.1 :: steps.map Prod.fst).Pairwise (· < ·) := by
  rw [← List.map_cons, ← List.isChain_iff_pairwise, List.isChain_map]
  exact h.chain.imp fun _ _ hp => hp.1

end Trail

/-- The waypoints of a piece that lies between marks as far apart as its depth allows. -/
private theorem exists_trail {waypoints : List (Waypoint ℝ)}
    (h : s.split model depth a b = .ok waypoints)
    (ha : a.target = gridPoint start target finest mark)
    (hb : b.target = gridPoint start target finest (mark + 2 ^ depth)) :
    ∃ steps, Trail s.tolerance model (gridPoint start target finest) (mark, a) (mark + 2 ^ depth, b) steps ∧
      steps.map Prod.snd = waypoints := by
  induction depth generalizing a b mark waypoints with
  | zero =>
    obtain ⟨-, rfl⟩ := split_zero_eq_ok.mp h
    exact ⟨_, .single (by simp) (.inr rfl) hb, rfl⟩
  | succ depth ih =>
    obtain ⟨⟨deviation, hd, hle⟩, rfl⟩ | ⟨-, motors, left, right, -, hleft, hright, rfl⟩ := split_succ_eq_ok.mp h
    · have hl : a.target.length = b.target.length := by rw [ha, hb, length_gridPoint, length_gridPoint]
      exact ⟨_, .single (by simp) (.inl (chordFollows_of_chordDeviation hl hd hle)) hb, rfl⟩
    · have hm : a.halfway b = gridPoint start target finest (mark + 2 ^ depth) := by
        rw [Waypoint.halfway, ha, hb, lerp_gridPoint]
      have he : mark + 2 ^ (depth + 1) = mark + 2 ^ depth + 2 ^ depth := by rw [pow_succ]; omega
      rw [he] at hb ⊢
      obtain ⟨steps, ht, rfl⟩ := ih hleft ha hm
      obtain ⟨steps', ht', rfl⟩ := ih hright hm hb
      exact ⟨steps ++ steps', ht.append ht', List.map_append⟩

theorem length_split_le (h : s.split model depth a b = .ok waypoints) : waypoints.length ≤ 2 ^ depth := by
  induction depth generalizing a b waypoints with
  | zero =>
    obtain ⟨-, rfl⟩ := split_zero_eq_ok.mp h
    simp
  | succ depth ih =>
    obtain ⟨-, rfl⟩ | ⟨-, motors, left, right, hm, hl, hr, rfl⟩ := split_succ_eq_ok.mp h
    · exact Nat.one_le_two_pow
    · have hle := ih hl
      have hre := ih hr
      rw [List.length_append, Nat.pow_succ]
      omega

theorem new_eq_ok {maxDepth : UInt32} (h : Subdivision.new tolerance maxDepth = .ok s) :
    s = ⟨tolerance, maxDepth⟩ :=
  (new_eq_ok_iff.mp h).2.2

/-- Segments that end at the waypoints of a trail along the whole line. -/
private theorem Trail.followsLine {motors : MotorPosition ℝ} {last : Waypoint ℝ}
    {steps : List (ℕ × Waypoint ℝ)} {segments : List (MotorSegment ℝ)}
    (ht : Trail tolerance model (gridPoint start target depth) (0, ⟨start, motors⟩) (2 ^ depth, last) steps)
    (hlast : last.target = target)
    (hw : segments.map MotorSegment.waypoint = steps.map Prod.snd) (hl : segments.length ≤ 2 ^ depth)
    (hm : model.inverse start = .ok motors)
    (hs : ∀ segment ∈ segments, model.inverse segment.target = .ok segment.motors) :
    FollowsLine tolerance depth model start target segments (steps.map Prod.fst) where
  nonempty := by
    rintro rfl
    cases List.map_eq_nil_iff.mp hw.symm
    cases ht.ends
  length_le := hl
  targets := by
    have he : segments.map MotorSegment.target = (segments.map MotorSegment.waypoint).map Waypoint.target := by
      rw [List.map_map]
      rfl
    rw [he, hw, List.map_map, List.map_map]
    exact List.map_congr_left ht.on_line
  ascending := ht.ascending
  ends := by rw [List.getLast?_map, ht.ends]; rfl
  last_target := by
    have he : segments.getLast?.map MotorSegment.waypoint = some last := by
      rw [← List.getLast?_map, hw, List.getLast?_map, ht.ends]
      rfl
    obtain ⟨segment, hg, rfl⟩ := Option.map_eq_some_iff.mp he
    rw [hg]
    exact congrArg some hlast
  solved := hs
  pieces := by
    refine ⟨motors, hm, ?_⟩
    rw [hw, ← List.unzip_fst, ← List.unzip_snd, List.zip_unzip]
    exact ht.chain.imp fun _ _ hp => hp.2

/-- A line on kinematics that are not linear is cut at marks of its grid, ends at its target and keeps
to its pieces as far as the depth allows. Its subdivision is refused only for its start, its target or
the middle of a piece that was found to stray. -/
theorem segment_followsLine {maxDepth : UInt32} (hs : Subdivision.new tolerance maxDepth = .ok s)
    (model : MachineModel ℝ) (start : AxisPosition ℝ) (move : Move ℝ) :
    (∀ segments, model.kinematics.isLinear = false → minMoveLength ≤ start.distance move.target →
      s.segment model start move = .ok segments →
        ∃ marks, FollowsLine tolerance maxDepth.toNat model start move.target segments marks) ∧
    ∀ e, s.segment model start move = .error (.refused e) →
      model.inverse start = .error (.refused e) ∨ model.inverse move.target = .error (.refused e) ∨
        model.kinematics.isLinear = false ∧ minMoveLength ≤ start.distance move.target ∧
          ∃ first last : Waypoint ℝ, first.Solved model ∧ first.target = start ∧
            last.Solved model ∧ last.target = move.target ∧
            ∃ bisections a b, Visits s model first last bisections a b ∧
              bisections < maxDepth.toNat ∧ s.Strays model a b ∧
              model.inverse (a.halfway b) = .error (.refused e) := by
  obtain rfl := new_eq_ok hs
  constructor
  · intro segments hn hl h
    obtain ⟨startMotors, targetMotors, hstart, htarget, ⟨hshort, -⟩ | ⟨-, waypoints, hw, hseg⟩⟩ :=
      segment_eq_ok.mp h
    · exact absurd hl (not_le.mpr hshort)
    · have hlen : start.length = move.target.length :=
        (MachineModel.inverse_eq_ok.mp hstart).1.trans (MachineModel.inverse_eq_ok.mp htarget).1.symm
      rw [Subdivision.waypoints, hn, if_neg Bool.false_ne_true] at hw
      have hfirst : start = gridPoint start move.target maxDepth.toNat 0 := by
        rw [gridPoint, Nat.cast_zero, zero_div, AxisPosition.lerp_zero hlen]
      have hlast : move.target = gridPoint start move.target maxDepth.toNat (0 + 2 ^ maxDepth.toNat) := by
        rw [gridPoint, zero_add, Nat.cast_pow, Nat.cast_ofNat, div_self (by positivity),
          AxisPosition.lerp_one hlen]
      obtain ⟨steps, ht, rfl⟩ := exists_trail hw hfirst hlast
      rw [zero_add] at ht
      have hmap : segments.map MotorSegment.waypoint = steps.map Prod.snd := by
        rw [hseg, map_waypoint_withFeed]
      have hcount : segments.length ≤ 2 ^ maxDepth.toNat := by
        rw [← List.length_map (f := MotorSegment.waypoint), hmap]
        exact length_split_le hw
      exact ⟨_, ht.followsLine rfl hmap hcount hstart fun segment hm => (mem_segment h hm).1⟩
  · intro e h
    obtain h | h | ⟨hn, hl, first, last, hfirst, hlast, hstart, htarget, h⟩ := segment_eq_refused h
    · exact .inl h
    · exact .inr (.inl h)
    · exact .inr (.inr ⟨hn, not_lt.mp hl, first, last, hfirst, hstart, hlast, htarget,
        refused_halfway .line (zero_add _) h⟩)

/-- Two axes, X bent by the square of Y. -/
noncomputable def bentModel : MachineModel ℝ := ⟨Plugins.bent 1 10, ⟨2, .none, by decide⟩⟩

/-- A waypoint of the bent axes at a height with X at zero. -/
noncomputable def bentAt (y : ℝ) : Waypoint ℝ := ⟨⟨[0, y]⟩, ⟨[y * y, y]⟩⟩

theorem bentAt_solved {y : ℝ} (h : |y| ≤ 10) : (bentAt y).Solved bentModel := by
  have hl : ¬ (10 : ℝ) < Scalar.abs y := by simpa using h
  refine MachineModel.inverse_eq_ok.mpr ⟨rfl, (if_neg hl).trans ?_⟩
  simp [bentAt]

private theorem strays_bentAt : Strays ⟨1 / 10, 1⟩ bentModel (bentAt 0) (bentAt 1) := by
  obtain ⟨deviation, hd⟩ : ∃ deviation, chordDeviation bentModel (bentAt 0) (bentAt 1) = .ok deviation :=
    ⟨_, rfl⟩
  refine ⟨deviation, hd, ?_⟩
  intro hle
  have hl : (bentAt 0).target.length = (bentAt 1).target.length := rfl
  obtain ⟨point, hp, u, -, hu⟩ := chordFollows_of_chordDeviation hl hd hle 0.5 (by simp)
  cases hp
  rw [AxisPosition.distance, Coordinates.distance] at hu
  norm_num [bentAt, AxisPosition.lerp, MotorPosition.lerp, Coordinates.lerp, sum] at hu
  rw [Real.sqrt_le_left (by norm_num)] at hu
  nlinarith [sq_nonneg (1 / 2 - u)]

theorem split_bentAt : Subdivision.split ⟨1 / 10, 1⟩ bentModel 1 (bentAt 0) (bentAt 1) =
    .ok [bentAt (1 / 2), bentAt 1] := by
  have hm : (bentAt 0).halfway (bentAt 1) = ⟨[0, 1 / 2]⟩ := by
    norm_num [bentAt, Waypoint.halfway, AxisPosition.lerp, Coordinates.lerp]
  refine split_succ_eq_ok.mpr (.inr ⟨strays_bentAt, (bentAt (1 / 2)).motors, [bentAt (1 / 2)],
    [bentAt 1], ?_, ?_, ?_, rfl⟩)
  · rw [hm]
    exact bentAt_solved (by norm_num [abs_le])
  · rw [hm]
    exact split_zero_eq_ok.mpr ⟨⟨_, rfl⟩, rfl⟩
  · rw [hm]
    exact split_zero_eq_ok.mpr ⟨⟨_, rfl⟩, rfl⟩

/-- The line of one millimetre along Y strays a quarter of a millimetre and is cut in half. -/
theorem bent_line_halved : ∃ s, Subdivision.new (1 / 10 : ℝ) 1 = .ok s ∧
    bentModel.kinematics.isLinear = false ∧
    minMoveLength ≤ (bentAt 0).target.distance (bentAt 1).target ∧
    ∃ segments, s.segment bentModel (bentAt 0).target (.linear (bentAt 1).target 60) = .ok segments ∧
      segments.map MotorSegment.waypoint = [bentAt (1 / 2), bentAt 1] ∧
      ∃ marks, FollowsLine (1 / 10) 1 bentModel (bentAt 0).target (bentAt 1).target segments marks := by
  have hs : Subdivision.new (1 / 10 : ℝ) 1 = .ok ⟨1 / 10, 1⟩ := by
    have hp : isPositive (1 / 10 : ℝ) = true := by norm_num [isPositive]
    rw [Subdivision.new, hp]
    rfl
  have hd : minMoveLength ≤ (bentAt 0).target.distance (bentAt 1).target := by
    norm_num [bentAt, minMoveLength, AxisPosition.distance, Coordinates.distance, sum]
  have hg : segment ⟨1 / 10, 1⟩ bentModel (bentAt 0).target (.linear (bentAt 1).target 60) =
      .ok (withFeed 60 (bentAt 0) [bentAt (1 / 2), bentAt 1]) :=
    segment_eq_ok.mpr ⟨(bentAt 0).motors, (bentAt 1).motors, bentAt_solved (by norm_num),
      bentAt_solved (by norm_num), .inr ⟨not_lt.mpr hd, _, split_bentAt, rfl⟩⟩
  exact ⟨_, hs, rfl, hd, _, hg, map_waypoint_withFeed _ _ _,
    (segment_followsLine hs bentModel _ _).1 _ rfl hd hg⟩

end MotionControl.Subdivision
