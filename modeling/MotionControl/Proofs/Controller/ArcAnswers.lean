import MotionControl.Proofs.Arcs.Chords
import MotionControl.Proofs.Controller.ChannelCounts
import MotionControl.Proofs.Controller.Creation
import MotionControl.Proofs.Subdivision.ComparedPoses

/-! Arcs around axes that the machine or the target does not have. The ends of such an arc are looked at as if
a missing axis stood at zero, but its points in between cannot be written down: an arc of a single chord is
carried out as a line, and any other one is broken off. -/
namespace MotionControl
open Scalar
variable {α σ : Type} [Scalar α]

namespace RotaryDelta
variable {g : DeltaSettings α} {arc : Arc α} {start target : AxisPosition α}

private theorem exists_anyM {f : Nat → Checked Bool} {values : List Nat} (h : ∀ i, ∃ b, f i = .ok b) :
    ∃ b, values.anyM f = .ok b := by
  induction values with
  | nil => exact ⟨false, rfl⟩
  | cons i values ih =>
    obtain ⟨b, hb⟩ := h i
    rw [List.anyM, hb]
    cases b with
    | true => exact ⟨true, rfl⟩
    | false => exact ih

theorem exists_invalidArc (hr : g.minAngle ≤ g.maxAngle)
    (h : arc.CircleWithin (min start.length target.length)) : ∃ b, invalidArc g start target arc = .ok b := by
  rw [invalidArc]
  split
  · exact ⟨true, rfl⟩
  · refine exists_anyM fun i => ?_
    obtain ⟨p, hp⟩ := Arc.exists_pointAt h (arc.sweep start target) (ofNat (i + 1) / ofNat
      (max 1 (ceilNat (Scalar.abs (arc.sweep start target) / (pi / 2.0))) * samplesPerQuadrant))
    obtain ⟨b, hb⟩ := exists_reachable hr p
    refine ⟨!b, ?_⟩
    rw [hp]
    dsimp only [bind, Except.bind]
    rw [hb]
    rfl

theorem invalidArc_eq_error (hp : isPositive arc.radius = true)
    (h : ¬ arc.CircleWithin (min start.length target.length)) :
    invalidArc g start target arc = .error .missingAxis := by
  obtain ⟨count, hn⟩ : ∃ count, max 1 (ceilNat (Scalar.abs (arc.sweep start target) / (pi / 2.0))) *
      samplesPerQuadrant = count + 1 :=
    Nat.exists_eq_add_one.mpr (Nat.mul_pos (Nat.lt_of_lt_of_le Nat.one_pos (le_max_left ..)) (by decide))
  rw [invalidArc, hp]
  dsimp only
  rw [hn, List.range_succ_eq_map, List.anyM, Arc.pointAt_eq_error h]
  rfl

end RotaryDelta

namespace KinematicsCatalog
variable {catalog : KinematicsCatalog α} {machine : MachineDescription α} {model : MachineModel α}
  {arc : Arc α} {start target : AxisPosition α}

theorem inverseAnswers [StrictlyOrderedScalar α] (hc : catalog.create machine = .ok model)
    (hb : ∀ name params, machine.kinematics ≠ .custom name params) : model.InverseAnswers := by
  intro p h
  rw [MachineModel.inverse] at h
  split at h
  · exact absurd h Outcome.not_breaksOff_refuse
  · obtain ⟨fault, h⟩ := h
    cases builtInModel hc hb with
    | cartesian => cases h
    | coreXY =>
      change CoreXY.inverse _ p = _ at h
      rw [CoreXY.inverse] at h
      split at h <;> cases h
    | parallelDelta selected valid =>
      exact RotaryDelta.inverse_ne_fault (StrictlyOrderedScalar.le_of_lt (RotaryDelta.of_validate valid).2) fault h

/-- An arc is checked point by point by the delta, whose lines are not linear, and not at all by the others. -/
theorem invalidArc_linear (hc : catalog.create machine = .ok model)
    (hb : ∀ name params, machine.kinematics ≠ .custom name params)
    (hl : model.kinematics.isLinear = true) : model.invalidArc start target arc = .ok false := by
  cases builtInModel hc hb with
  | cartesian => rfl
  | coreXY => rfl
  | parallelDelta => cases hl

theorem exists_invalidArc [StrictlyOrderedScalar α] (hc : catalog.create machine = .ok model)
    (hb : ∀ name params, machine.kinematics ≠ .custom name params)
    (h : arc.CircleWithin (min start.length target.length)) :
    ∃ b, model.invalidArc start target arc = .ok b := by
  cases builtInModel hc hb with
  | cartesian => exact ⟨false, rfl⟩
  | coreXY => exact ⟨false, rfl⟩
  | parallelDelta selected valid =>
    exact RotaryDelta.exists_invalidArc (StrictlyOrderedScalar.le_of_lt (RotaryDelta.of_validate valid).2) h

theorem invalidArc_curved (hc : catalog.create machine = .ok model)
    (hb : ∀ name params, machine.kinematics ≠ .custom name params) (hl : model.kinematics.isLinear = false)
    (hp : isPositive arc.radius = true) (h : ¬ arc.CircleWithin (min start.length target.length)) :
    model.invalidArc start target arc = .error .missingAxis := by
  cases builtInModel hc hb with
  | cartesian => cases hl
  | coreXY => cases hl
  | parallelDelta => exact RotaryDelta.invalidArc_eq_error hp h

end KinematicsCatalog

namespace Controller
variable {c : Controller α} {move : Move α} {arc : Arc α} {start current : AxisPosition α}
  {points : List (AxisPosition α)}

/-- The radius of an arc is positive and both its ends are on the circle, as far as they have its axes. -/
structure Spans (c : Controller α) (arc : Arc α) (current target : AxisPosition α) : Prop where
  radius : isPositive arc.radius = true
  start : arc.onCircle current (circleTolerance arc.radius) = true
  target : arc.onCircle target (circleTolerance arc.radius) = true

/-- The poses that the chords of an arc are compared with, one chord after the other. -/
inductive ComparesChords (c : Controller α) (move : Move α) :
    AxisPosition α → List (AxisPosition α) → MotorPosition α → Prop where
  | chord {start point : AxisPosition α} {rest : List (AxisPosition α)} {pose : MotorPosition α}
      (inside : c.model.invalidLine point = false)
      (line : c.subdivision.ComparesLine c.model start point pose) : ComparesChords c move start (point :: rest) pose
  | later {start point : AxisPosition α} {rest : List (AxisPosition α)} {pose : MotorPosition α}
      {segments : List (MotorSegment α)} (inside : c.model.invalidLine point = false)
      (segmented : c.subdivision.segment c.model start { move with target := point } = .ok segments)
      (chords : ComparesChords c move point rest pose) : ComparesChords c move start (point :: rest) pose

theorem breaksOff_chordSegments_iff (hi : c.model.InverseAnswers) :
    Outcome.BreaksOff (c.chordSegments move start points) ↔ ∃ pose, c.ComparesChords move start points pose ∧
      ∃ fault, c.model.forward pose c.model.axisCount = .error fault := by
  induction points generalizing start with
  | nil =>
    constructor
    · rintro ⟨fault, ⟨⟩⟩
    · rintro ⟨pose, ⟨⟩, -⟩
  | cons point rest ih =>
    rw [chordSegments, Outcome.breaksOff_guard, Bool.not_eq_true, Outcome.breaksOff_bind,
      Outcome.breaksOff_mapReason, Subdivision.breaksOff_segment_iff hi]
    constructor
    · rintro ⟨inside, ⟨pose, line, hf⟩ | ⟨segments, hs, h⟩⟩
      · exact ⟨pose, .chord inside line, hf⟩
      · obtain h | ⟨_, -, h⟩ := Outcome.breaksOff_bind.mp h
        · obtain ⟨pose, chords, hf⟩ := ih.mp h
          exact ⟨pose, .later inside (Outcome.mapReason_eq_ok.mp hs) chords, hf⟩
        · exact absurd h Outcome.not_breaksOff_ok
    · rintro ⟨pose, hp, hf⟩
      cases hp with
      | chord inside line => exact ⟨inside, .inl ⟨pose, line, hf⟩⟩
      | later inside segmented chords =>
        refine ⟨inside, .inr ⟨_, Outcome.mapReason_eq_ok.mpr segmented, ?_⟩⟩
        exact Outcome.breaksOff_bind.mpr (.inl (ih.mpr ⟨pose, chords, hf⟩))

theorem arcSegments_of_not_spans (hp : c.position = .ok current) (hs : ¬ c.Spans arc current move.target) :
    ∃ reason, c.arcSegments move arc = .error (.refused (.invalidArc reason)) := by
  rw [arcSegments, hp]
  dsimp only [Checked.lift, bind, Except.bind]
  split
  · exact ⟨_, rfl⟩
  · rename_i hr
    split
    · exact ⟨_, rfl⟩
    · rename_i hc
      simp only [Bool.or_eq_true, Bool.not_eq_true', not_or, Bool.not_eq_false] at hr hc
      exact absurd ⟨hr, hc.1, hc.2⟩ hs

/-- What is left of an arc that spans its circle: a check by the kinematics, then the chords. -/
def expand (c : Controller α) (move : Move α) (arc : Arc α) (current : AxisPosition α) :
    Outcome MotionError (List (MotorSegment α)) := do
  if ← Checked.lift (c.model.invalidArc current move.target arc) then
    refuse (.invalidArc s!"arc leaves the {c.model.name} workspace")
  let points ← Checked.lift (arc.collectChords current move.target c.arcTolerance)
  c.chordSegments move current points

theorem arcSegments_of_spans (hp : c.position = .ok current) (hs : c.Spans arc current move.target) :
    c.arcSegments move arc = c.expand move arc current := by
  rw [arcSegments, hp]
  dsimp only [Checked.lift, bind, Except.bind]
  rw [hs.radius, hs.start, hs.target]
  rfl

theorem expand_of_fault {fault : Fault} (h : c.model.invalidArc current move.target arc = .error fault) :
    c.expand move arc current = .error (.fault fault) := by
  rw [expand, h]
  rfl

theorem expand_of_outside (h : c.model.invalidArc current move.target arc = .ok true) :
    ∃ reason, c.expand move arc current = .error (.refused (.invalidArc reason)) := by
  rw [expand, h]
  exact ⟨_, rfl⟩

theorem expand_of_inside (h : c.model.invalidArc current move.target arc = .ok false) :
    c.expand move arc current =
      Checked.lift (arc.collectChords current move.target c.arcTolerance) >>= c.chordSegments move current := by
  rw [expand, h]
  rfl

/-- A single chord is a line to the target. Unless the target is outside the workspace, it is not refused as
an arc. -/
theorem chordSegments_singleton_eq_invalidArc :
    (∃ reason, c.chordSegments move start [move.target] = .error (.refused (.invalidArc reason))) ↔
      c.model.invalidLine move.target = true := by
  rw [chordSegments]
  by_cases h : c.model.invalidLine move.target = true
  · rw [if_pos h]
    exact iff_of_true ⟨_, rfl⟩ h
  · rw [if_neg h]
    refine iff_of_false ?_ h
    rintro ⟨reason, hr⟩
    obtain hr | ⟨_, -, hr⟩ := Outcome.bind_eq_error.mp hr
    · obtain ⟨e, -, he⟩ := Outcome.mapReason_eq_refused.mp hr
      cases he
    · cases hr

theorem result_offer (planner : Planner α σ) (move : Move α) (ticket : Option JogTicket) (accepted : Nat)
    (segments : List (MotorSegment α)) (c : Controller α) (state : σ) :
    (∃ n, (offer planner move ticket accepted segments c state).result = .ok n) ∨
      ∃ i e, (offer planner move ticket accepted segments c state).result = refuse (.plannerRejected i e) := by
  induction segments generalizing accepted c state with
  | nil => exact .inl ⟨accepted, rfl⟩
  | cons segment rest ih =>
    rw [offer]
    split
    · exact .inl ⟨accepted, rfl⟩
    · dsimp only
      split
      · exact .inr ⟨accepted, _, rfl⟩
      · exact ih _ _ _

theorem not_breaksOff_offer (planner : Planner α σ) (move : Move α) (ticket : Option JogTicket) (accepted : Nat)
    (segments : List (MotorSegment α)) (c : Controller α) (state : σ) :
    ¬ Outcome.BreaksOff (offer planner move ticket accepted segments c state).result := by
  obtain ⟨n, ho⟩ | ⟨i, e, ho⟩ := result_offer planner move ticket accepted segments c state
  · rw [ho]
    exact Outcome.not_breaksOff_ok
  · rw [ho]
    exact Outcome.not_breaksOff_refuse

theorem offer_ne_invalidArc (planner : Planner α σ) (move : Move α) (ticket : Option JogTicket) (accepted : Nat)
    (segments : List (MotorSegment α)) (c : Controller α) (state : σ) (reason : String) :
    (offer planner move ticket accepted segments c state).result ≠ .error (.refused (.invalidArc reason)) := by
  intro h
  obtain ⟨n, ho⟩ | ⟨i, e, ho⟩ := result_offer planner move ticket accepted segments c state
  · rw [ho] at h
    cases h
  · rw [ho] at h
    cases h

/-- What a caller relies on: an arc is carried out or refused, and one around axes that the machine or the
target does not have is refused for it, before a planner is offered anything. -/
structure AnswersArc (c : Controller α) (planner : Planner α σ) (state : σ) (move : Move α) (arc : Arc α) :
    Prop where
  ends : ¬ Outcome.BreaksOff (c.arcTo planner state move arc).result
  refused : ¬ arc.CircleWithin (min c.model.axisCount move.target.length) → ∃ reason,
    (c.arcTo planner.recorded (state, []) move arc).result = .error (.refused (.invalidArc reason)) ∧
      (c.arcTo planner.recorded (state, []) move arc).planner = (state, [])

theorem answersArc_iff_segments (planner : Planner α σ) (state : σ) : c.AnswersArc planner state move arc ↔
    ¬ Outcome.BreaksOff (c.arcSegments move arc) ∧
      (¬ arc.CircleWithin (min c.model.axisCount move.target.length) →
        ∃ reason, c.arcSegments move arc = .error (.refused (.invalidArc reason))) := by
  cases h : c.arcSegments move arc with
  | error failure =>
    have hp : c.arcTo planner state move arc = ⟨.error failure, c, state⟩ := by rw [arcTo, h]
    have hr : c.arcTo planner.recorded (state, []) move arc = ⟨.error failure, c, (state, [])⟩ := by rw [arcTo, h]
    rw [Outcome.breaksOff_error]
    constructor
    · rintro ⟨ends, refused⟩
      rw [hp, Outcome.breaksOff_error] at ends
      simp only [hr] at refused
      exact ⟨ends, fun hn => (refused hn).imp fun _ hf => congrArg _ (Except.error.inj hf.1)⟩
    · rintro ⟨ends, refused⟩
      refine ⟨by rwa [hp, Outcome.breaksOff_error], fun hn => ?_⟩
      obtain ⟨reason, hf⟩ := refused hn
      rw [hr]
      exact ⟨reason, congrArg _ (Except.error.inj hf), rfl⟩
  | ok segments =>
    constructor
    · rintro ⟨-, refused⟩
      refine ⟨Outcome.not_breaksOff_ok, fun hn => ?_⟩
      obtain ⟨reason, hf, -⟩ := refused hn
      rw [arcTo, h] at hf
      exact absurd hf (offer_ne_invalidArc planner.recorded move none 0 segments c (state, []) reason)
    · rintro ⟨-, refused⟩
      refine ⟨?_, fun hn => ?_⟩
      · rw [arcTo, h]
        exact not_breaksOff_offer planner move none 0 segments c state
      · obtain ⟨reason, ⟨⟩⟩ := refused hn

/-- The forward transform of every pose that the chords of an arc are compared with is finite. Linear
kinematics compare none. -/
def TracksChords (c : Controller α) (move : Move α) (arc : Arc α) (current : AxisPosition α) : Prop :=
  ∀ points pose, arc.chords current move.target c.arcTolerance = .ok points →
    c.ComparesChords move current points pose → ∃ p, c.model.forward pose c.model.axisCount = .ok p

theorem not_comparesChords_of_linear (hl : c.model.kinematics.isLinear = true) {pose : MotorPosition α} :
    ¬ c.ComparesChords move start points pose := by
  intro chords
  induction chords with
  | chord _ line =>
    obtain ⟨curved⟩ := line
    rw [hl] at curved
    cases curved
  | later _ _ _ ih => exact ih

theorem tracksChords_of_linear (hl : c.model.kinematics.isLinear = true) : c.TracksChords move arc current :=
  fun _ _ _ chords => absurd chords (not_comparesChords_of_linear hl)

variable {catalog : KinematicsCatalog α} {machine : MachineDescription α}

/-- An arc whose ends have the axes of its circle is broken off by its chords or not at all. -/
theorem breaksOff_expand_within [StrictlyOrderedScalar α] (hr : Reachable catalog machine c)
    (hb : ∀ name params, machine.kinematics ≠ .custom name params)
    (hw : arc.CircleWithin (min current.length move.target.length)) :
    ¬ Outcome.BreaksOff (c.expand move arc current) ↔
      (c.model.invalidArc current move.target arc = .ok false →
        arc.HasRoom current move.target c.arcTolerance ∧ c.TracksChords move arc current) := by
  obtain ⟨outside, ho⟩ := KinematicsCatalog.exists_invalidArc hr.create hb hw
  obtain ⟨points, hp⟩ := Arc.exists_chords hw c.arcTolerance
  cases outside with
  | true =>
    obtain ⟨reason, he⟩ := expand_of_outside ho
    rw [he]
    exact iff_of_true Outcome.not_breaksOff_refuse fun hn => by simp [ho] at hn
  | false =>
    rw [expand_of_inside ho, forall_prop_of_true ho]
    by_cases hroom : arc.HasRoom current move.target c.arcTolerance
    · rw [Arc.collectChords_of_room hroom, hp, and_iff_right hroom]
      change ¬ Outcome.BreaksOff (c.chordSegments move current points) ↔ _
      rw [breaksOff_chordSegments_iff (KinematicsCatalog.inverseAnswers hr.create hb)]
      simp only [TracksChords, hp, Except.ok.injEq, not_exists, not_and]
      constructor
      · rintro h _ pose rfl chords
        cases hf : c.model.forward pose c.model.axisCount with
        | ok p => exact ⟨p, rfl⟩
        | error fault => exact absurd hf (h pose chords fault)
      · intro h pose chords fault hf
        obtain ⟨p, hk⟩ := h points pose rfl chords
        rw [hf] at hk
        cases hk
    · rw [Arc.collectChords_eq_error hroom]
      exact iff_of_false (fun h => h ⟨.capacityOverflow, rfl⟩) fun h => hroom h.1

/-- An arc around an axis that one of its ends does not have gets by without its points if it is a single chord
and lines need no subdivision. It is then as good as a line to its target. -/
theorem expand_beyond (hr : Reachable catalog machine c)
    (hb : ∀ name params, machine.kinematics ≠ .custom name params) (hs : c.Spans arc current move.target)
    (hw : ¬ arc.CircleWithin (min current.length move.target.length)) :
    (¬ Outcome.BreaksOff (c.expand move arc current) ∧
        ∃ reason, c.expand move arc current = .error (.refused (.invalidArc reason))) ↔
      c.model.kinematics.isLinear = true ∧ arc.chordCount (arc.sweep current move.target) c.arcTolerance = 1 ∧
        c.model.invalidLine move.target = true := by
  by_cases hl : c.model.kinematics.isLinear = true
  · have ho : c.model.invalidArc current move.target arc = .ok false :=
      KinematicsCatalog.invalidArc_linear hr.create hb hl
    by_cases hc : arc.chordCount (arc.sweep current move.target) c.arcTolerance = 1
    · have he : c.expand move arc current = c.chordSegments move current [move.target] := by
        rw [expand_of_inside ho, Arc.collectChords_of_room (Arc.hasRoom_of_single hc), Arc.chords_of_single hc]
        rfl
      rw [he, chordSegments_singleton_eq_invalidArc]
      refine ⟨fun h => ⟨hl, hc, h.2⟩, fun h => ⟨?_, h.2.2⟩⟩
      obtain ⟨reason, hf⟩ := chordSegments_singleton_eq_invalidArc.mpr h.2.2
      rw [hf]
      exact Outcome.not_breaksOff_refuse
    · refine iff_of_false (fun h => h.1 ?_) fun h => hc h.2.1
      rw [expand_of_inside ho]
      by_cases hroom : arc.HasRoom current move.target c.arcTolerance
      · rw [Arc.collectChords_of_room hroom, Arc.chords_eq_error hw hc]
        exact ⟨.missingAxis, rfl⟩
      · rw [Arc.collectChords_eq_error hroom]
        exact ⟨.capacityOverflow, rfl⟩
  · have ho : c.model.invalidArc current move.target arc = .error .missingAxis :=
      KinematicsCatalog.invalidArc_curved hr.create hb (Bool.eq_false_iff.mpr hl) hs.radius hw
    exact iff_of_false (fun h => h.1 ⟨_, expand_of_fault ho⟩) fun h => hl h.1

/-- For every machine with built-in kinematics, every state that its controller can reach, every planner and
every arc: the arc is answered as a caller relies on exactly when the tracked motors stand at a position and,
if the arc spans its circle, one of two things holds. Where both its ends have the axes of the circle and the
kinematics lets it through, there is room for its chords and they only come to finite poses. Where an end does
not have them, it is a single chord to a target outside the workspace of linear kinematics. -/
theorem answersArc_iff [StrictlyOrderedScalar α] (hr : Reachable catalog machine c)
    (hb : ∀ name params, machine.kinematics ≠ .custom name params) (planner : Planner α σ) (state : σ)
    (move : Move α) (arc : Arc α) : c.AnswersArc planner state move arc ↔
      ∃ current, c.position = .ok current ∧ (c.Spans arc current move.target →
        (arc.CircleWithin (min c.model.axisCount move.target.length) →
          c.model.invalidArc current move.target arc = .ok false →
            arc.HasRoom current move.target c.arcTolerance ∧ c.TracksChords move arc current) ∧
        (¬ arc.CircleWithin (min c.model.axisCount move.target.length) →
          c.model.kinematics.isLinear = true ∧
            arc.chordCount (arc.sweep current move.target) c.arcTolerance = 1 ∧
            c.model.invalidLine move.target = true)) := by
  rw [answersArc_iff_segments]
  cases hp : c.position with
  | error fault =>
    refine iff_of_false (fun h => h.1 ⟨fault, ?_⟩) (by simp)
    rw [arcSegments, hp]
    rfl
  | ok current =>
    simp only [Except.ok.injEq, exists_eq_left']
    by_cases hs : c.Spans arc current move.target
    · have hn : current.length = c.model.axisCount := KinematicsCatalog.length_of_forward hr.create hb hp
      rw [arcSegments_of_spans hp hs, ← hn]
      simp only [hs, forall_const]
      by_cases hw : arc.CircleWithin (min current.length move.target.length)
      · simpa [hw] using breaksOff_expand_within hr hb hw
      · simpa [hw] using expand_beyond hr hb hs hw
    · obtain ⟨reason, hf⟩ := arcSegments_of_not_spans hp hs
      rw [hf]
      exact iff_of_true ⟨Outcome.not_breaksOff_refuse, fun _ => ⟨reason, rfl⟩⟩ fun h => absurd h hs

/-- A full circle in the plane of X and another axis. -/
noncomputable def circleWith (second : Nat) : Arc ℝ where
  center := (5, 0)
  radius := 5
  plane := ⟨0, second, 2⟩

section circleWith
variable (second : Nat)

theorem offset_circleWith : (circleWith second).offset ⟨[0, 0, 0]⟩ = (-5, 0) := by
  have hz : (⟨[0, 0, 0]⟩ : AxisPosition ℝ).axis second = 0 := by
    match second with
    | 0 | 1 | 2 => rfl
    | n + 3 => exact Scalar.zero_real
  rw [Arc.offset]
  change ((0 : ℝ) - 5, (⟨[0, 0, 0]⟩ : AxisPosition ℝ).axis second - 0) = _
  rw [hz]
  norm_num

theorem onCircle_circleWith {tolerance : ℝ} (ht : 0 ≤ tolerance) :
    (circleWith second).onCircle ⟨[0, 0, 0]⟩ tolerance = true := by
  have hh : Scalar.hypot (-5 : ℝ) 0 = 5 := by
    change √(-5 * -5 + 0 * 0) = 5
    rw [Real.sqrt_eq_iff_mul_self_eq] <;> norm_num
  rw [Arc.onCircle, offset_circleWith, decide_eq_true_eq, hh, Scalar.abs_real]
  change |(5 : ℝ) - 5| ≤ tolerance
  rw [sub_self, abs_zero]
  exact ht

theorem sweep_circleWith : (circleWith second).sweep ⟨[0, 0, 0]⟩ ⟨[0, 0, 0]⟩ = 2 * Real.pi := by
  have ha : Scalar.atan2 ((-5 : ℝ) * 0 - 0 * -5) (-5 * -5 + 0 * 0) = 0 := by
    change Complex.arg ⟨-5 * -5 + 0 * 0, -5 * 0 - 0 * -5⟩ = 0
    have hz : (⟨-5 * -5 + 0 * 0, -5 * 0 - 0 * -5⟩ : ℂ) = ((25 : ℝ) : ℂ) := by
      apply Complex.ext <;> norm_num
    rw [hz, Complex.arg_ofReal_of_nonneg (by norm_num)]
  rw [Arc.sweep, offset_circleWith]
  dsimp only
  rw [ha]
  norm_num [circleWith]

/-- Half its length is between fifteen and sixteen millimetres, and half a chord between a tenth and one. -/
theorem chordCount_circleWith : 1 < (circleWith second).chordCount (2 * Real.pi) 0.002 ∧
    (circleWith second).chordCount (2 * Real.pi) 0.002 ≤ 160 := by
  have hspan : 0 < (0.002 : ℝ) * (2 * (circleWith second).radius - 0.002) := by
    norm_num [circleWith]
  have hlong : |2 * Real.pi * (circleWith second).radius / 2| = 5 * Real.pi := by
    rw [circleWith, abs_of_pos (by positivity)]
    ring
  have hlow : (1 / 10 : ℝ) ≤ √(0.002 * (2 * (circleWith second).radius - 0.002)) := by
    refine Real.le_sqrt_of_sq_le ?_
    norm_num [circleWith]
  have hhigh : √(0.002 * (2 * (circleWith second).radius - 0.002)) < 1 := by
    rw [Real.sqrt_lt' one_pos]
    norm_num [circleWith]
  have hpos := Real.sqrt_pos.mpr hspan
  rw [Arc.chordCount_eq hspan, hlong]
  constructor
  · refine lt_max_of_lt_right (Nat.lt_ceil.mpr ?_)
    rw [Nat.cast_one, one_lt_div hpos]
    linarith only [hhigh, Real.pi_gt_three]
  · refine max_le (by norm_num) (Nat.ceil_le.mpr ?_)
    rw [div_le_iff₀ hpos, Nat.cast_ofNat]
    linarith only [hlow, Real.pi_lt_d2]

theorem hasRoom_circleWith : (circleWith second).HasRoom ⟨[0, 0, 0]⟩ ⟨[0, 0, 0]⟩ 0.002 := by
  rw [Arc.HasRoom, sweep_circleWith]
  have hcount := (Nat.sub_le _ 1).trans (chordCount_circleWith second).2
  exact (Nat.mul_le_mul_right _ hcount).trans (by decide)

end circleWith

theorem exists_default : ∃ c : Controller ℝ, ofMachine .builtin default = .ok c ∧
    c.position = .ok ⟨[0, 0, 0]⟩ ∧ c.model.kinematics.isLinear = true ∧ c.model.axisCount = 3 ∧
    c.arcTolerance = 0.002 := by
  obtain ⟨model, hm⟩ : ∃ model, KinematicsCatalog.builtin.create (default : MachineDescription ℝ) = .ok model :=
    ⟨_, rfl⟩
  refine ⟨_, ofMachine_builtIn hm MotionSettings.validate_default (fun _ _ => nofun), ?_⟩
  cases hm
  refine ⟨?_, rfl, rfl, rfl⟩
  change AxisPosition.new [(0.0 : ℝ), 0.0, 0.0] = .ok ⟨[0, 0, 0]⟩
  rw [AxisPosition.new_real, Scalar.zero_real]

theorem spans_circleWith (c : Controller ℝ) (second : Nat) :
    c.Spans (circleWith second) ⟨[0, 0, 0]⟩ ⟨[0, 0, 0]⟩ := by
  have htolerance : 0 ≤ circleTolerance (circleWith second).radius := by
    rw [circleTolerance, Scalar.larger_real]
    exact le_max_of_le_right (by norm_num)
  have hcircle := onCircle_circleWith second htolerance
  exact ⟨(Scalar.isPositive_real _).mpr (by norm_num [circleWith]), hcircle, hcircle⟩

/-- A full circle through the origin is carried out, or refused, by the default machine. -/
theorem full_circle_answered : ∃ c : Controller ℝ, Reachable .builtin default c ∧
    (∀ name params, (default : MachineDescription ℝ).kinematics ≠ .custom name params) ∧
    c.AnswersArc SegmentQueue.planner { capacity := 4 } (.linear ⟨[0, 0, 0]⟩ 600) (circleWith 1) := by
  have hb : ∀ name params, (default : MachineDescription ℝ).kinematics ≠ .custom name params := fun _ _ => nofun
  obtain ⟨c, hc, hp, hl, hn, ht⟩ := exists_default
  have hw : (circleWith 1).CircleWithin
      (min c.model.axisCount (Move.linear ⟨[0, 0, 0]⟩ 600 : Move ℝ).target.length) := by
    rw [hn]
    exact ⟨by decide, by decide⟩
  have hroom := ht ▸ hasRoom_circleWith 1
  exact ⟨c, .start hc, hb, (answersArc_iff (.start hc) hb SegmentQueue.planner { capacity := 4 } _ _).mpr
    ⟨_, hp, fun _ => ⟨fun _ _ => ⟨hroom, tracksChords_of_linear hl⟩, absurd hw⟩⟩⟩

/-- The circle ends where it begins, and both ends pass for points of it. -/
theorem circle_around_eighth_axis_broken_off : ∃ c : Controller ℝ, ofMachine .builtin default = .ok c ∧
    (c.arcTo SegmentQueue.planner { capacity := 4 } (.linear ⟨[0, 0, 0]⟩ 600) (circleWith 7)).result =
      .error (.fault .missingAxis) ∧
    ¬ c.AnswersArc SegmentQueue.planner { capacity := 4 } (.linear ⟨[0, 0, 0]⟩ 600) (circleWith 7) := by
  obtain ⟨c, hc, hp, hl, -, ht⟩ := exists_default
  have hb : ¬ (circleWith 7).CircleWithin
      (min (⟨[0, 0, 0]⟩ : AxisPosition ℝ).length (⟨[0, 0, 0]⟩ : AxisPosition ℝ).length) := by
    rintro ⟨-, h⟩
    exact absurd h (by decide)
  have hcollect : (circleWith 7).collectChords ⟨[0, 0, 0]⟩ ⟨[0, 0, 0]⟩ c.arcTolerance = .error .missingAxis := by
    rw [ht, Arc.collectChords_of_room (hasRoom_circleWith 7), Arc.chords_eq_error hb]
    rw [sweep_circleWith]
    exact (chordCount_circleWith 7).1.ne'
  have hf : c.arcSegments (.linear ⟨[0, 0, 0]⟩ 600) (circleWith 7) = .error (.fault .missingAxis) := by
    rw [arcSegments_of_spans hp (spans_circleWith c 7), expand_of_inside (KinematicsCatalog.invalidArc_linear
      (of_ofMachine hc).1 (by rintro _ _ ⟨⟩) hl)]
    exact Outcome.bind_eq_error.mpr (.inl (Outcome.lift_eq_fault.mpr hcollect))
  refine ⟨c, hc, ?_, fun h => ?_⟩
  · rw [arcTo, hf]
  · exact ((answersArc_iff_segments _ _).mp h).1 ⟨_, hf⟩

end Controller

end MotionControl
